import TraceLedger.Proofs.Walk.Independence
import TraceLedger.Proofs.Walk.Reach
import TraceLedger.Proofs.Walk.Traversal

/-! # Walks to different depths

A walk with a smaller depth limit does what a walk with a larger one does, as far as it goes. Its
records are numbered otherwise, since the calls that are too deep do not count, and so the records
are compared without what links them to each other. The calls at the smaller limit are those that
are left out. -/

namespace TraceLedger

/-- A record but for its identifier and that of the record above it. -/
def Transaction.withoutLinks (t : Transaction) : Transaction := { t with id := "", parentId := "" }

namespace Emitted

def withoutLinks (e : Emitted) : Emitted := { e with transaction := e.transaction.withoutLinks }

@[simp] theorem isContract_withoutLinks (e : Emitted) : e.withoutLinks.isContract = e.isContract :=
  rfl

@[simp] theorem level_withoutLinks (e : Emitted) :
    e.withoutLinks.transaction.level = e.transaction.level := rfl

/-! ## Logs -/

theorem contractLevel?_map_withoutLinks (calls : List Emitted) :
    contractLevel? (calls.map withoutLinks) = contractLevel? calls := by
  induction calls with
  | nil => rfl
  | cons e rest ih => rw [List.map_cons, contractLevel?, contractLevel?, ih]; rfl

theorem addLogsAt_map_withoutLinks (level : UInt16) (logs : List EthLog) (calls : List Emitted) :
    addLogsAt level logs (calls.map withoutLinks) =
      (addLogsAt level logs calls).map Transaction.withoutLinks := by
  induction calls with
  | nil => rfl
  | cons e rest ih =>
      rw [List.map_cons, addLogsAt, addLogsAt, ih, isContract_withoutLinks, level_withoutLinks]
      split
      · rw [List.map_cons, List.map_map, List.map_map]
        rfl
      · rfl

/-- Which call gets the logs does not depend on links. -/
theorem transactions_map_withoutLinks (logs : List EthLog) (calls : List Emitted) :
    transactions logs (calls.map withoutLinks) =
      (transactions logs calls).map Transaction.withoutLinks := by
  unfold transactions
  rw [contractLevel?_map_withoutLinks]
  split
  · exact addLogsAt_map_withoutLinks _ _ calls
  · rw [List.map_map, List.map_map]
    rfl

/-- Leaving out the deeper calls leaves the logs where they are, or leaves them out: they are at
one of the topmost calls. -/
theorem transactions_filter_level {p : UInt16 → Bool}
    (hp : ∀ level other, level ≤ other → p other = true → p level = true) (logs : List EthLog)
    (calls : List Emitted) :
    (transactions logs calls).filter (p ·.level) =
      transactions logs (calls.filter (p ·.transaction.level)) := by
  have hplain (calls : List Emitted) : (calls.map Emitted.transaction).filter (p ·.level) =
      (calls.filter (p ·.transaction.level)).map Emitted.transaction := by
    rw [List.filter_map]
    rfl
  by_cases hlogs : logs = []
  · rw [hlogs, transactions_nil_logs, transactions_nil_logs, hplain]
  by_cases hcontract : ∃ e ∈ calls, e.isContract = true
  · obtain ⟨before, e, after, rfl, htop⟩ := exists_isTopmost hcontract
    have hlevel : (e.withLogs logs).level = e.transaction.level := rfl
    rw [transactions_of_isTopmost htop hlogs, List.filter_append, List.filter_append, hplain,
      List.filter_cons, List.filter_cons, hlevel]
    by_cases he : p e.transaction.level = true
    · have htop' : IsTopmost (before.filter (p ·.transaction.level)) e
          (after.filter (p ·.transaction.level)) :=
        ⟨htop.isContract, fun x hx => htop.lt_before x (List.mem_filter.mp hx).1,
          fun x hx => htop.le_after x (List.mem_filter.mp hx).1⟩
      rw [if_pos he, if_pos he, hplain, transactions_of_isTopmost htop' hlogs]
    · -- No call that is left entered a contract, since all of them are above the topmost one.
      have hnone : ∀ x ∈ before.filter (p ·.transaction.level) ++
          after.filter (p ·.transaction.level), x.isContract = false := by
        intro x hx
        refine Bool.eq_false_iff.mpr fun hcontract => he ?_
        rcases List.mem_append.mp hx with hx | hx
        · obtain ⟨hmem, hpx⟩ := List.mem_filter.mp hx
          exact hp _ _ (UInt16.le_of_lt (htop.lt_before x hmem hcontract)) hpx
        · obtain ⟨hmem, hpx⟩ := List.mem_filter.mp hx
          exact hp _ _ (htop.le_after x hmem hcontract) hpx
      rw [if_neg he, if_neg he, hplain, transactions_of_forall_eq_false hnone, List.map_append]
  · have hnone : ∀ e ∈ calls, e.isContract = false := fun e he =>
      Bool.eq_false_iff.mpr fun htrue => hcontract ⟨e, he, htrue⟩
    rw [transactions_of_forall_eq_false hnone, hplain, transactions_of_forall_eq_false]
    exact fun e he => hnone e (List.mem_filter.mp he).1

end Emitted

namespace Walker

open Visit

/-- The walker with another depth limit. -/
def withMaxDepth (w : Walker) (limit : UInt64) : Walker :=
  { w with config := { w.config with maxDepth := limit } }

@[simp] theorem maxDepth_withMaxDepth (w : Walker) (limit : UInt64) :
    (w.withMaxDepth limit).config.maxDepth = limit := rfl

@[simp] theorem emit_withMaxDepth (w : Walker) (limit : UInt64) (scope : Scope) (frame : Frame)
    (index : Nat) (receiver : ActorKind) :
    (w.withMaxDepth limit).emit scope frame index receiver = w.emit scope frame index receiver :=
  rfl

/-! ## One visit -/

/-- What becomes of a call does not depend on links. -/
theorem map_withoutLinks_emit (w : Walker) (scope : Scope) (trace : Trace) (level : UInt16)
    (parent other : String) (index index' : Nat) (receiver : ActorKind) :
    (w.emit scope ⟨trace, level, parent⟩ index receiver).map Emitted.withoutLinks =
      (w.emit scope ⟨trace, level, other⟩ index' receiver).map Emitted.withoutLinks := by
  unfold emit
  simp only [emitFinished, emitUnfinished]
  split
  · simp only [Except.map, Emitted.withoutLinks, Transaction.withoutLinks, transaction]
  · split
    · simp only [Except.map]
    · simp only [Except.map, Emitted.withoutLinks, Transaction.withoutLinks, transaction]

theorem fst_recordParties (w : Walker) (scope : Scope) (message : Trace.Message) {s : WalkState}
    (hs : w.resolver.Sound s.resolver) :
    (w.recordParties scope message s).1 = w.receiverKind scope message := by
  unfold recordParties receiverKind
  split
  · have hsender : w.resolver.Sound (w.recordAddress scope message.sender s).2.resolver :=
      hs.resolve message.sender scope.tipset.key
    simp only [w.recordAddress_eq scope message.receiver hsender]
  · rfl

theorem sound_recordParties (w : Walker) (scope : Scope) (message : Trace.Message)
    {s : WalkState} (hs : w.resolver.Sound s.resolver) :
    w.resolver.Sound (w.recordParties scope message s).2.resolver := by
  unfold recordParties
  split
  · exact (hs.resolve message.sender scope.tipset.key).resolve message.receiver scope.tipset.key
  · exact hs

theorem sound_visit {w : Walker} {scope : Scope} {frame : Frame} {s t : WalkState}
    (hs : w.resolver.Sound s.resolver) {record? : Option Emitted}
    (h : w.visit scope frame s = (record?, t)) : w.resolver.Sound t.resolver := by
  have hparties := w.sound_recordParties scope frame.trace.message hs
  unfold visit at h
  split at h
  · cases h
    exact hs
  · simp only at h
    split at h
    · cases h
      exact hparties
    · cases h
      exact hparties

end Walker

/-- A stop but for the links of its record. -/
def Stop.withoutLinks (stop : Stop) : Stop :=
  { stop with parent := "", index := 0, outcome := stop.outcome.map Emitted.withoutLinks }

/-- What a stop is for a walk with a smaller limit. -/
def Stop.cutAt (limit : Nat) (stop : Stop) : Stop :=
  if stop.path.length < limit then stop else { stop with outcome := .error .tooDeep }

theorem Stop.record?_withoutLinks (stop : Stop) :
    stop.withoutLinks.record? = stop.record?.map Emitted.withoutLinks := by
  cases h : stop.outcome <;> simp [Visit.record?, withoutLinks, h, Except.map]

theorem Stop.record?_cutAt (limit : Nat) (stop : Stop) :
    (stop.cutAt limit).record? = if stop.path.length < limit then stop.record? else none := by
  unfold cutAt
  split <;> rfl

/-- A call at its place, whatever is above it. -/
def Site.place (site : Site) : List Nat × Trace := (site.path, site.trace)

namespace Walker

open Visit

/-- As far as a walk with a smaller limit goes it makes of a call what the other walk makes of it,
but for the calls at the limit. -/
theorem withoutLinks_stopAt (w : Walker) (scope : Scope) {limit : UInt64}
    (hle : limit ≤ w.config.maxDepth) (hlimit : limit.toNat ≤ 65535) {site other : Site}
    (hplace : site.place = other.place) (hdepth : other.path.length ≤ limit.toNat)
    {s t : WalkState} (hs : w.resolver.Sound s.resolver) (ht : w.resolver.Sound t.resolver) :
    ((w.withMaxDepth limit).stopAt scope site s).withoutLinks =
      (w.stopAt scope other t).withoutLinks.cutAt limit.toNat := by
  obtain ⟨path, trace, parent⟩ := site
  obtain ⟨path', trace', parent'⟩ := other
  obtain ⟨rfl, rfl⟩ : path = path' ∧ trace = trace' := Prod.mk.inj hplace
  have hreceiver : ((w.withMaxDepth limit).recordParties scope trace.message s).1 =
      (w.recordParties scope trace.message t).1 := by
    rw [w.fst_recordParties scope _ ht]
    exact (w.withMaxDepth limit).fst_recordParties scope _ hs
  have hword : path.length ≤ 65535 := Nat.le_trans hdepth hlimit
  have hdeep : limit ≤ (UInt16.ofNat path.length).toUInt64 ↔ limit.toNat ≤ path.length :=
    (w.withMaxDepth limit).maxDepth_le_level_iff hword
  have hdeep' := w.maxDepth_le_level_iff hword
  unfold Stop.cutAt
  split
  next hlt =>
    have hmax : ¬ w.config.maxDepth.toNat ≤ path.length :=
      Nat.not_le.mpr (Nat.lt_of_lt_of_le hlt (UInt64.le_iff_toNat_le.mp hle))
    have hemit := w.map_withoutLinks_emit scope trace (UInt16.ofNat path.length) parent parent'
      s.index t.index (w.recordParties scope trace.message t).1
    simp only [Stop.withoutLinks, stopAt, Site.frame, hreceiver, maxDepth_withMaxDepth,
      emit_withMaxDepth, hdeep.not.mpr (Nat.not_le.mpr hlt), hdeep'.not.mpr hmax, if_false]
    cases hfirst : w.emit scope ⟨trace, UInt16.ofNat path.length, parent⟩ s.index
        (w.recordParties scope trace.message t).1 <;>
      cases hsecond : w.emit scope ⟨trace, UInt16.ofNat path.length, parent'⟩ t.index
        (w.recordParties scope trace.message t).1 <;>
      simp_all [Except.map]
  next hge =>
    simp only [Stop.withoutLinks, stopAt, Site.frame, hreceiver, maxDepth_withMaxDepth,
      hdeep.mpr (Nat.not_lt.mp hge), if_true, Except.map]

/-! ## All stops -/

theorem length_path_of_mem_below {site sub : Site} {id : String} (h : sub ∈ site.below id) :
    sub.path.length = site.path.length + 1 := by
  unfold Site.below at h
  split at h
  · obtain ⟨⟨trace, position⟩, -, rfl⟩ := List.mem_map.mp h
    rw [List.length_append, List.length_singleton]
  · cases h

theorem filter_below_of_lt {site : Site} {limit : Nat} (h : site.path.length < limit) (id : String) :
    (site.below id).filter (·.path.length ≤ limit) = site.below id := by
  refine List.filter_eq_self.mpr fun sub hsub => decide_eq_true ?_
  rw [length_path_of_mem_below hsub]
  exact h

theorem filter_below_of_le {site : Site} {limit : Nat} (h : limit ≤ site.path.length) (id : String) :
    (site.below id).filter (·.path.length ≤ limit) = [] := by
  refine List.filter_eq_nil_iff.mpr fun sub hsub hle => ?_
  have hlength := length_path_of_mem_below hsub
  have hle := of_decide_eq_true hle
  omega

/-- The calls below a call are the same, whatever the identifier of its record is. -/
theorem map_place_below {site other : Site} (h : site.place = other.place) (id id' : String) :
    (site.below id).map Site.place = (other.below id').map Site.place := by
  obtain ⟨path, trace, parent⟩ := site
  obtain ⟨path', trace', parent'⟩ := other
  obtain ⟨rfl, rfl⟩ : path = path' ∧ trace = trace' := Prod.mk.inj h
  unfold Site.below
  split
  · rw [List.map_map, List.map_map]
    rfl
  · rfl

/-- The stops of a walk with a smaller limit are those of the other walk that are not deeper, cut at
the limit. The induction is over the calls that lie before the other walk; before this one lie
those of them that are not too deep. -/
theorem withoutLinks_journey (w : Walker) (scope : Scope) {limit : UInt64}
    (hle : limit ≤ w.config.maxDepth) (hlimit : limit.toNat ≤ 65535) {s t : WalkState}
    (hs : w.resolver.Sound s.resolver) (ht : w.resolver.Sound t.resolver) {sites others : List Site}
    (hsites : sites.map Site.place =
      (others.filter (·.path.length ≤ limit.toNat)).map Site.place) :
    ((w.withMaxDepth limit).journey scope s sites).map Stop.withoutLinks =
      ((w.journey scope t others).filter (·.path.length ≤ limit.toNat)).map
        fun stop => stop.withoutLinks.cutAt limit.toNat := by
  induction t, others using journey.induct generalizing s sites with
  | case1 t =>
      rw [List.filter_nil, List.map_nil, List.map_eq_nil_iff] at hsites
      rw [hsites, journey, journey]
      rfl
  | case2 t other rest ihskip ihgo =>
      have hpath : (w.stopAt scope other t).path = other.path := rfl
      cases hvisit : w.visit scope other.frame t with
      | mk record? t' =>
        have ht' := sound_visit ht hvisit
        rw [journey, hvisit]
        by_cases hdepth : other.path.length ≤ limit.toNat
        · rw [List.filter_cons_of_pos (by simpa using hdepth), List.map_cons] at hsites
          obtain ⟨site, sites, rfl, hplace, hrest⟩ := List.map_eq_cons_iff.mp hsites
          have hstop := w.withoutLinks_stopAt scope hle hlimit hplace hdepth hs ht
          rw [List.filter_cons_of_pos (by simpa [hpath] using hdepth), List.map_cons, ← hstop]
          cases hvisit' : (w.withMaxDepth limit).visit scope site.frame s with
          | mk first s' =>
            have hs' : w.resolver.Sound s'.resolver :=
              sound_visit (w := w.withMaxDepth limit) hs hvisit'
            rw [journey, hvisit', List.map_cons]
            refine congrArg (List.cons _) ?_
            have hrecord := congrArg (fun stop => stop.record?) hstop
            simp only [Stop.record?_withoutLinks, Stop.record?_cutAt, record?_stopAt hvisit,
              record?_stopAt (w := w.withMaxDepth limit) hvisit'] at hrecord
            have hpath' : (w.stopAt scope other t).withoutLinks.path = other.path := rfl
            rw [hpath'] at hrecord
            by_cases hlt : other.path.length < limit.toNat
            · rw [if_pos hlt] at hrecord
              cases record? with
              | none =>
                  obtain rfl : first = none := Option.map_eq_none_iff.mp hrecord
                  exact ihskip t' hs' ht' hrest
              | some emitted' =>
                  obtain ⟨emitted, rfl, -⟩ := Option.map_eq_some_iff.mp hrecord
                  have hadded : w.resolver.Sound (addRecord site.frame emitted s').resolver := hs'
                  refine ihgo emitted' t' hadded ht' ?_
                  rw [List.map_append, List.filter_append, filter_below_of_lt hlt, List.map_append,
                    map_place_below hplace, hrest]
            · -- At the limit only the other walk goes on.
              rw [if_neg hlt, Option.map_eq_none_iff] at hrecord
              subst hrecord
              cases record? with
              | none => exact ihskip t' hs' ht' hrest
              | some emitted' =>
                  refine ihgo emitted' t' hs' ht' ?_
                  rw [List.filter_append, filter_below_of_le (Nat.not_lt.mp hlt), List.nil_append]
                  exact hrest
        · rw [List.filter_cons_of_neg (by simpa using hdepth)] at hsites
          rw [List.filter_cons_of_neg (by simpa [hpath] using hdepth)]
          cases record? with
          | none => exact ihskip t' hs ht' hsites
          | some emitted =>
              refine ihgo emitted t' hs ht' ?_
              rw [List.filter_append, filter_below_of_le (Nat.le_of_not_le hdepth), List.nil_append]
              exact hsites

theorem withoutLinks_stops (w : Walker) (scope : Scope) {limit : UInt64}
    (hle : limit ≤ w.config.maxDepth) (hlimit : limit.toNat ≤ 65535) (parent : String)
    (root : Trace) (ledger other : Ledger) {s t : ResolverState} (hs : w.resolver.Sound s)
    (ht : w.resolver.Sound t) :
    ((w.withMaxDepth limit).stops scope parent root ledger s).map Stop.withoutLinks =
      ((w.stops scope parent root other t).filter (·.path.length ≤ limit.toNat)).map
        fun stop => stop.withoutLinks.cutAt limit.toNat :=
  w.withoutLinks_journey scope hle hlimit (s := start ledger s) (t := start other t) hs ht
    (by simp)

/-! ## Records and notes -/

/-- What is read off each stop without regard to links can be read off the stops of the walk with
the larger limit. -/
theorem filterMap_stops {α : Type} {limit : UInt64} {f : Stop → Option α}
    {stops others : List Stop}
    (h : stops.map Stop.withoutLinks = (others.filter (·.path.length ≤ limit.toNat)).map
      fun stop => stop.withoutLinks.cutAt limit.toNat) :
    stops.filterMap (fun stop => f stop.withoutLinks) =
      others.filterMap fun stop =>
        if stop.path.length ≤ limit.toNat then f (stop.withoutLinks.cutAt limit.toNat)
        else none := by
  have hmap := congrArg (List.filterMap f) h
  rw [List.filterMap_map, List.filterMap_map, List.filterMap_filter] at hmap
  simpa [Function.comp_def] using hmap

/-- A call is too deep only if it is at the limit. -/
theorem length_path_of_tooDeep {w : Walker} {scope : Scope} {parent : String} {root : Trace}
    {ledger : Ledger} {resolver : ResolverState} (hlimit : w.config.maxDepth.toNat ≤ 65535)
    {stop : Stop} (h : stop ∈ w.stops scope parent root ledger resolver) :
    stop.outcome = .error .tooDeep → w.config.maxDepth.toNat ≤ stop.path.length := by
  have hlevel : stop.outcome = .error .tooDeep → w.config.maxDepth ≤ stop.frame.level.toUInt64 := by
    refine forall_mem_stops (P := fun stop => stop.outcome = .error .tooDeep →
      w.config.maxDepth ≤ stop.frame.level.toUInt64) (fun site s _ houtcome => ?_) h
    simp only [stopAt] at houtcome
    split at houtcome
    next hdeep => exact hdeep
    next => split at houtcome <;> cases houtcome
  intro houtcome
  have hword := Nat.le_trans (length_path_le_of_mem_stops hlimit h) hlimit
  have hdeep := hlevel houtcome
  rw [level_frame_of_mem_stops h] at hdeep
  exact (w.maxDepth_le_level_iff hword).mp hdeep

/-- The note on a call that cannot be decoded. -/
def undecodedNote? (w : Walker) (scope : Scope) (stop : Stop) : Option SkippedCall :=
  match stop.outcome with
  | .error (.undecoded e) => some (w.skippedCall scope stop.frame e.message)
  | _ => none

/-- The note of a walk with a smaller limit on a stop of the other walk: on a call at the limit, or
on one above it that cannot be decoded. -/
def noteWithin? (w : Walker) (scope : Scope) (limit : UInt64) (stop : Stop) : Option SkippedCall :=
  if stop.path.length < limit.toNat then w.undecodedNote? scope stop
  else if stop.path.length = limit.toNat then
    some (w.skippedCall scope stop.frame ("exceeds max depth " ++ toString limit))
  else none

theorem note?_withoutLinks (w : Walker) (scope : Scope) (stop : Stop) :
    w.note? scope stop.withoutLinks.toVisit = w.note? scope stop.toVisit := by
  cases h : stop.outcome <;>
    simp [note?, omission?, Stop.withoutLinks, h, Except.map, Visit.frame, skippedCall]

section

variable {w : Walker} {scope : Scope} {limit : UInt64} {parent : String} {root : Trace}
  {other : Ledger} {t : ResolverState} (hmax : w.config.maxDepth.toNat ≤ 65535)
include hmax

theorem level_lt_iff {stop : Stop} (h : stop ∈ w.stops scope parent root other t) :
    stop.frame.level.toUInt64 < limit ↔ stop.path.length < limit.toNat := by
  have hword := Nat.le_trans (length_path_le_of_mem_stops hmax h) hmax
  have hiff := (w.withMaxDepth limit).maxDepth_le_level_iff hword
  rw [maxDepth_withMaxDepth] at hiff
  rw [← UInt64.not_le, ← Nat.not_le, level_frame_of_mem_stops h, hiff]

theorem note?_eq_undecodedNote? (hle : limit ≤ w.config.maxDepth) {stop : Stop}
    (h : stop ∈ w.stops scope parent root other t)
    (hlt : stop.path.length < limit.toNat) :
    (w.withMaxDepth limit).note? scope stop.toVisit = w.undecodedNote? scope stop ∧
      w.note? scope stop.toVisit = w.undecodedNote? scope stop := by
  cases houtcome : stop.outcome with
  | ok emitted => simp [note?, omission?, undecodedNote?, houtcome]
  | error omission =>
      cases omission with
      | tooDeep =>
          have hdeep := length_path_of_tooDeep hmax h houtcome
          have hle := UInt64.le_iff_toNat_le.mp hle
          omega
      | undecoded e =>
          simp only [note?, omission?, undecodedNote?, houtcome, Option.map_some, reason, and_true]
          rfl

/-- The notes of the walk with the larger limit on calls above the smaller one are on calls that
cannot be decoded. -/
theorem filter_level_notes (hle : limit ≤ w.config.maxDepth) :
    (w.notes scope ((w.stops scope parent root other t).map Stop.toVisit)).filter
        (·.level.toUInt64 < limit) =
      ((w.stops scope parent root other t).filter (·.path.length < limit.toNat)).filterMap
        (w.undecodedNote? scope) := by
  rw [notes, List.filterMap_map, List.filter_filterMap, List.filterMap_filter]
  refine List.filterMap_congr fun stop hstop => ?_
  have hlevel (note : SkippedCall) (hnote : w.note? scope stop.toVisit = some note) :
      note.level.toUInt64 < limit ↔ stop.path.length < limit.toNat := by
    obtain ⟨omission, -, rfl⟩ := Option.map_eq_some_iff.mp hnote
    exact level_lt_iff hmax hstop
  by_cases hlt : stop.path.length < limit.toNat
  · rw [if_pos (decide_eq_true hlt), ← (note?_eq_undecodedNote? hmax hle hstop hlt).2]
    cases hnote : w.note? scope stop.toVisit with
    | none => simp [hnote]
    | some note => simp [hnote, Option.filter_some_pos, (hlevel note hnote).mpr hlt]
  · rw [if_neg (by simpa using hlt)]
    cases hnote : w.note? scope stop.toVisit with
    | none => simp [hnote]
    | some note =>
        simp only [Function.comp_apply, hnote]
        exact Option.filter_some_neg (decide_eq_false ((hlevel note hnote).not.mpr hlt))

variable {stops : List Stop} (h : stops.map Stop.withoutLinks =
  ((w.stops scope parent root other t).filter (·.path.length ≤ limit.toNat)).map
    fun stop => stop.withoutLinks.cutAt limit.toNat)
include h

theorem records_withoutLinks :
    (records (stops.map Stop.toVisit)).map Emitted.withoutLinks =
      ((records ((w.stops scope parent root other t).map Stop.toVisit)).filter
        (·.transaction.level.toUInt64 < limit)).map Emitted.withoutLinks := by
  calc (records (stops.map Stop.toVisit)).map Emitted.withoutLinks
    _ = stops.filterMap fun stop => stop.withoutLinks.record? := by
        simp only [records, List.filterMap_map, List.map_filterMap, Stop.record?_withoutLinks,
          Function.comp_apply]
    _ = _ := filterMap_stops (f := fun stop => stop.record?) h
    _ = (w.stops scope parent root other t).filterMap fun stop =>
          (stop.record?.filter (·.transaction.level.toUInt64 < limit)).map
            Emitted.withoutLinks := by
        refine List.filterMap_congr fun stop hstop => ?_
        have hpath : stop.withoutLinks.path = stop.path := rfl
        have hlevel {emitted : Emitted} (hrecord : stop.record? = some emitted) :
            emitted.transaction.level.toUInt64 < limit ↔ stop.path.length < limit.toNat := by
          rw [((stopsAt_of_mem_stops hstop).describes emitted hrecord).level]
          exact level_lt_iff hmax hstop
        rw [Stop.record?_cutAt, Stop.record?_withoutLinks, hpath]
        cases hrecord : stop.record? with
        | none => simp
        | some emitted =>
            by_cases hlt : stop.path.length < limit.toNat
            · rw [Option.filter_some, if_pos (decide_eq_true ((hlevel hrecord).mpr hlt)),
                if_pos (Nat.le_of_lt hlt), if_pos hlt]
            · rw [Option.filter_some, if_neg hlt, ite_self,
                if_neg (of_decide_eq_true.mt ((hlevel hrecord).not.mpr hlt))]
              rfl
    _ = _ := by
        simp only [records, List.filterMap_map, List.map_filterMap, List.filter_filterMap,
          Function.comp_apply]

theorem notes_withoutLinks (hle : limit ≤ w.config.maxDepth) :
    (w.withMaxDepth limit).notes scope (stops.map Stop.toVisit) =
      (w.stops scope parent root other t).filterMap (w.noteWithin? scope limit) := by
  calc (w.withMaxDepth limit).notes scope (stops.map Stop.toVisit)
    _ = stops.filterMap fun stop =>
          (w.withMaxDepth limit).note? scope stop.withoutLinks.toVisit := by
        simp only [notes, List.filterMap_map, note?_withoutLinks, Function.comp_def]
    _ = _ := filterMap_stops (f := fun stop => (w.withMaxDepth limit).note? scope stop.toVisit) h
    _ = _ := by
        refine List.filterMap_congr fun stop hstop => ?_
        have hpath : stop.withoutLinks.path = stop.path := rfl
        unfold Stop.cutAt noteWithin?
        rw [hpath]
        by_cases hlt : stop.path.length < limit.toNat
        · rw [if_pos (Nat.le_of_lt hlt), if_pos hlt, if_pos hlt, note?_withoutLinks,
            (note?_eq_undecodedNote? hmax hle hstop hlt).1]
        · rw [if_neg hlt, if_neg hlt]
          by_cases heq : stop.path.length = limit.toNat
          · rw [if_pos (Nat.le_of_eq heq), if_pos heq]
            rfl
          · rw [if_neg heq, if_neg (by omega)]

end

/-! ## Whole walks -/

/-- What a walk with a smaller limit adds to a ledger, by the stops of the other walk, and by the
records and the notes that this one adds. -/
structure Truncates (w : Walker) (scope : Scope) (root : Trace) (limit : UInt64)
    (stops : List Stop) (added others : List Transaction) (notes otherNotes : List SkippedCall) :
    Prop where
  /-- The records are those of the other walk above the limit, with the logs, but for links. -/
  records_eq : added.map Transaction.withoutLinks =
    (others.filter (·.level.toUInt64 < limit)).map Transaction.withoutLinks
  /-- The notes are on the calls above the limit that cannot be decoded, and on those at the
  limit. -/
  notes_eq : notes = stops.filterMap (w.noteWithin? scope limit)
  otherNotes_eq : otherNotes.filter (·.level.toUInt64 < limit) =
    (stops.filter (·.path.length < limit.toNat)).filterMap (w.undecodedNote? scope)
  /-- The other walk comes to each call once, -/
  stopsAt : ∀ stop ∈ stops, w.StopsAt scope root stop
  nodup_paths : (stops.map Stop.path).Nodup
  recorded : others.map Transaction.withoutMetadata =
    (records (stops.map Stop.toVisit)).map (·.transaction.withoutMetadata)
  /-- and to the calls that one with a record made that succeeded. -/
  comesTo_iff : ∀ path position, (root.at? (path ++ [position])).isSome = true →
    ((∃ stop ∈ stops, stop.path = path ++ [position]) ↔
      ∃ stop ∈ stops, stop.path = path ∧ stop.IsOpen)

/-- A walk with a smaller depth limit adds the records that a walk with a larger one adds above
that limit, and the notes on calls above it, and notes each call at the limit that was made by one
with a record that succeeded. -/
theorem walk_truncates {w : Walker} (scope : Scope) {limit : UInt64}
    (hc : w.config.validate = .ok ()) (hle : limit ≤ w.config.maxDepth) (parent : String)
    (root : Trace) (ledger other : Ledger) {s t : ResolverState} (hs : w.resolver.Sound s)
    (ht : w.resolver.Sound t) :
    let result := ((w.withMaxDepth limit).walk scope parent root ledger s).2.1
    let deeper := (w.walk scope parent root other t).2.1
    ∃ added others notes otherNotes,
      result.transactions = ledger.transactions ++ added ∧
      result.skipped = ledger.skipped ++ notes ∧
      deeper.transactions = other.transactions ++ others ∧
      deeper.skipped = other.skipped ++ otherNotes ∧
      w.Truncates scope root limit (w.stops scope parent root other t) added others notes
        otherNotes := by
  intro result deeper
  have hmax := Config.maxDepth_le_of_validate hc
  have hlimit : limit.toNat ≤ 65535 := Nat.le_trans (UInt64.le_iff_toNat_le.mp hle) hmax
  have hstops := w.withoutLinks_stops scope hle hlimit parent root ledger other hs ht
  obtain ⟨htransactions, hskipped, -⟩ :=
    (w.withMaxDepth limit).walk_eq_stops scope parent root ledger s
  obtain ⟨htransactions', hskipped', -⟩ := w.walk_eq_stops scope parent root other t
  refine ⟨_, _, _, _, htransactions, hskipped, htransactions', hskipped', ?_⟩
  constructor
  case records_eq =>
    have hlevels : ∀ level deep : UInt16, level ≤ deep → decide (deep.toUInt64 < limit) = true →
        decide (level.toUInt64 < limit) = true := by
      intro level deep hlevel hdeep
      have hword := UInt64.lt_iff_toNat_lt.mp (of_decide_eq_true hdeep)
      have hlevel := UInt16.le_iff_toNat_le.mp hlevel
      refine decide_eq_true (UInt64.lt_iff_toNat_lt.mpr ?_)
      rw [UInt16.toNat_toUInt64] at hword ⊢
      exact Nat.lt_of_le_of_lt hlevel hword
    have hcalls : ((w.withMaxDepth limit).recorded scope parent root ledger s).map
          Emitted.withoutLinks =
        ((w.recorded scope parent root other t).filter
          (·.transaction.level.toUInt64 < limit)).map Emitted.withoutLinks :=
      records_withoutLinks hmax hstops
    rw [← Emitted.transactions_map_withoutLinks, hcalls, Emitted.transactions_map_withoutLinks,
      Emitted.transactions_filter_level (p := fun level => decide (level.toUInt64 < limit)) hlevels]
  case notes_eq => exact notes_withoutLinks hmax hstops hle
  case otherNotes_eq => exact filter_level_notes hmax hle
  case stopsAt => exact fun stop => stopsAt_of_mem_stops
  case nodup_paths => exact w.nodup_path_stops scope parent root other t
  case recorded => exact Emitted.map_withoutMetadata_transactions _ _
  case comesTo_iff => exact fun path position => exists_stop_concat_iff

/-- Of a call and the two calls that it made the first one is left if the limit is one, and the
others are noted. -/
theorem walk_forked_truncates :
    unaided.config.validate = .ok () ∧ 1 ≤ unaided.config.maxDepth ∧
      unaided.resolver.Sound .empty ∧
      ∃ added others notes otherNotes,
        ((unaided.withMaxDepth 1).walk scopeOfMessage "tipset" forked .empty
          .empty).2.1.transactions = added ∧
        (unaided.walk scopeOfMessage "tipset" forked .empty .empty).2.1.transactions = others ∧
        unaided.Truncates scopeOfMessage forked 1
          (unaided.stops scopeOfMessage "tipset" forked .empty .empty) added others notes
          otherNotes := by
  have hc : unaided.config.validate = .ok () := rfl
  have hle : (1 : UInt64) ≤ unaided.config.maxDepth := by decide
  have hs : unaided.resolver.Sound .empty := Resolver.sound_of_cache_eq_nil _ rfl
  obtain ⟨added, others, notes, otherNotes, hadded, -, hothers, -, h⟩ :=
    walk_truncates scopeOfMessage hc hle "tipset" forked .empty .empty hs hs
  exact ⟨hc, hle, hs, added, others, notes, otherNotes, hadded, hothers, h⟩

end Walker
end TraceLedger
