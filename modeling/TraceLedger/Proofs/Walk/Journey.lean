import TraceLedger.Proofs.Trace.Calls
import TraceLedger.Proofs.Walk.Emission
import TraceLedger.Proofs.Walk.Itinerary

/-! # The journey of a walk

What a walk did, call by call, whatever was known when it began: for every call that it came to,
the place of the call in the trace, and what became of the call. -/

namespace TraceLedger

/-- A call that lies before a walk, at its place in the trace. -/
structure Site where
  path : List Nat
  trace : Trace
  parent : String

namespace Site

def frame (site : Site) : Frame := ⟨site.trace, UInt16.ofNat site.path.length, site.parent⟩

/-- The calls that a walk comes to after one whose record has the given identifier. -/
def below (site : Site) (id : String) : List Site :=
  if site.trace.isSuccess then
    site.trace.subcalls.zipIdx.map fun (trace, position) =>
      ⟨site.path ++ [position], trace, id⟩
  else []

theorem map_frame_below (site : Site) (id : String) :
    (site.below id).map frame = Walker.below site.frame id := by
  have hframe : (frame ∘ fun (trace, position) => ⟨site.path ++ [position], trace, id⟩) =
      (fun trace => (⟨trace, site.frame.level + 1, id⟩ : Frame)) ∘ Prod.fst (β := Nat) := by
    funext x
    simp [frame, UInt16.ofNat_add]
  unfold below Walker.below
  rw [apply_ite (List.map frame), List.map_map, hframe, ← List.map_map, List.zipIdx_map_fst]
  rfl

theorem pending_below_le (site : Site) (id : String) :
    Walker.pending ((site.below id).map frame) ≤ Trace.sizeList site.trace.subcalls := by
  rw [map_frame_below]
  exact Walker.pending_below_le site.frame id

end Site

/-- One visit of a walk, with the place of the call and what was known of its receiver. -/
structure Stop extends Visit where
  path : List Nat
  receiver : ActorKind

namespace Walker

open Visit

/-- What becomes of a call in a state of a walk. -/
def stopAt (w : Walker) (scope : Scope) (site : Site) (s : WalkState) : Stop :=
  let receiver := (w.recordParties scope site.frame.trace.message s).1
  { trace := site.trace
    depth := site.path.length
    parent := site.parent
    index := s.index
    outcome :=
      if w.config.maxDepth ≤ site.frame.level.toUInt64 then .error .tooDeep
      else match w.emit scope site.frame s.index receiver with
        | .error e => .error (.undecoded e)
        | .ok emitted => .ok emitted
    path := site.path
    receiver := receiver }

/-- The stops of a walk on its way through the calls that lie before it. -/
def journey (w : Walker) (scope : Scope) (s : WalkState) : List Site → List Stop
  | [] => []
  | site :: rest =>
    w.stopAt scope site s :: match w.visit scope site.frame s with
      | (none, s) => journey w scope s rest
      | (some emitted, s) =>
        journey w scope (addRecord site.frame emitted s)
          (site.below emitted.transaction.id ++ rest)
termination_by sites => pending (sites.map Site.frame)
decreasing_by
  · simp only [pending, List.map_cons, Trace.sizeList, Trace.size_eq]
    omega
  · have h := site.pending_below_le emitted.transaction.id
    have htrace : site.frame.trace = site.trace := rfl
    simp only [pending, List.map_append, List.map_cons, Trace.sizeList, Trace.sizeList_append,
      Trace.size_eq, htrace] at h ⊢
    omega

/-- The stops of the walk through a trace. -/
def stops (w : Walker) (scope : Scope) (parent : String) (root : Trace) (ledger : Ledger)
    (resolver : ResolverState) : List Stop :=
  w.journey scope (start ledger resolver) [⟨[], root, parent⟩]

/-! ## One step -/

/-- The state of a walk after some visits, but for what was learnt of addresses. -/
structure Follows (w : Walker) (scope : Scope) (s : WalkState) (visits : List Visit)
    (t : WalkState) : Prop where
  transactions : t.transactions = s.transactions ++ (records visits).map Emitted.transaction
  index : t.index = s.index + (records visits).length
  target : t.target = LogsTarget.track s.transactions.length s.target (records visits)
  skipped : t.skipped = s.skipped ++ w.notes scope visits
  failures : s.failures <+: t.failures

theorem Follows.refl (w : Walker) (scope : Scope) (s : WalkState) : w.Follows scope s [] s where
  transactions := by simp [records]
  index := rfl
  target := rfl
  skipped := by simp [notes]
  failures := List.prefix_rfl

theorem Follows.trans {w : Walker} {scope : Scope} {s t u : WalkState} {first second : List Visit}
    (h : w.Follows scope s first t) (h' : w.Follows scope t second u) :
    w.Follows scope s (first ++ second) u where
  transactions := by simp [h'.transactions, h.transactions, records]
  index := by simp [h'.index, h.index, records, Nat.add_assoc]
  target := by
    rw [h'.target, h.target, h.transactions, records, records, records, List.filterMap_append,
      LogsTarget.track_append, List.length_append, List.length_map]
  skipped := by simp [h'.skipped, h.skipped, notes]
  failures := h.failures.trans h'.failures

theorem follows_recordAddress (w : Walker) (scope : Scope) (address : Address) (s : WalkState) :
    w.Follows scope s [] (w.recordAddress scope address s).2 := by
  have h := Follows.refl w scope s
  exact ⟨h.transactions, h.index, h.target, h.skipped, List.prefix_append _ _⟩

theorem follows_recordParties (w : Walker) (scope : Scope) (message : Trace.Message)
    (s : WalkState) : w.Follows scope s [] (w.recordParties scope message s).2 := by
  unfold recordParties
  split
  · exact (w.follows_recordAddress scope message.sender s).trans
      (w.follows_recordAddress scope message.receiver _)
  · exact Follows.refl w scope s

/-- Nothing but addresses was learnt on the way. -/
theorem Follows.transactions_of_nil {w : Walker} {scope : Scope} {s t : WalkState}
    (h : w.Follows scope s [] t) : t.transactions = s.transactions := by
  rw [h.transactions, records, List.filterMap_nil, List.map_nil, List.append_nil]

theorem Follows.skip {w : Walker} {scope : Scope} {s t : WalkState} {v : Visit}
    {omission : Omission} (h : w.Follows scope s [] t) (hv : v.outcome = .error omission) :
    w.Follows scope s [v] (w.skip scope v.frame (w.reason omission) t) := by
  have hrecords := records_cons_of_eq_none (record?_eq_none_iff.mpr ⟨_, hv⟩) []
  refine ⟨?_, ?_, ?_, ?_, h.failures⟩
  · rw [hrecords]
    exact h.transactions
  · rw [hrecords]
    exact h.index
  · rw [hrecords]
    exact h.target
  · rw [notes_cons_of_outcome_eq_error hv, Walker.skip, h.skipped, List.append_assoc]
    rfl

theorem Follows.addRecord {w : Walker} {scope : Scope} {s t : WalkState} {v : Visit}
    {emitted : Emitted} (h : w.Follows scope s [] t) (hv : v.outcome = .ok emitted)
    (hlevel : emitted.transaction.level = v.frame.level) :
    w.Follows scope s [v] (addRecord v.frame emitted t) := by
  have hrecords := records_cons_of_eq_some (record?_eq_some_iff.mpr hv) []
  refine ⟨?_, ?_, ?_, ?_, h.failures⟩
  · rw [hrecords, Walker.addRecord, h.transactions_of_nil]
    rfl
  · rw [hrecords, Walker.addRecord, h.index]
    rfl
  · rw [hrecords, Walker.addRecord, h.target, h.transactions_of_nil, ← hlevel]
    rfl
  · rw [notes_cons_of_outcome_eq_ok hv]
    exact h.skipped

/-- What a visit leaves behind if the call has no record. -/
theorem follows_of_visit_eq_none {w : Walker} {scope : Scope} {site : Site} {s t : WalkState}
    (h : w.visit scope site.frame s = (none, t)) :
    (w.stopAt scope site s).record? = none ∧
      w.Follows scope s [(w.stopAt scope site s).toVisit] t := by
  have hparties := w.follows_recordParties scope site.frame.trace.message s
  have hindex : (w.recordParties scope site.frame.trace.message s).2.index = s.index := hparties.index
  suffices ∃ omission t', (w.stopAt scope site s).outcome = .error omission ∧
      w.Follows scope s [] t' ∧ t = w.skip scope site.frame (w.reason omission) t' by
    obtain ⟨omission, t', houtcome, hfollows, rfl⟩ := this
    exact ⟨record?_eq_none_iff.mpr ⟨_, houtcome⟩, hfollows.skip houtcome⟩
  unfold visit at h
  split at h
  next hdeep =>
    cases h
    exact ⟨.tooDeep, s, if_pos hdeep, Follows.refl w scope s, rfl⟩
  next hdeep =>
    simp only at h
    split at h
    next e hemit =>
      cases h
      refine ⟨.undecoded e, _, ?_, hparties, rfl⟩
      rw [hindex] at hemit
      simp only [stopAt, if_neg hdeep]
      rw [hemit]
    next => cases h

/-- What a visit leaves behind, with the record of the call. -/
theorem follows_of_visit_eq_some {w : Walker} {scope : Scope} {site : Site} {s t : WalkState}
    {emitted : Emitted} (h : w.visit scope site.frame s = (some emitted, t)) :
    (w.stopAt scope site s).record? = some emitted ∧
      w.Follows scope s [(w.stopAt scope site s).toVisit] (addRecord site.frame emitted t) := by
  have hparties := w.follows_recordParties scope site.frame.trace.message s
  have hindex : (w.recordParties scope site.frame.trace.message s).2.index = s.index := hparties.index
  unfold visit at h
  split at h
  next => cases h
  next hdeep =>
    simp only at h
    split at h
    next => cases h
    next e hemit =>
      cases h
      rw [hindex] at hemit
      have houtcome : (w.stopAt scope site s).outcome = .ok emitted := by
        simp only [stopAt, if_neg hdeep]
        rw [hemit]
      have hfollows : w.Follows scope s [] { (w.recordParties scope site.frame.trace.message s).2 with
          addresses := fileCreated emitted
            (w.recordParties scope site.frame.trace.message s).2.addresses } :=
        ⟨hparties.transactions, hparties.index, hparties.target, hparties.skipped,
          hparties.failures⟩
      exact ⟨record?_eq_some_iff.mpr houtcome,
        hfollows.addRecord houtcome (describes_of_emit hemit).level⟩

/-- The record that a visit gives is that of its stop. -/
theorem record?_stopAt {w : Walker} {scope : Scope} {site : Site} {s t : WalkState}
    {record? : Option Emitted} (h : w.visit scope site.frame s = (record?, t)) :
    (w.stopAt scope site s).record? = record? := by
  cases record? with
  | none => exact (follows_of_visit_eq_none h).1
  | some emitted => exact (follows_of_visit_eq_some h).1

/-! ## The whole journey -/

/-- Visiting with a list of pending calls leaves behind what the stops on the way say. -/
theorem follows_visitAll (w : Walker) (scope : Scope) (s : WalkState) (sites : List Site) :
    w.Follows scope s ((w.journey scope s sites).map Stop.toVisit)
      (w.visitAll scope s (sites.map Site.frame)) := by
  induction s, sites using journey.induct with
  | case1 s =>
      rw [journey, List.map_nil, List.map_nil, visitAll]
      exact Follows.refl w scope s
  | case2 s site rest ihskip ihgo =>
      rw [journey, List.map_cons, List.map_cons, visitAll]
      cases hvisit : w.visit scope site.frame s with
      | mk record? t =>
        cases record? with
        | none => exact (follows_of_visit_eq_none hvisit).2.trans (ihskip t)
        | some emitted =>
            have hrest := ihgo emitted t
            rw [List.map_append, Site.map_frame_below] at hrest
            exact (follows_of_visit_eq_some hvisit).2.trans hrest

/-- A stop tells what became of a call of the trace, and its record describes that call. -/
structure StopsAt (w : Walker) (scope : Scope) (root : Trace) (stop : Stop) : Prop where
  trace : root.at? stop.path = some stop.trace
  depth : stop.depth = stop.path.length
  describes : ∀ emitted, stop.record? = some emitted →
    w.Describes scope stop.frame stop.index stop.receiver emitted

theorem stopsAt_stopAt (w : Walker) (scope : Scope) {root : Trace} {site : Site} (s : WalkState)
    (h : root.at? site.path = some site.trace) :
    w.StopsAt scope root (w.stopAt scope site s) := by
  refine ⟨h, rfl, ?_⟩
  intro emitted hrecord
  have houtcome := record?_eq_some_iff.mp hrecord
  simp only [stopAt] at houtcome
  split at houtcome
  · cases houtcome
  · split at houtcome
    next => cases houtcome
    next hemit =>
      cases houtcome
      exact describes_of_emit hemit

theorem Site.at?_below {root : Trace} {site : Site} (h : root.at? site.path = some site.trace)
    {id : String} {sub : Site} (hsub : sub ∈ site.below id) :
    root.at? sub.path = some sub.trace := by
  unfold Site.below at hsub
  split at hsub
  · obtain ⟨⟨trace, position⟩, hmem, rfl⟩ := List.mem_map.mp hsub
    exact Trace.at?_concat h (List.mem_zipIdx_iff_getElem?.mp hmem)
  · cases hsub

/-- What an invariant of the calls before a walk makes true of a stop holds of all stops of the
journey, by induction over the calls that lie before the walk. -/
theorem forall_mem_journey {w : Walker} {scope : Scope} {I : Site → Prop} {P : Stop → Prop}
    (hbelow : ∀ site id, I site → ∀ sub ∈ site.below id, I sub)
    (hstep : ∀ site s, I site → P (w.stopAt scope site s))
    {s : WalkState} {sites : List Site} (h : ∀ site ∈ sites, I site) {stop : Stop}
    (hstop : stop ∈ w.journey scope s sites) : P stop := by
  induction s, sites using journey.induct with
  | case1 s =>
      rw [journey] at hstop
      cases hstop
  | case2 s site rest ihskip ihgo =>
      have hsite := h site List.mem_cons_self
      have hrest : ∀ site ∈ rest, I site := fun site hmem => h site (List.mem_cons_of_mem _ hmem)
      rw [journey] at hstop
      rcases List.mem_cons.mp hstop with rfl | hstop
      · exact hstep site s hsite
      · cases hvisit : w.visit scope site.frame s with
        | mk record? t =>
          rw [hvisit] at hstop
          cases record? with
          | none => exact ihskip t hrest hstop
          | some emitted =>
              refine ihgo emitted t (fun sub hsub => ?_) hstop
              rcases List.mem_append.mp hsub with hsub | hsub
              · exact hbelow site _ hsite sub hsub
              · exact hrest sub hsub

/-- What holds at every call of the trace in every state of a walk holds of all stops. -/
theorem forall_mem_stops {w : Walker} {scope : Scope} {root : Trace} {P : Stop → Prop}
    (hstep : ∀ site s, root.at? site.path = some site.trace → P (w.stopAt scope site s))
    {parent : String} {ledger : Ledger} {resolver : ResolverState} {stop : Stop}
    (h : stop ∈ w.stops scope parent root ledger resolver) : P stop := by
  refine forall_mem_journey (fun _ _ hsite _ hsub => Site.at?_below hsite hsub) hstep
    (fun site hsite => ?_) h
  rw [List.mem_singleton] at hsite
  rw [hsite]
  rfl

/-- A walk comes to the root of the trace. -/
theorem stopAt_root_mem_stops (w : Walker) (scope : Scope) (parent : String) (root : Trace)
    (ledger : Ledger) (resolver : ResolverState) :
    w.stopAt scope ⟨[], root, parent⟩ (start ledger resolver) ∈
      w.stops scope parent root ledger resolver := by
  rw [stops, journey]
  exact List.mem_cons_self

/-- Every stop is at a call of the trace. -/
theorem stopsAt_of_mem_stops {w : Walker} {scope : Scope} {parent : String} {root : Trace}
    {ledger : Ledger} {resolver : ResolverState} {stop : Stop}
    (h : stop ∈ w.stops scope parent root ledger resolver) : w.StopsAt scope root stop :=
  forall_mem_stops (fun _ s => stopsAt_stopAt w scope s) h

/-- The calls that have a record on the walk through a trace, in order. -/
def recorded (w : Walker) (scope : Scope) (parent : String) (root : Trace) (ledger : Ledger)
    (resolver : ResolverState) : List Emitted :=
  records ((w.stops scope parent root ledger resolver).map Stop.toVisit)

/-- A walk adds the records of its stops to a ledger, with the logs of the message, and the notes
on its stops. -/
theorem walk_eq_stops (w : Walker) (scope : Scope) (parent : String) (root : Trace)
    (ledger : Ledger) (resolver : ResolverState) :
    let result := (w.walk scope parent root ledger resolver).2.1
    result.transactions = ledger.transactions ++
        Emitted.transactions (scope.ethLogs.ofMessage scope.messageCid)
          (w.recorded scope parent root ledger resolver) ∧
      result.skipped = ledger.skipped ++
        w.notes scope ((w.stops scope parent root ledger resolver).map Stop.toVisit) ∧
      ledger.failures <+: result.failures := by
  have h := w.follows_visitAll scope (start ledger resolver) [⟨[], root, parent⟩]
  exact ⟨finish_eq _ _ _ h.transactions h.target, h.skipped, h.failures⟩

end Walker
end TraceLedger
