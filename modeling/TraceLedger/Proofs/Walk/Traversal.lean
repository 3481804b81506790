import TraceLedger.Proofs.Walk.Emission
import TraceLedger.Proofs.Walk.Itinerary

/-! # A walk follows its itinerary

Visiting with a list of pending calls comes to the same as the recursion over the trace: the
visits of a call in front of the list are those of its itinerary, and then comes the rest of the
list. -/

namespace TraceLedger

/-- No depth that an accepted configuration lets a walk reach is too large for a record. -/
theorem Config.maxDepth_le_of_validate {c : Config} (h : c.validate = .ok ()) :
    c.maxDepth.toNat ≤ 65535 := by
  unfold validate at h
  split at h
  · cases h
  · split at h
    · cases h
    next hdeep =>
      have hle : c.maxDepth ≤ depthLimit := UInt64.not_lt.mp hdeep
      exact UInt64.le_iff_toNat_le.mp hle

/-- An accepted configuration lets a walk visit the root of a trace. -/
theorem Config.maxDepth_pos_of_validate {c : Config} (h : c.validate = .ok ()) :
    0 < c.maxDepth.toNat := by
  unfold validate at h
  split at h
  · cases h
  next hzero => exact Nat.pos_of_ne_zero fun htoNat => hzero (UInt64.toNat_inj.mp htoNat)

namespace Walker

theorem maxDepth_le_level_iff (w : Walker) {depth : Nat} (h : depth ≤ 65535) :
    w.config.maxDepth ≤ (UInt16.ofNat depth).toUInt64 ↔ w.config.maxDepth.toNat ≤ depth := by
  rw [UInt64.le_iff_toNat_le, UInt16.toNat_toUInt64,
    UInt16.toNat_ofNat_of_lt' (Nat.lt_succ_of_le h)]

/-! ## One visit -/

/-- Filing an address files what the node says of it, and keeps what was learnt. -/
theorem recordAddress_eq (w : Walker) (scope : Scope) (address : Address) {s : WalkState}
    (hs : w.resolver.Sound s.resolver) :
    w.recordAddress scope address s =
      ((w.resolver.lookup address scope.tipset.key).actor, w.learn scope [address] s) := by
  have hinfo := hs.info_resolve address scope.tipset.key
  simp only [recordAddress, learn, Resolver.resolveAll, ResolvedAddress.actor, hinfo, known?,
    List.append_nil, List.filterMap_cons, List.filterMap_nil]
  split <;> rfl

theorem recordParties_eq (w : Walker) (scope : Scope) (v : Visit) {s : WalkState}
    (hs : w.resolver.Sound s.resolver) (hdepth : ¬ w.config.maxDepth.toNat ≤ v.depth) :
    w.recordParties scope v.trace.message s =
      (w.receiverKind scope v.trace.message, w.learn scope (w.asked v) s) := by
  unfold recordParties receiverKind asked
  rw [if_neg hdepth]
  by_cases hresolve : w.config.resolveAddresses = true
  · rw [if_pos hresolve, if_pos hresolve, if_pos hresolve]
    have hsound : w.resolver.Sound (w.learn scope [v.trace.message.sender] s).resolver :=
      hs.resolveAll scope.tipset.key [v.trace.message.sender]
    rw [w.recordAddress_eq scope _ hs]
    simp only
    rw [w.recordAddress_eq scope _ hsound, ← learn_append]
    rfl
  · rw [if_neg hresolve, if_neg hresolve, if_neg hresolve]
    simp [learn, Resolver.resolveAll]

theorem fileCreated_eq (emitted : Emitted) (book : AddressBook) :
    fileCreated emitted book = emitted.decoded.created.toList.foldl AddressBook.add book := by
  unfold fileCreated
  split <;> simp_all

/-- A visit gives its record, and leaves behind what the itinerary says. -/
theorem visit_eq (w : Walker) (scope : Scope) {depth : Nat} (parent : String) (trace : Trace)
    {s : WalkState} (hs : w.resolver.Sound s.resolver) (hdepth : depth ≤ 65535) :
    let v := w.visitOf scope depth parent s.index trace
    w.visit scope ⟨trace, UInt16.ofNat depth, parent⟩ s = (v.record?, w.met scope v s) := by
  intro v
  unfold visit
  simp only [w.maxDepth_le_level_iff hdepth]
  by_cases hdeep : w.config.maxDepth.toNat ≤ depth
  · have houtcome : v.outcome = .error .tooDeep :=
      outcome_visitOf_of_le scope parent s.index trace hdeep
    have hrecord := Visit.record?_eq_none_iff.mpr ⟨_, houtcome⟩
    have hasked : w.asked v = [] := if_pos hdeep
    simp only [if_pos hdeep, met, hrecord, hasked, learn_nil, note?_of_outcome_eq_error houtcome]
    rfl
  · have hparties : w.recordParties scope trace.message s =
        (w.receiverKind scope trace.message, w.learn scope (w.asked v) s) :=
      w.recordParties_eq scope v hs hdeep
    simp only [if_neg hdeep, hparties, index_learn]
    cases hemit : w.emit scope ⟨trace, UInt16.ofNat depth, parent⟩ s.index
        (w.receiverKind scope trace.message) with
    | error e =>
        have houtcome : v.outcome = .error (.undecoded e) :=
          outcome_visitOf_of_emit_eq_error parent s.index (Nat.lt_of_not_le hdeep) hemit
        have hrecord := Visit.record?_eq_none_iff.mpr ⟨_, houtcome⟩
        simp only [met, hrecord, note?_of_outcome_eq_error houtcome]
        rfl
    | ok emitted =>
        have houtcome : v.outcome = .ok emitted :=
          outcome_visitOf_of_emit_eq_ok parent s.index (Nat.lt_of_not_le hdeep) hemit
        have hrecord := Visit.record?_eq_some_iff.mpr houtcome
        simp [met, hrecord, note?_of_outcome_eq_ok houtcome, fileCreated_eq, learn]

/-! ## The list of pending calls -/

/-- The calls below a call, as the walk keeps them. -/
def pendingAt (depth : Nat) (parent : String) (traces : List Trace) : List Frame :=
  traces.map fun trace => ⟨trace, UInt16.ofNat depth, parent⟩

theorem below_eq (trace : Trace) (depth : Nat) (parent id : String) :
    below ⟨trace, UInt16.ofNat depth, parent⟩ id =
      if trace.isSuccess then pendingAt (depth + 1) id trace.subcalls else [] := by
  simp [below, pendingAt, UInt16.ofNat_add]

theorem Sound.after {w : Walker} (scope : Scope) {s : WalkState}
    (hs : w.resolver.Sound s.resolver) (visits : List Visit) :
    w.resolver.Sound (w.after scope s visits).resolver :=
  hs.resolveAll scope.tipset.key (visits.flatMap w.asked)

theorem index_after (w : Walker) (scope : Scope) (s : WalkState) (visits : List Visit) :
    (w.after scope s visits).index = s.index + (Visit.records visits).length := rfl

/-- Only a call above the depth limit has a record. -/
theorem lt_maxDepth_of_record?_visitOf {w : Walker} {scope : Scope} {depth index : Nat}
    {parent : String} {trace : Trace} {emitted : Emitted}
    (h : (w.visitOf scope depth parent index trace).record? = some emitted) :
    depth < w.config.maxDepth.toNat := by
  apply Nat.lt_of_not_le
  intro hdeep
  simp [visitOf, Visit.record?, hdeep] at h

theorem level_of_record?_visitOf {w : Walker} {scope : Scope} {depth index : Nat}
    {parent : String} {trace : Trace} {emitted : Emitted}
    (h : (w.visitOf scope depth parent index trace).record? = some emitted) :
    emitted.transaction.level = UInt16.ofNat depth := by
  have hlt := lt_maxDepth_of_record?_visitOf h
  cases hemit : w.emit scope ⟨trace, UInt16.ofNat depth, parent⟩ index
      (w.receiverKind scope trace.message) with
  | error e =>
      rw [Visit.record?, outcome_visitOf_of_emit_eq_error parent index hlt hemit] at h
      cases h
  | ok other =>
      rw [Visit.record?, outcome_visitOf_of_emit_eq_ok parent index hlt hemit] at h
      cases h
      exact (describes_of_emit hemit).level

mutual

theorem visitAll_cons {w : Walker} (scope : Scope) (hlimit : w.config.maxDepth.toNat ≤ 65535)
    {depth : Nat} (hdepth : depth ≤ w.config.maxDepth.toNat) (parent : String) (trace : Trace)
    (rest : List Frame) {s : WalkState} (hs : w.resolver.Sound s.resolver) :
    w.visitAll scope s (⟨trace, UInt16.ofNat depth, parent⟩ :: rest) =
      w.visitAll scope
        (w.after scope s (w.itinerary scope depth parent s.index trace)) rest := by
  have hvisit := w.visit_eq scope parent trace hs (Nat.le_trans hdepth hlimit)
  rw [visitAll, hvisit, itinerary_eq]
  -- What is below the call goes in front of the other pending calls.
  cases hrecord : (w.visitOf scope depth parent s.index trace).record? with
  | none => rw [after_singleton_of_record?_eq_none w scope s hrecord]
  | some emitted =>
      have hadd := after_singleton_of_record?_eq_some w scope s hrecord
        (level_of_record?_visitOf hrecord)
      simp only [below_eq]
      rw [show addRecord ⟨trace, UInt16.ofNat depth, parent⟩ emitted
        (w.met scope (w.visitOf scope depth parent s.index trace) s) =
          w.after scope s [w.visitOf scope depth parent s.index trace] from hadd.symm]
      have hlt := lt_maxDepth_of_record?_visitOf hrecord
      have hsound := Sound.after scope hs [w.visitOf scope depth parent s.index trace]
      split
      next hsuccess =>
        cases trace with
        | mk message outcome target subcalls error =>
          rw [visitAll_append scope hlimit (Nat.succ_le_of_lt hlt) emitted.transaction.id subcalls
            rest hsound, ← after_append, index_after]
          simp [Visit.records, hrecord]
      next => rfl

theorem visitAll_append {w : Walker} (scope : Scope) (hlimit : w.config.maxDepth.toNat ≤ 65535)
    {depth : Nat} (hdepth : depth ≤ w.config.maxDepth.toNat) (parent : String)
    (traces : List Trace) (rest : List Frame) {s : WalkState}
    (hs : w.resolver.Sound s.resolver) :
    w.visitAll scope s (pendingAt depth parent traces ++ rest) =
      w.visitAll scope
        (w.after scope s (w.itineraries scope depth parent s.index traces)) rest := by
  cases traces with
  | nil => simp [pendingAt, itineraries]
  | cons trace traces =>
      simp only [pendingAt, List.map_cons, List.cons_append]
      rw [visitAll_cons scope hlimit hdepth parent trace _ hs]
      have happend := visitAll_append scope hlimit hdepth parent traces rest
        (Sound.after scope hs (w.itinerary scope depth parent s.index trace))
      rw [pendingAt] at happend
      rw [happend, itineraries, after_append, index_after]

end

/-! ## Whole walks -/

/-- All that a walk leaves behind is read off its itinerary. -/
theorem walk_eq {w : Walker} (scope : Scope) (hlimit : w.config.maxDepth.toNat ≤ 65535)
    (parent : String) (root : Trace) (ledger : Ledger) {s : ResolverState}
    (hs : w.resolver.Sound s) :
    let visits := w.itinerary scope 0 parent 0 root
    let final := w.after scope (start ledger s) visits
    w.walk scope parent root ledger s =
      (final.rootId, {
        transactions := ledger.transactions ++
          Emitted.transactions (scope.ethLogs.ofMessage scope.messageCid) (Visit.records visits)
        addresses := final.addresses
        skipped := final.skipped
        failures := final.failures }, final.resolver) := by
  have hvisits := visitAll_cons scope hlimit (Nat.zero_le _) parent root []
    (s := start ledger s) hs
  rw [show (start ledger s).index = 0 from rfl, visitAll] at hvisits
  have hstart : w.visitAll scope (start ledger s) [⟨root, 0, parent⟩] =
      w.after scope (start ledger s) (w.itinerary scope 0 parent 0 root) := hvisits
  have hfinish := finish_eq (scope.ethLogs.ofMessage scope.messageCid)
    (s := w.after scope (start ledger s) (w.itinerary scope 0 parent 0 root))
    ledger.transactions (Visit.records (w.itinerary scope 0 parent 0 root)) rfl rfl
  unfold walk
  simp only [hstart, hfinish]

end Walker
end TraceLedger
