import TraceLedger.Proofs.Walk.Journey
import TraceLedger.Proofs.Walk.Rules

/-! # Walks that need no node

A node is asked for the kind of a called actor where the trace does not tell it. Where the trace
tells it of every call, nothing that the node says, or fails to say, shows in the records of a walk
or in its notes. Two walks with different nodes are compared stop by stop. -/

namespace TraceLedger

/-- The code of the called actor is recorded, of every call. -/
def Trace.RecordsCodes (root : Trace) : Prop :=
  ∀ path call, root.at? path = some call → call.code?.isSome = true

namespace Walker

open Visit

/-- The walker with another resolver, which it asks of the addresses in calls or not. -/
def withResolver (w : Walker) (resolver : Resolver) (ask : Bool) : Walker :=
  { w with resolver := resolver, config := { w.config with resolveAddresses := ask } }

/-! ## One stop -/

/-- The kind of the receiver does not matter to the record of a call whose code is known. -/
theorem emit_of_isSome_code? (w : Walker) (scope : Scope) {frame : Frame}
    (hcode : frame.trace.code?.isSome = true) (index : Nat) (receiver other : ActorKind) :
    w.emit scope frame index receiver = w.emit scope frame index other := by
  obtain ⟨code, hcode⟩ := Option.isSome_iff_exists.mp hcode
  have hactor (kind : ActorKind) : w.actorOf frame.trace kind = w.actors.kindOf code := by
    simp [actorOf, hcode]
  simp only [emit, emitFinished, hactor]

theorem emit_withResolver (w : Walker) (resolver : Resolver) (ask : Bool) (scope : Scope)
    (frame : Frame) (index : Nat) (receiver : ActorKind) :
    (w.withResolver resolver ask).emit scope frame index receiver =
      w.emit scope frame index receiver := rfl

/-- What becomes of a call whose code is known does not depend on the resolver, nor on anything in
the state of the walk but the number of records. -/
theorem toVisit_stopAt_withResolver (w : Walker) (resolver : Resolver) (ask : Bool)
    (scope : Scope) {site : Site} (hcode : site.trace.code?.isSome = true) {s t : WalkState}
    (hindex : s.index = t.index) :
    ((w.withResolver resolver ask).stopAt scope site s).toVisit =
      (w.stopAt scope site t).toVisit := by
  have hcode : site.frame.trace.code?.isSome = true := hcode
  simp only [stopAt, emit_withResolver, hindex]
  rw [w.emit_of_isSome_code? scope hcode]
  rfl

/-- A visit does not count its record; adding the record does. -/
theorem index_visit {w : Walker} {scope : Scope} {site : Site} {s t : WalkState}
    {record? : Option Emitted} (h : w.visit scope site.frame s = (record?, t)) :
    t.index = s.index := by
  cases record? with
  | none =>
      obtain ⟨hrecord, hfollows⟩ := follows_of_visit_eq_none h
      rw [hfollows.index, records_cons_of_eq_none hrecord]
      rfl
  | some emitted =>
      obtain ⟨hrecord, hfollows⟩ := follows_of_visit_eq_some h
      have hindex := hfollows.index
      rw [records_cons_of_eq_some hrecord] at hindex
      exact Nat.succ.inj hindex

/-! ## All stops -/

/-- Walks from states with equally many records come to the same visits, by induction over the
calls that lie before them. -/
theorem visits_journey_withResolver (w : Walker) (resolver : Resolver) (ask : Bool)
    (scope : Scope) {root : Trace} (hcodes : root.RecordsCodes) {s t : WalkState}
    (hindex : s.index = t.index) {sites : List Site}
    (hsites : ∀ site ∈ sites, root.at? site.path = some site.trace) :
    ((w.withResolver resolver ask).journey scope s sites).map Stop.toVisit =
      (w.journey scope t sites).map Stop.toVisit := by
  induction t, sites using journey.induct generalizing s with
  | case1 t => rw [journey, journey]
  | case2 t site rest ihskip ihgo =>
      have hsite := hsites site List.mem_cons_self
      have hrest : ∀ site ∈ rest, root.at? site.path = some site.trace :=
        fun site hmem => hsites site (List.mem_cons_of_mem _ hmem)
      have hstop := w.toVisit_stopAt_withResolver resolver ask scope (hcodes _ _ hsite) hindex
      rw [journey, journey, List.map_cons, List.map_cons, hstop]
      apply congrArg (List.cons (w.stopAt scope site t).toVisit)
      cases hs : (w.withResolver resolver ask).visit scope site.frame s with
      | mk first s' =>
        cases ht : w.visit scope site.frame t with
        | mk second t' =>
          obtain rfl : first = second := by
            rw [← record?_stopAt hs, ← record?_stopAt ht, hstop]
          have hindex : s'.index = t'.index := by
            rw [index_visit hs, index_visit ht, hindex]
          cases first with
          | none => exact ihskip t' hindex hrest
          | some emitted =>
              refine ihgo emitted t' (congrArg (· + 1) hindex) fun sub hsub => ?_
              rcases List.mem_append.mp hsub with hsub | hsub
              · exact Site.at?_below hsite hsub
              · exact hrest sub hsub

/-! ## The record at the top -/

theorem rootId_recordParties (w : Walker) (scope : Scope) (message : Trace.Message)
    (s : WalkState) : (w.recordParties scope message s).2.rootId = s.rootId := by
  unfold recordParties
  split <;> rfl

/-- A visit leaves the record at the top as it is, and tells the level of its own record. -/
theorem rootId_visit {w : Walker} {scope : Scope} {frame : Frame} {s t : WalkState}
    {record? : Option Emitted} (h : w.visit scope frame s = (record?, t)) :
    t.rootId = s.rootId ∧ ∀ emitted, record? = some emitted →
      emitted.transaction.level = frame.level := by
  have hparties := w.rootId_recordParties scope frame.trace.message s
  unfold visit at h
  split at h
  · cases h
    exact ⟨rfl, fun _ h => nomatch h⟩
  · simp only at h
    split at h
    next =>
      cases h
      exact ⟨hparties, fun _ h => nomatch h⟩
    next emitted hemit =>
      cases h
      refine ⟨hparties, ?_⟩
      rintro _ ⟨⟩
      exact (describes_of_emit hemit).level

theorem rootId_visitAll (w : Walker) (scope : Scope) (s : WalkState) (sites : List Site) :
    (w.visitAll scope s (sites.map Site.frame)).rootId =
      topAfter s.rootId (records ((w.journey scope s sites).map Stop.toVisit)) := by
  induction s, sites using journey.induct with
  | case1 s =>
      rw [journey, List.map_nil, visitAll]
      rfl
  | case2 s site rest ihskip ihgo =>
      rw [journey, List.map_cons, List.map_cons, visitAll]
      cases hvisit : w.visit scope site.frame s with
      | mk record? t =>
        obtain ⟨hroot, hlevel⟩ := rootId_visit hvisit
        have hrecord := record?_stopAt hvisit
        cases record? with
        | none =>
            rw [records_cons_of_eq_none hrecord]
            simp only
            rw [ihskip t, hroot]
        | some emitted =>
            have hrest := ihgo emitted t
            rw [List.map_append, Site.map_frame_below] at hrest
            rw [records_cons_of_eq_some hrecord]
            simp only
            rw [hrest]
            simp only [topAfter, List.foldl_cons, hlevel emitted rfl, addRecord, hroot]

/-! ## Whole walks -/

theorem stops_withResolver (w : Walker) (resolver : Resolver) (ask : Bool) (scope : Scope)
    (parent : String) {root : Trace} (hcodes : root.RecordsCodes) (ledger other : Ledger)
    (s t : ResolverState) :
    ((w.withResolver resolver ask).stops scope parent root ledger s).map Stop.toVisit =
      (w.stops scope parent root other t).map Stop.toVisit := by
  have hindex : (start ledger s).index = (start other t).index := rfl
  refine w.visits_journey_withResolver resolver ask scope hcodes hindex fun site hsite => ?_
  rw [List.mem_singleton] at hsite
  rw [hsite]
  rfl

/-- Where the code of every called actor is recorded, a walk adds the same records and the same
notes, and gives the same identifier, whatever node it asks, whatever was learnt of addresses
before, and whether or not it asks at all. -/
theorem walk_ignores_node (w : Walker) (scope : Scope) (parent : String) {root : Trace}
    (hcodes : root.RecordsCodes) :
    ∃ id records notes, ∀ (resolver : Resolver) (ask : Bool) (ledger : Ledger)
      (s : ResolverState),
      let result := (w.withResolver resolver ask).walk scope parent root ledger s
      result.1 = id ∧
        result.2.1.transactions = ledger.transactions ++ records ∧
        result.2.1.skipped = ledger.skipped ++ notes := by
  let calls := w.recorded scope parent root .empty .empty
  let visits := (w.stops scope parent root .empty .empty).map Stop.toVisit
  refine ⟨topAfter none calls,
    Emitted.transactions (scope.ethLogs.ofMessage scope.messageCid) calls,
    w.notes scope visits, fun resolver ask ledger s => ?_⟩
  have hvisits := w.stops_withResolver resolver ask scope parent hcodes ledger .empty s .empty
  obtain ⟨htransactions, hskipped, -⟩ :=
    (w.withResolver resolver ask).walk_eq_stops scope parent root ledger s
  have hroot := (w.withResolver resolver ask).rootId_visitAll scope (start ledger s)
    [⟨[], root, parent⟩]
  have hcalls : (w.withResolver resolver ask).recorded scope parent root ledger s = calls :=
    congrArg records hvisits
  rw [hcalls] at htransactions
  rw [hvisits] at hskipped
  exact ⟨hroot.trans (congrArg (topAfter none) hcalls), htransactions, hskipped⟩

/-- A node that fails whatever is asked of the receiver of a transfer. -/
def refusing : Resolver :=
  ⟨(InMemoryNode.empty.addFailing transfer.receiver).toNode, .mainnet, .empty⟩

/-- A transfer to an account, by which another transfer is made that fails. The code of both
receivers is recorded. -/
def codedPair : Trace :=
  let target : Trace.Target := ⟨2, ⟨ActorRegistry.stubCode .account, none⟩⟩
  ⟨transfer, some ⟨some 0, [], 0, none⟩, some target,
    [⟨transfer, some ⟨some 6, [], 0, none⟩, some target, [], none⟩], none⟩

theorem recordsCodes_codedPair : codedPair.RecordsCodes := by
  intro path call hcall
  match path, hcall with
  | [], hcall => cases hcall; rfl
  | [0], hcall => cases hcall; rfl
  | 0 :: _ :: _, hcall => cases hcall
  | (_ + 1) :: _, hcall => cases hcall

theorem walk_codedPair_ignores_node :
    codedPair.RecordsCodes ∧
      (refusing.lookup transfer.receiver scopeOfMessage.tipset.key).failures ≠ [] ∧
      let asked := (unaided.withResolver refusing true).walk scopeOfMessage "tipset" codedPair
        .empty .empty
      let unasked := (unaided.withResolver unaided.resolver false).walk scopeOfMessage "tipset"
        codedPair .empty .empty
      asked.1 = unasked.1 ∧ asked.2.1.transactions = unasked.2.1.transactions ∧
        asked.2.1.skipped = unasked.2.1.skipped := by
  obtain ⟨id, records, notes, h⟩ :=
    walk_ignores_node unaided scopeOfMessage "tipset" recordsCodes_codedPair
  obtain ⟨hid, htransactions, hskipped⟩ := h refusing true .empty .empty
  obtain ⟨hid', htransactions', hskipped'⟩ := h unaided.resolver false .empty .empty
  refine ⟨recordsCodes_codedPair, List.cons_ne_nil _ _, hid.trans hid'.symm,
    htransactions.trans htransactions'.symm, hskipped.trans hskipped'.symm⟩

end Walker
end TraceLedger
