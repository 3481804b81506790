import TraceLedger.Proofs.Resolver.Agreement
import TraceLedger.Proofs.Walk.Logs

/-! # The itinerary of a walk

A walk keeps a list of the calls that are still to be visited. Here its visits are told by
recursion over the trace alone: without that list, with depths that are natural numbers, and by
what the node answers whatever the resolver has kept. All that a walk leaves behind is read off
its visits. -/

namespace TraceLedger

/-- Why a call that was visited has no record. -/
inductive Omission where
  | tooDeep
  | undecoded (error : Error)

/-- One visit of a walk. -/
structure Visit where
  trace : Trace
  depth : Nat
  /-- The record that the call's own record belongs under. -/
  parent : String
  /-- Number of records that the walk made before. -/
  index : Nat
  outcome : Except Omission Emitted

namespace Visit

/-- The call as the walk keeps it. -/
def frame (v : Visit) : Frame := ⟨v.trace, UInt16.ofNat v.depth, v.parent⟩

def record? (v : Visit) : Option Emitted :=
  match v.outcome with
  | .ok emitted => some emitted
  | .error _ => none

def omission? (v : Visit) : Option Omission :=
  match v.outcome with
  | .ok _ => none
  | .error omission => some omission

theorem record?_eq_some_iff {v : Visit} {emitted : Emitted} :
    v.record? = some emitted ↔ v.outcome = .ok emitted := by
  unfold record?
  split <;> simp_all

theorem record?_eq_none_iff {v : Visit} :
    v.record? = none ↔ ∃ omission, v.outcome = .error omission := by
  unfold record?
  split <;> simp_all

/-- The records of visits, in order. -/
def records (visits : List Visit) : List Emitted := visits.filterMap record?

theorem records_cons_of_eq_none {v : Visit} (h : v.record? = none) (rest : List Visit) :
    records (v :: rest) = records rest := List.filterMap_cons_none h

theorem records_cons_of_eq_some {v : Visit} {emitted : Emitted} (h : v.record? = some emitted)
    (rest : List Visit) : records (v :: rest) = emitted :: records rest :=
  List.filterMap_cons_some h

end Visit

namespace Walker

/-- The kind of a call's receiver by the answers of the node. -/
def receiverKind (w : Walker) (scope : Scope) (message : Trace.Message) : ActorKind :=
  if w.config.resolveAddresses then
    (w.resolver.lookup message.receiver scope.tipset.key).actor
  else .unknown

/-- What becomes of a call at a depth, under a record, after so many other records. -/
def visitOf (w : Walker) (scope : Scope) (depth : Nat) (parent : String) (index : Nat)
    (trace : Trace) : Visit where
  trace := trace
  depth := depth
  parent := parent
  index := index
  outcome :=
    if w.config.maxDepth.toNat ≤ depth then .error .tooDeep
    else match w.emit scope ⟨trace, UInt16.ofNat depth, parent⟩ index
        (w.receiverKind scope trace.message) with
      | .error e => .error (.undecoded e)
      | .ok emitted => .ok emitted

theorem outcome_visitOf_of_le {w : Walker} (scope : Scope) {depth : Nat} (parent : String)
    (index : Nat) (trace : Trace) (h : w.config.maxDepth.toNat ≤ depth) :
    (w.visitOf scope depth parent index trace).outcome = .error .tooDeep := by
  simp [visitOf, h]

theorem outcome_visitOf_of_emit_eq_error {w : Walker} {scope : Scope} {depth : Nat}
    (parent : String) (index : Nat) {trace : Trace} {e : Error}
    (h : depth < w.config.maxDepth.toNat)
    (he : w.emit scope ⟨trace, UInt16.ofNat depth, parent⟩ index
      (w.receiverKind scope trace.message) = .error e) :
    (w.visitOf scope depth parent index trace).outcome = .error (.undecoded e) := by
  simp [visitOf, he, Nat.not_le_of_lt h]

theorem outcome_visitOf_of_emit_eq_ok {w : Walker} {scope : Scope} {depth : Nat}
    (parent : String) (index : Nat) {trace : Trace} {emitted : Emitted}
    (h : depth < w.config.maxDepth.toNat)
    (he : w.emit scope ⟨trace, UInt16.ofNat depth, parent⟩ index
      (w.receiverKind scope trace.message) = .ok emitted) :
    (w.visitOf scope depth parent index trace).outcome = .ok emitted := by
  simp [visitOf, he, Nat.not_le_of_lt h]

mutual

/-- The visits of a walk through a trace. Only below a call that has a record and that succeeded
are there further visits. -/
def itinerary (w : Walker) (scope : Scope) (depth : Nat) (parent : String) (index : Nat) :
    Trace → List Visit
  | ⟨message, outcome, target, subcalls, error⟩ =>
    let trace : Trace := ⟨message, outcome, target, subcalls, error⟩
    let visit := w.visitOf scope depth parent index trace
    visit :: match visit.record? with
      | some emitted =>
        if trace.isSuccess then
          w.itineraries scope (depth + 1) emitted.transaction.id (index + 1) subcalls
        else []
      | none => []

/-- The visits of a walk through one trace after the other. -/
def itineraries (w : Walker) (scope : Scope) (depth : Nat) (parent : String) (index : Nat) :
    List Trace → List Visit
  | [] => []
  | trace :: rest =>
    let first := w.itinerary scope depth parent index trace
    first ++ w.itineraries scope depth parent (index + (Visit.records first).length) rest

end

theorem itinerary_eq (w : Walker) (scope : Scope) (depth : Nat) (parent : String) (index : Nat)
    (trace : Trace) :
    w.itinerary scope depth parent index trace =
      w.visitOf scope depth parent index trace ::
        match (w.visitOf scope depth parent index trace).record? with
        | some emitted =>
          if trace.isSuccess then
            w.itineraries scope (depth + 1) emitted.transaction.id (index + 1) trace.subcalls
          else []
        | none => [] := by
  cases trace
  rw [itinerary]

/-! ## What visits leave behind -/

/-- Why a call has no record, in words. -/
def reason (w : Walker) : Omission → String
  | .tooDeep => w.depthReason
  | .undecoded e => e.message

/-- The note on a visit without a record. -/
def note? (w : Walker) (scope : Scope) (v : Visit) : Option SkippedCall :=
  v.omission?.map fun omission => w.skippedCall scope v.frame (w.reason omission)

theorem note?_of_outcome_eq_ok {w : Walker} {scope : Scope} {v : Visit} {emitted : Emitted}
    (h : v.outcome = .ok emitted) : w.note? scope v = none := by
  simp [note?, Visit.omission?, h]

theorem note?_of_outcome_eq_error {w : Walker} {scope : Scope} {v : Visit} {omission : Omission}
    (h : v.outcome = .error omission) :
    w.note? scope v = some (w.skippedCall scope v.frame (w.reason omission)) := by
  simp [note?, Visit.omission?, h]

/-- The notes on visits, in order. -/
def notes (w : Walker) (scope : Scope) (visits : List Visit) : List SkippedCall :=
  visits.filterMap (w.note? scope)

theorem notes_cons_of_outcome_eq_ok {w : Walker} {scope : Scope} {v : Visit} {emitted : Emitted}
    (h : v.outcome = .ok emitted) (rest : List Visit) :
    w.notes scope (v :: rest) = w.notes scope rest :=
  List.filterMap_cons_none (note?_of_outcome_eq_ok h)

theorem notes_cons_of_outcome_eq_error {w : Walker} {scope : Scope} {v : Visit}
    {omission : Omission} (h : v.outcome = .error omission) (rest : List Visit) :
    w.notes scope (v :: rest) =
      w.skippedCall scope v.frame (w.reason omission) :: w.notes scope rest :=
  List.filterMap_cons_some (note?_of_outcome_eq_error h)

/-- The addresses that a visit resolves. -/
def asked (w : Walker) (v : Visit) : List Address :=
  if w.config.maxDepth.toNat ≤ v.depth then []
  else if w.config.resolveAddresses then [v.trace.message.sender, v.trace.message.receiver]
  else []

/-- What the node says of an address, unless it says nothing. -/
def known? (w : Walker) (scope : Scope) (address : Address) : Option AddressInfo :=
  let info := (w.resolver.lookup address scope.tipset.key).info
  if info.short.isEmpty ∧ info.robust.isEmpty then none else some info

/-- The state of a walk after some addresses were resolved and filed. -/
def learn (w : Walker) (scope : Scope) (addresses : List Address) (s : WalkState) : WalkState :=
  let (failures, resolver) := w.resolver.resolveAll scope.tipset.key addresses s.resolver
  { s with
    addresses := (addresses.filterMap (w.known? scope)).foldl AddressBook.add s.addresses
    failures := s.failures ++ failures
    resolver := resolver }

@[simp] theorem index_learn (w : Walker) (scope : Scope) (addresses : List Address)
    (s : WalkState) : (w.learn scope addresses s).index = s.index := rfl

@[simp] theorem learn_nil (w : Walker) (scope : Scope) (s : WalkState) :
    w.learn scope [] s = s := by
  simp [learn, Resolver.resolveAll]

theorem learn_append (w : Walker) (scope : Scope) (first second : List Address) (s : WalkState) :
    w.learn scope (first ++ second) s = w.learn scope second (w.learn scope first s) := by
  simp [learn, Resolver.resolveAll_append, List.append_assoc]

/-- What a visit files in the address book. -/
def filed (w : Walker) (scope : Scope) (v : Visit) : List AddressInfo :=
  (w.asked v).filterMap (w.known? scope) ++ (v.record?.bind (·.decoded.created)).toList

/-- The record at the top after further calls. -/
def topAfter (id : Option String) (calls : List Emitted) : Option String :=
  calls.foldl (fun id e => if e.transaction.level = 0 then some e.transaction.id else id) id

/-- The state of a walk after some visits. -/
def after (w : Walker) (scope : Scope) (s : WalkState) (visits : List Visit) : WalkState :=
  let (failures, resolver) :=
    w.resolver.resolveAll scope.tipset.key (visits.flatMap w.asked) s.resolver
  let calls := Visit.records visits
  { transactions := s.transactions ++ calls.map Emitted.transaction
    addresses := (visits.flatMap (w.filed scope)).foldl AddressBook.add s.addresses
    skipped := s.skipped ++ w.notes scope visits
    failures := s.failures ++ failures
    resolver := resolver
    index := s.index + calls.length
    target := LogsTarget.track s.transactions.length s.target calls
    rootId := topAfter s.rootId calls }

theorem after_append (w : Walker) (scope : Scope) (s : WalkState) (first second : List Visit) :
    w.after scope s (first ++ second) = w.after scope (w.after scope s first) second := by
  simp [after, Visit.records, notes, topAfter, Resolver.resolveAll_append,
    LogsTarget.track_append, List.append_assoc, Nat.add_assoc]

/-- The state of a walk after the addresses of a visit are learnt, and its note is taken, but
before its record is added. -/
def met (w : Walker) (scope : Scope) (v : Visit) (s : WalkState) : WalkState :=
  { w.learn scope (w.asked v) s with
    addresses := (v.record?.bind (·.decoded.created)).toList.foldl AddressBook.add
      (w.learn scope (w.asked v) s).addresses
    skipped := s.skipped ++ (w.note? scope v).toList }

theorem after_singleton_of_record?_eq_none (w : Walker) (scope : Scope) (s : WalkState)
    {v : Visit} (h : v.record? = none) : w.after scope s [v] = w.met scope v s := by
  cases hnote : w.note? scope v <;>
    simp [after, met, learn, filed, Visit.records, notes, topAfter, LogsTarget.track, h, hnote]

theorem after_singleton_of_record?_eq_some (w : Walker) (scope : Scope) (s : WalkState)
    {v : Visit} {emitted : Emitted} (h : v.record? = some emitted)
    (hlevel : emitted.transaction.level = v.frame.level) :
    w.after scope s [v] = addRecord v.frame emitted (w.met scope v s) := by
  cases hnote : w.note? scope v <;>
    simp [after, met, addRecord, learn, filed, Visit.records, notes, topAfter,
      LogsTarget.track, h, hnote, hlevel]

@[simp] theorem after_nil (w : Walker) (scope : Scope) (s : WalkState) :
    w.after scope s [] = s := by
  simp [after, Visit.records, notes, topAfter, LogsTarget.track, Resolver.resolveAll]

end Walker
end TraceLedger
