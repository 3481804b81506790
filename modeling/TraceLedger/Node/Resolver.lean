import TraceLedger.Node.Basic
import TraceLedger.AddressInfo

/-! # Resolving addresses

Both forms of an address and the code of its actor are asked of a node. What was learnt is kept
for the address and the tipset until the tipset is done. -/

namespace TraceLedger

/-- A question that failed while an address was resolved. -/
structure LookupFailure where
  address : String
  lookup : Lookup
  reason : String
deriving DecidableEq

namespace LookupFailure

def toError (f : LookupFailure) : Error := .addressResolution f.address f.lookup f.reason

instance : Writable LookupFailure where
  datum f := .record [
    ("address", .text f.address),
    ("lookup", .text f.lookup.name),
    ("reason", .text f.reason)]

end LookupFailure

/-- What is known of an address, and what could not be learnt. -/
structure ResolvedAddress where
  info : AddressInfo
  failures : List LookupFailure
deriving DecidableEq

namespace ResolvedAddress

def isComplete (r : ResolvedAddress) : Bool := r.failures.isEmpty

def actor (r : ResolvedAddress) : ActorKind := .ofName r.info.actorType

end ResolvedAddress

/-- Resolves addresses through a node. -/
structure Resolver where
  node : Node
  network : Network
  actors : ActorRegistry

/-- What has been learnt, and the questions put to the node so far, the last one first. -/
structure ResolverState where
  cache : List ((Address × TipsetKey) × AddressInfo)
  queries : List Query

namespace ResolverState

def empty : ResolverState := ⟨[], []⟩

/-- What is known of an address at a tipset. -/
def find? (s : ResolverState) (address : Address) (tipset : TipsetKey) : Option AddressInfo :=
  (s.cache.find? (·.1 = (address, tipset))).map Prod.snd

/-- Number of entries, over all tipsets. -/
def cached (s : ResolverState) : Nat := s.cache.length

/-- Forgets what was learnt at a tipset. -/
def clear (s : ResolverState) (tipset : TipsetKey) : ResolverState :=
  { s with cache := s.cache.filter fun entry => entry.1.2 ≠ tipset }

end ResolverState

namespace Resolver

/-- The answer to a question, and the failure if there is none. -/
def attempt (r : Resolver) (address : Address) (lookup : Lookup)
    (answer : Except String (Option α)) : Option α × List LookupFailure :=
  match answer with
  | .ok value => (value, [])
  | .error reason => (none, [⟨address.toText r.network, lookup, reason⟩])

/-- The questions that resolving an address asks: for the form that it lacks, and for the code
of the actor, whose number is used if it is known. -/
def questions (r : Resolver) (address : Address) (tipset : TipsetKey) : List Query :=
  if address.isId then [.robust address tipset, .code address tipset]
  else
    let id := (r.attempt address .short (r.node.lookupId address tipset)).1
    [.id address tipset, .code (id.getD address) tipset]

/-- What is known of an actor by the answers of a node. -/
def describe (r : Resolver) (id robust : Option Address) (code : Option Cid) : AddressInfo where
  short := match id with
    | some id => id.toText r.network
    | none => ""
  robust := match robust with
    | some robust => robust.toText r.network
    | none => ""
  actorCode := match code with
    | some code => code.toText
    | none => ""
  actorType := match code with
    | some code => (r.actors.kindOf code).name
    | none => ""
  ethAddress := robust.bind Address.ethereum?
  creationTxHash := none

/-- What an address comes to by the answers of the node. -/
def lookup (r : Resolver) (address : Address) (tipset : TipsetKey) : ResolvedAddress :=
  if address.isId then
    let (robust, robustFailures) :=
      r.attempt address .robust (r.node.lookupRobust address tipset)
    let (code, codeFailures) := r.attempt address .actorCode (r.node.actorCode address tipset)
    ⟨r.describe (some address) robust code, robustFailures ++ codeFailures⟩
  else
    let (id, idFailures) := r.attempt address .short (r.node.lookupId address tipset)
    let (code, codeFailures) :=
      r.attempt address .actorCode (r.node.actorCode (id.getD address) tipset)
    ⟨r.describe id (some address) code, idFailures ++ codeFailures⟩

/-- Resolves an address by asking the node. -/
def inquire (r : Resolver) (address : Address) (tipset : TipsetKey) :
    Inquiry ResolvedAddress := do
  if address.isId then
    let (robust, robustFailures) :=
      r.attempt address .robust (← r.node.askRobust address tipset)
    let (code, codeFailures) := r.attempt address .actorCode (← r.node.askCode address tipset)
    return ⟨r.describe (some address) robust code, robustFailures ++ codeFailures⟩
  else
    let (id, idFailures) := r.attempt address .short (← r.node.askId address tipset)
    let (code, codeFailures) :=
      r.attempt address .actorCode (← r.node.askCode (id.getD address) tipset)
    return ⟨r.describe id (some address) code, idFailures ++ codeFailures⟩

theorem inquire_eq (r : Resolver) (address : Address) (tipset : TipsetKey)
    (queries : List Query) :
    r.inquire address tipset queries =
      (r.lookup address tipset, (r.questions address tipset).reverse ++ queries) := by
  unfold inquire lookup questions
  split <;> rfl

/-- Resolves an address by what is known, or else by the node. What is known comes without
failures. -/
def resolve (r : Resolver) (address : Address) (tipset : TipsetKey) (s : ResolverState) :
    ResolvedAddress × ResolverState :=
  match s.find? address tipset with
  | some info => (⟨info, []⟩, s)
  | none =>
    let (resolved, queries) := r.inquire address tipset s.queries
    (resolved, ⟨((address, tipset), resolved.info) :: s.cache, queries⟩)

/-- The kind of the actor at an address. -/
def actorAt (r : Resolver) (address : Address) (tipset : TipsetKey) (s : ResolverState) :
    ActorKind × ResolverState :=
  let (resolved, s) := r.resolve address tipset s
  (resolved.actor, s)

end Resolver
end TraceLedger
