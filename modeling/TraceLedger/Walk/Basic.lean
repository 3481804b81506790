import TraceLedger.AddressBook
import TraceLedger.Call.Decode
import TraceLedger.Config
import TraceLedger.EthLog
import TraceLedger.Node.Resolver
import TraceLedger.RecordId
import TraceLedger.Trace.Listing
import TraceLedger.Transaction

/-! # Walking traces

A walk turns each call of a trace into a record, in the order in which the calls were made.
What failed did nothing, so calls below a failed one are left out; and calls below one that
cannot be decoded are left out with it. -/

namespace TraceLedger

/-- A call that has no record, together with the calls below it. -/
structure SkippedCall where
  txHash : String
  level : UInt16
  receiver : String
  method : UInt64
  /-- Number of calls without a record. -/
  calls : Nat
  /-- Why there is no record; of bytes that cannot be read only whose they are. -/
  reason : String
deriving DecidableEq

instance : Writable SkippedCall where
  datum s := .record [
    ("tx_hash", .text s.txHash),
    ("level", .word s.level.toUInt64),
    ("to", .text s.receiver),
    ("method", .word s.method),
    ("calls", .word (UInt64.ofNat s.calls)),
    ("reason", .text s.reason)]

/-- The message that a trace belongs to. -/
structure Scope where
  tipset : Tipset
  tipsetCid : String
  blockCid : String
  messageCid : String
  ethLogs : EthLogs

/-- What is needed to name and decode calls. The codec is no part of it: calls are always decoded as
calls of the built-in actors. -/
structure Walker where
  config : Config
  registry : VersionRegistry
  /-- The actors that parameters of calls refer to. -/
  codecActors : ActorRegistry
  actors : ActorRegistry
  resolver : Resolver

/-- A call that has a record. -/
structure Emitted where
  transaction : Transaction
  decoded : DecodedCall
  /-- Whether the call entered a contract. -/
  isContract : Bool

/-- The records of a tipset, and all that was noted on the way. -/
structure Ledger where
  transactions : List Transaction
  addresses : AddressBook
  skipped : List SkippedCall
  failures : List LookupFailure

namespace Ledger

def empty : Ledger := ⟨[], .empty, [], []⟩

/-- The JSON form. -/
def toJson (l : Ledger) : Json := .object [
  ("transactions", .list (l.transactions.map Writable.toJson)),
  ("addresses", l.addresses.toJson),
  ("skipped", .list (l.skipped.map Writable.toJson)),
  ("address_failures", .list (l.failures.map Writable.toJson))]

end Ledger

/-- The call that the logs of a message go to, as far as a walk has come. -/
structure LogsTarget where
  level : UInt16
  /-- The place of its record in the ledger. -/
  position : Nat
  decoded : DecodedCall

/-- A walk that has come so far. -/
structure WalkState extends Ledger where
  resolver : ResolverState
  /-- Number of records that the walk has made. -/
  index : Nat
  target : Option LogsTarget
  rootId : Option String

/-- A call to be visited. -/
structure Frame where
  trace : Trace
  level : UInt16
  /-- The record that the call's own record belongs under. -/
  parent : String

namespace Walker

/-- Resolves an address and files what is known of it. -/
def recordAddress (w : Walker) (scope : Scope) (address : Address) (s : WalkState) :
    ActorKind × WalkState :=
  let (resolved, resolver) := w.resolver.resolve address scope.tipset.key s.resolver
  let info := resolved.info
  (resolved.actor, { s with
    addresses :=
      if info.short.isEmpty ∧ info.robust.isEmpty then s.addresses else s.addresses.add info
    failures := s.failures ++ resolved.failures
    resolver := resolver })

/-- Files the two addresses of a call, if that is wanted, and tells the kind of the receiver. -/
def recordParties (w : Walker) (scope : Scope) (message : Trace.Message) (s : WalkState) :
    ActorKind × WalkState :=
  if w.config.resolveAddresses then
    let (_, s) := w.recordAddress scope message.sender s
    w.recordAddress scope message.receiver s
  else (.unknown, s)

/-- The called actor: by its recorded code, or else by its address. -/
def actorOf (w : Walker) (trace : Trace) (receiver : ActorKind) : ActorKind :=
  match trace.code? with
  | some code => w.actors.kindOf code
  | none => receiver

/-- The name of the called method. -/
def methodOf (w : Walker) (scope : Scope) (actor : ActorKind) (method : UInt64) : String :=
  match w.registry.methodName actor method w.config.network scope.tipset.height with
  | .ok name => name
  | .error _ => VersionRegistry.unknownMethod

/-- The call of a trace. -/
def callOf (w : Walker) (scope : Scope) (trace : Trace) (actor : ActorKind)
    (result : List UInt8) : Call where
  actor := actor
  methodNum := trace.message.method
  method := w.methodOf scope actor trace.message.method
  params := trace.message.params
  result := result

def context (w : Walker) (scope : Scope) : CallContext where
  network := w.config.network
  version := w.registry.resolve w.config.network scope.tipset.height
  txCid := scope.messageCid

/-- The record of a call, the `index`-th of its walk. -/
def transaction (w : Walker) (scope : Scope) (frame : Frame) (index : Nat) (method : String)
    (status : String) (gasUsed : Int64) (decoded : DecodedCall) : Transaction where
  id := RecordId.ofParts
    [scope.tipsetCid, scope.blockCid, scope.messageCid, frame.parent, method, toString index]
  parentId := frame.parent
  level := frame.level
  height := scope.tipset.height
  timestamp := scope.tipset.timestamp
  tipsetCid := scope.tipsetCid
  blockCid := scope.blockCid
  txHash := scope.messageCid
  sender := frame.trace.message.sender.toText w.config.network
  receiver := frame.trace.message.receiver.toText w.config.network
  amount := toString frame.trace.message.value
  gasUsed := gasUsed
  status := status
  txType := method
  metadata := decoded.toText

/-- The note on a call that is left out. -/
def skippedCall (w : Walker) (scope : Scope) (frame : Frame) (reason : String) : SkippedCall where
  txHash := scope.messageCid
  level := frame.level
  receiver := frame.trace.message.receiver.toText w.config.network
  method := frame.trace.message.method
  calls := frame.trace.callCount
  reason := reason

/-- The record of a call without a receipt: it shows the bytes of the parameters. -/
def emitUnfinished (w : Walker) (scope : Scope) (frame : Frame) (index : Nat) : Emitted :=
  let message := frame.trace.message
  let gasUsed := (frame.trace.outcome.bind (·.gasUsed)).getD 0
  let decoded := DecodedCall.raw message.method message.params []
  { transaction := w.transaction scope frame index VersionRegistry.unknownMethod
      ExitStatus.unknown gasUsed decoded
    decoded := decoded
    isContract := false }

/-- The record of a call with a receipt, if it can be decoded. -/
def emitFinished (w : Walker) (scope : Scope) (frame : Frame) (index : Nat) (receiver : ActorKind)
    (receipt : Trace.Receipt) : Except Error Emitted :=
  let call := w.callOf scope frame.trace (w.actorOf frame.trace receiver) receipt.result
  match call.decode (w.context scope) w.codecActors with
  | .error e => .error e
  | .ok decoded => .ok {
      transaction := w.transaction scope frame index call.method
        (ExitStatus.ofCode receipt.exitCode) receipt.gasUsed decoded
      decoded := decoded
      isContract := call.isContractInvocation }

/-- The record of a call. -/
def emit (w : Walker) (scope : Scope) (frame : Frame) (index : Nat) (receiver : ActorKind) :
    Except Error Emitted :=
  match frame.trace.receipt with
  | .error _ => .ok (w.emitUnfinished scope frame index)
  | .ok receipt => w.emitFinished scope frame index receiver receipt

/-- Files the actor that a call created. -/
def fileCreated (emitted : Emitted) (book : AddressBook) : AddressBook :=
  match emitted.decoded.created with
  | some info => book.add info
  | none => book

/-- Why a call at the depth limit is left out. -/
def depthReason (w : Walker) : String := "exceeds max depth " ++ toString w.config.maxDepth

/-- Leaves a call out. -/
def skip (w : Walker) (scope : Scope) (frame : Frame) (reason : String) (s : WalkState) :
    WalkState :=
  { s with skipped := s.skipped ++ [w.skippedCall scope frame reason] }

/-- Visits a call. Gives its record, if it has one. -/
def visit (w : Walker) (scope : Scope) (frame : Frame) (s : WalkState) :
    Option Emitted × WalkState :=
  if w.config.maxDepth ≤ frame.level.toUInt64 then (none, w.skip scope frame w.depthReason s)
  else
    let (receiver, s) := w.recordParties scope frame.trace.message s
    match w.emit scope frame s.index receiver with
    | .error e => (none, w.skip scope frame e.message s)
    | .ok emitted => (some emitted, { s with addresses := fileCreated emitted s.addresses })

/-- The target of the logs after a call whose record stands at the given place: a call that
entered a contract takes them from one that is deeper. -/
def retarget (level : UInt16) (position : Nat) (emitted : Emitted) (target : Option LogsTarget) :
    Option LogsTarget :=
  if emitted.isContract && target.all (level < ·.level) then
    some ⟨level, position, emitted.decoded⟩
  else target

/-- Adds the record of a call. -/
def addRecord (frame : Frame) (emitted : Emitted) (s : WalkState) : WalkState := { s with
  transactions := s.transactions ++ [emitted.transaction]
  index := s.index + 1
  target := retarget frame.level s.transactions.length emitted s.target
  rootId := if frame.level = 0 then some emitted.transaction.id else s.rootId }

/-- The calls to be visited after one whose record has the given identifier. -/
def below (frame : Frame) (id : String) : List Frame :=
  if frame.trace.isSuccess then
    frame.trace.subcalls.map fun trace => ⟨trace, frame.level + 1, id⟩
  else []

/-- Number of calls in the traces of frames. -/
def pending (frames : List Frame) : Nat := Trace.sizeList (frames.map Frame.trace)

theorem pending_below_le (frame : Frame) (id : String) :
    pending (below frame id) ≤ Trace.sizeList frame.trace.subcalls := by
  unfold below pending
  split
  · simp [Function.comp_def]
  · simp [Trace.sizeList]

/-- Visits calls in order, each one followed by the calls that it made. -/
def visitAll (w : Walker) (scope : Scope) (s : WalkState) : List Frame → WalkState
  | [] => s
  | frame :: rest =>
    match w.visit scope frame s with
    | (none, s) => visitAll w scope s rest
    | (some emitted, s) =>
      visitAll w scope (addRecord frame emitted s) (below frame emitted.transaction.id ++ rest)
termination_by frames => pending frames
decreasing_by
  · simp only [pending, List.map_cons, Trace.sizeList, Trace.size_eq]
    omega
  · have h := pending_below_le frame emitted.transaction.id
    simp only [pending, List.map_append, List.map_cons, Trace.sizeList, Trace.sizeList_append,
      Trace.size_eq] at h ⊢
    omega

/-! ## Whole traces -/

/-- A walk into a ledger, at its beginning. -/
def start (ledger : Ledger) (resolver : ResolverState) : WalkState :=
  { ledger with resolver, index := 0, target := none, rootId := none }

/-- Gives the logs of a message to the record of the target. -/
def addLogs (logs : List EthLog) (target : LogsTarget) (records : List Transaction) :
    List Transaction :=
  let decoded := target.decoded.insert "EthLogs" (.list (logs.map Writable.toJson))
  records.modify target.position fun t => { t with metadata := decoded.toText }

/-- The records when a walk is over: the logs of the message go to the topmost call that entered
a contract, the first one of several. -/
def finish (logs : List EthLog) (s : WalkState) : List Transaction :=
  match logs, s.target with
  | _ :: _, some target => addLogs logs target s.transactions
  | _, _ => s.transactions

/-- Walks a trace and adds its records to a ledger. Gives the identifier of the root's record,
if it has one. -/
def walk (w : Walker) (scope : Scope) (parent : String) (root : Trace) (ledger : Ledger)
    (resolver : ResolverState) : Option String × Ledger × ResolverState :=
  let s := w.visitAll scope (start ledger resolver) [⟨root, 0, parent⟩]
  let logs := scope.ethLogs.ofMessage scope.messageCid
  (s.rootId, { s.toLedger with transactions := finish logs s }, s.resolver)

end Walker
end TraceLedger
