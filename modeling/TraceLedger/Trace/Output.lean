import TraceLedger.Trace.Basic

/-! # The output of a compute-state call

A node replays a tipset and reports one result per message: the message, its receipt, what it
cost, and the trace of what it did. -/

namespace TraceLedger

/-- A message as it was sent to the chain. -/
structure Message where
  version : UInt64
  receiver : Address
  sender : Address
  nonce : UInt64
  value : Int
  gasLimit : UInt64
  gasFeeCap : Int
  gasPremium : Int
  method : UInt64
  params : List UInt8
deriving DecidableEq

/-- The receipt of a message. -/
structure Receipt where
  exitCode : UInt32
  result : List UInt8
  gasUsed : Int64
deriving DecidableEq

/-- What the gas of a message cost, and where the cost went. -/
structure GasCost where
  message : Option Cid
  gasUsed : Int
  baseFeeBurn : Int
  overEstimationBurn : Int
  minerPenalty : Int
  minerTip : Int
  refund : Int
  totalCost : Int
deriving DecidableEq

/-- The result of applying one message. -/
structure Invocation where
  messageCid : Cid
  message : Option Message
  receipt : Option Receipt
  gasCost : Option GasCost
  recorded : Option Trace
  error : String
  duration : UInt64
deriving DecidableEq

/-- The state after a tipset, and what each of its messages did. -/
structure StateOutput where
  root : Option Cid
  invocations : List Invocation
deriving DecidableEq

open Source

instance : Readable Message where
  read := do
    let (version, receiver, sender, nonce, value, gasLimit, gasFeeCap, gasPremium, method, params,
        ()) ← record <|
      .cons "Version" u64 (some 0) <|
      .cons "To" address none <|
      .cons "From" address none <|
      .cons "Nonce" u64 (some 0) <|
      .cons "Value" amount none <|
      .cons "GasLimit" u64 (some 0) <|
      .cons "GasFeeCap" amount none <|
      .cons "GasPremium" amount none <|
      .cons "Method" u64 (some 0) <|
      .cons "Params" payload (some []) .nil
    return { version, receiver, sender, nonce, value, gasLimit, gasFeeCap, gasPremium, method,
             params }

instance : Writable Message where
  datum m := .record [
    ("Version", .word m.version),
    ("To", .address m.receiver),
    ("From", .address m.sender),
    ("Nonce", .word m.nonce),
    ("Value", .amount m.value),
    ("GasLimit", .word m.gasLimit),
    ("GasFeeCap", .amount m.gasFeeCap),
    ("GasPremium", .amount m.gasPremium),
    ("Method", .word m.method),
    ("Params", .bytes m.params)]

instance : Readable Receipt where
  read := do
    let (exitCode, result, gasUsed, ()) ← record <|
      .cons "ExitCode" u32 none <|
      .cons "Return" payload (some []) <|
      .cons "GasUsed" i64 (some 0) .nil
    return { exitCode, result, gasUsed }

instance : Writable Receipt where
  datum r := .record [
    ("ExitCode", .word r.exitCode.toUInt64),
    ("Return", .bytes r.result),
    ("GasUsed", .integer r.gasUsed)]

instance : Readable GasCost where
  read := do
    let (message, gasUsed, baseFeeBurn, overEstimationBurn, minerPenalty, minerTip, refund,
        totalCost, ()) ← record <|
      .cons "Message" (optional link) (some none) <|
      .cons "GasUsed" amount none <|
      .cons "BaseFeeBurn" amount none <|
      .cons "OverEstimationBurn" amount none <|
      .cons "MinerPenalty" amount none <|
      .cons "MinerTip" amount none <|
      .cons "Refund" amount none <|
      .cons "TotalCost" amount none .nil
    return { message, gasUsed, baseFeeBurn, overEstimationBurn, minerPenalty, minerTip, refund,
             totalCost }

instance : Writable GasCost where
  datum c := .record [
    ("Message", .optional .link c.message),
    ("GasUsed", .amount c.gasUsed),
    ("BaseFeeBurn", .amount c.baseFeeBurn),
    ("OverEstimationBurn", .amount c.overEstimationBurn),
    ("MinerPenalty", .amount c.minerPenalty),
    ("MinerTip", .amount c.minerTip),
    ("Refund", .amount c.refund),
    ("TotalCost", .amount c.totalCost)]

instance : Readable Invocation where
  read := do
    let (messageCid, message, receipt, gasCost, recorded, error, duration, ()) ← record <|
      .cons "MsgCid" link none <|
      .cons "Msg" (optional Readable.read) (some none) <|
      .cons "MsgRct" (optional Readable.read) (some none) <|
      .cons "GasCost" (optional Readable.read) (some none) <|
      .cons "ExecutionTrace" (optional Readable.read) (some none) <|
      .cons "Error" (orDefault "" text) (some "") <|
      .cons "Duration" u64 (some 0) .nil
    return { messageCid, message, receipt, gasCost, recorded, error, duration }

instance : Writable Invocation where
  datum i := .record [
    ("MsgCid", .link i.messageCid),
    ("Msg", .optional Writable.datum i.message),
    ("MsgRct", .optional Writable.datum i.receipt),
    ("GasCost", .optional Writable.datum i.gasCost),
    ("ExecutionTrace", .optional Writable.datum i.recorded),
    ("Error", .text i.error),
    ("Duration", .word i.duration)]

instance : Readable StateOutput where
  read := do
    let (root, invocations, ()) ← record <|
      .cons "Root" (optional link) (some none) <|
      .cons "Trace" (orDefault [] (list Readable.read)) (some []) .nil
    return { root, invocations }

instance : Writable StateOutput where
  datum o := .record [
    ("Root", .optional .link o.root),
    ("Trace", .list (o.invocations.map Writable.datum))]

namespace Invocation

/-- What the sender was charged; nothing if no cost was reported. -/
def totalCost (i : Invocation) : Int :=
  match i.gasCost with
  | some cost => cost.totalCost
  | none => 0

/-- The gas that the message used, by its receipt. -/
def gasUsed (i : Invocation) : Int64 :=
  match i.receipt with
  | some receipt => receipt.gasUsed
  | none => 0

/-- The single call that a message amounts to when no trace was recorded. -/
def traceOfMessage (i : Invocation) (m : Message) : Trace where
  message := {
    sender := m.sender
    receiver := m.receiver
    value := m.value
    method := m.method
    params := m.params
    paramsCodec := 0
    gasLimit := some m.gasLimit
    readOnly := none }
  outcome := i.receipt.map fun r => {
    exitCode := some r.exitCode
    result := r.result
    resultCodec := 0
    gasUsed := some r.gasUsed }
  target := none
  subcalls := []
  error := if i.error.isEmpty then none else some i.error

/-- The recorded trace, or the single call of the message. -/
def trace? (i : Invocation) : Option Trace :=
  match i.recorded with
  | some trace => some trace
  | none => i.message.map i.traceOfMessage

end Invocation
end TraceLedger
