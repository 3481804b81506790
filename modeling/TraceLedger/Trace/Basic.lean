import TraceLedger.Error
import TraceLedger.Record.Datum
import TraceLedger.Record.Source

/-! # Execution traces

A trace is a call together with the calls that it made, in the order in which they were made. -/

namespace TraceLedger

namespace Trace

/-- What a call was asked to do. -/
structure Message where
  sender : Address
  receiver : Address
  value : Int
  method : UInt64
  params : List UInt8
  paramsCodec : UInt64
  gasLimit : Option UInt64
  readOnly : Option Bool
deriving DecidableEq

/-- What came of a call, as recorded. -/
structure Outcome where
  exitCode : Option UInt32
  result : List UInt8
  resultCodec : UInt64
  gasUsed : Option Int64
deriving DecidableEq

/-- The state of the called actor when the call began. -/
structure TargetState where
  code : Cid
  delegated : Option Address
deriving DecidableEq

/-- The called actor. -/
structure Target where
  id : UInt64
  state : TargetState
deriving DecidableEq

/-- What is known for sure of a call that has an exit code. -/
structure Receipt where
  exitCode : UInt32
  result : List UInt8
  gasUsed : Int64
deriving DecidableEq

end Trace

/-- A call and the calls below it. -/
structure Trace where
  message : Trace.Message
  outcome : Option Trace.Outcome
  target : Option Trace.Target
  subcalls : List Trace
  error : Option String

namespace Trace

mutual

/-- Whether two calls are the same, with all that is below them. -/
def decEq : (a b : Trace) → Decidable (a = b)
  | ⟨message, outcome, target, subcalls, error⟩,
      ⟨message', outcome', target', subcalls', error'⟩ =>
    have := decEqList subcalls subcalls'
    decidable_of_iff (message = message' ∧ outcome = outcome' ∧ target = target' ∧
      subcalls = subcalls' ∧ error = error') (by rw [Trace.mk.injEq])

def decEqList : (as bs : List Trace) → Decidable (as = bs)
  | [], [] => isTrue rfl
  | [], b :: bs => isFalse (List.cons_ne_nil b bs).symm
  | a :: as, [] => isFalse (List.cons_ne_nil a as)
  | a :: as, b :: bs =>
    have := decEq a b
    have := decEqList as bs
    decidable_of_iff (a = b ∧ as = bs) (by rw [List.cons.injEq])

end

instance : DecidableEq Trace := decEq

open Source

instance : Readable Message where
  read := do
    let (sender, receiver, value, method, params, paramsCodec, gasLimit, readOnly, ()) ← record <|
      .cons "From" address none <|
      .cons "To" address none <|
      .cons "Value" amount none <|
      .cons "Method" u64 (some 0) <|
      .cons "Params" payload (some []) <|
      .cons "ParamsCodec" u64 (some 0) <|
      .cons "GasLimit" (optional u64) (some none) <|
      .cons "ReadOnly" (optional bool) (some none) .nil
    return { sender, receiver, value, method, params, paramsCodec, gasLimit, readOnly }

instance : Writable Message where
  datum m := .record [
    ("From", .address m.sender),
    ("To", .address m.receiver),
    ("Value", .amount m.value),
    ("Method", .word m.method),
    ("Params", .bytes m.params),
    ("ParamsCodec", .word m.paramsCodec),
    ("GasLimit", .optional .word m.gasLimit),
    ("ReadOnly", .optional .bool m.readOnly)]

instance : Readable Outcome where
  read := do
    let (exitCode, result, resultCodec, gasUsed, ()) ← record <|
      .cons "ExitCode" (optional u32) (some none) <|
      .cons "Return" payload (some []) <|
      .cons "ReturnCodec" u64 (some 0) <|
      .cons "GasUsed" (optional i64) (some none) .nil
    return { exitCode, result, resultCodec, gasUsed }

instance : Writable Outcome where
  datum o := .record <| [
    ("ExitCode", .optional (.word ·.toUInt64) o.exitCode),
    ("Return", .bytes o.result),
    ("ReturnCodec", .word o.resultCodec)] ++
    Datum.field? "GasUsed" .integer o.gasUsed

instance : Readable TargetState where
  read := do
    let (code, delegated, ()) ← record <|
      .cons "Code" link none <|
      .cons "DelegatedAddress" (optional address) (some none) .nil
    return { code, delegated }

instance : Writable TargetState where
  datum s := .record [
    ("Code", .link s.code),
    ("DelegatedAddress", .optional .address s.delegated)]

instance : Readable Target where
  read := do
    let (id, state, ()) ← record <|
      .cons "Id" u64 none <|
      .cons "State" Readable.read none .nil
    return { id, state }

instance : Writable Target where
  datum t := .record [("Id", .word t.id), ("State", Writable.datum t.state)]

/-- Reads a trace, given a reader of its subcalls. -/
def readNode {m : Type → Type} [Source m] (subcall : m Trace) : m Trace := do
  let (message, outcome, target, subcalls, error, ()) ← record <|
    .cons "Msg" Readable.read none <|
    .cons "MsgRct" (optional Readable.read) (some none) <|
    .cons "InvokedActor" (optional Readable.read) (some none) <|
    .cons "Subcalls" (orDefault [] (list subcall)) (some []) <|
    .cons "Error" (optional text) (some none) .nil
  return { message, outcome, target, subcalls, error }

instance : Readable Trace where
  read := nested readNode

mutual

def datum (t : Trace) : Datum :=
  match t with
  | ⟨message, outcome, target, subcalls, error⟩ =>
    .record <| [
      ("Msg", Writable.datum message),
      ("MsgRct", .optional Writable.datum outcome),
      ("InvokedActor", .optional Writable.datum target),
      ("Subcalls", .list (datumList subcalls))] ++
      Datum.field? "Error" .text error

def datumList : List Trace → List Datum
  | [] => []
  | t :: rest => datum t :: datumList rest

end

instance : Writable Trace where
  datum := datum

/-- The error of a call without an exit code. -/
def missingReceipt (t : Trace) : Error :=
  .missingReceipt (t.message.receiver.toText .mainnet) t.message.method

/-- The receipt of a call that has an exit code. -/
def receipt (t : Trace) : Except Error Receipt :=
  match t.outcome with
  | none => .error t.missingReceipt
  | some outcome =>
    match outcome.exitCode with
    | none => .error t.missingReceipt
    | some exitCode => .ok ⟨exitCode, outcome.result, outcome.gasUsed.getD 0⟩

/-- Whether the call ended without an error. A call without a receipt did not. -/
def isSuccess (t : Trace) : Bool :=
  match t.receipt with
  | .ok receipt => receipt.exitCode = 0
  | .error _ => false

/-- The code of the called actor, if it was recorded. -/
def code? (t : Trace) : Option Cid := t.target.map (·.state.code)

end Trace
end TraceLedger
