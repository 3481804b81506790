import TraceLedger.Call.Basic
import TraceLedger.Schema.Basic

/-! # Filling in the record of a call

The record of a call starts with both sides null. Each actor has a decoder that sees the bytes of
both sides and fills in what it knows of the method. A side that is null afterwards is filled in
without a schema. -/

namespace TraceLedger

open Cbor

/-- The field of the metadata that a side is shown in. -/
def Side.field : Side → String
  | params => "Params"
  | result => "Return"

namespace DecodedCall

/-- The record before anything is decoded. -/
def start (methodNum : UInt64) : DecodedCall := ofSides methodNum .null .null none

/-- Sets a side. -/
def set (d : DecodedCall) (side : Side) (value : Json) : DecodedCall := d.insert side.field value

end DecodedCall

namespace Call

/-- The bytes of a side. -/
def bytes (c : Call) : Side → List UInt8
  | .params => c.params
  | .result => c.result

/-- Reads a side; nothing is read from an empty one. -/
def read (c : Call) (side : Side) (r : Dag.Reader α) : Except Error (Option α) :=
  if (c.bytes side).isEmpty then .ok none
  else
    match Dag.run r (c.bytes side) with
    | some a => .ok (some a)
    | none => .error (c.decodeError side)

/-- Shows a side without a schema; an empty one is null. -/
def showPlain (c : Call) (side : Side) : Except Error Json := do
  match ← c.read side Dag.ipld with
  | some value => return value.toJson
  | none => return .null

/-- Reads a side and sets it to what is shown of the value. -/
def fillAs (c : Call) (side : Side) (r : Dag.Reader α) (shown : α → Json) (out : DecodedCall) :
    Except Error (Option α × DecodedCall) := do
  match ← c.read side r with
  | some a => return (some a, out.set side (shown a))
  | none => return (none, out)

/-- Reads a side by a schema and sets it. -/
def fill (c : Call) (ctx : CallContext) (side : Side) (schema : Schema) (out : DecodedCall) :
    Except Error DecodedCall := do
  let (_, out) ← c.fillAs side (schema.read ctx.network) id out
  return out

/-- The content of a byte string, or the bytes as they are. -/
def contractBytes (bytes : List UInt8) : List UInt8 := (Dag.run Dag.bytes bytes).getD bytes

/-- Sets a side to the input or output of a contract, if there is any. -/
def fillContract (c : Call) (side : Side) (out : DecodedCall) : DecodedCall :=
  if (c.bytes side).isEmpty then out
  else out.set side (Schema.hexText (contractBytes (c.bytes side)))

/-- Fills in the sides that are null: the parameters with what is shown of them without a schema,
and the result likewise. -/
def fillPlain (c : Call) (plainParams : Json) (out : DecodedCall) : Except Error DecodedCall := do
  let out := if out.params.isNull then out.set .params plainParams else out
  if out.result.isNull ∧ ¬c.result.isEmpty then
    return out.set .result (← c.showPlain .result)
  else return out

end Call
end TraceLedger
