import TraceLedger.Address.Text
import TraceLedger.Cbor.Head
import TraceLedger.Cid
import TraceLedger.Json.Basic
import TraceLedger.Text.Base64
import TraceLedger.Text.Utf8
import TraceLedger.Wire.SignedMagnitude

/-! # Writing records

A record is turned into a tree once, and the tree is written as JSON or as DAG-CBOR. -/

namespace TraceLedger

/-- A value to be written. -/
inductive Datum where
  | null
  | bool (value : Bool)
  | word (value : UInt64)
  | integer (value : Int64)
  | text (value : String)
  | bytes (value : List UInt8)
  | address (value : Address)
  | amount (value : Int)
  | link (value : Cid)
  | list (items : List Datum)
  | record (fields : List (String × Datum))

namespace Datum

instance : Inhabited Datum := ⟨null⟩

/-- A value, or null. -/
def optional (write : α → Datum) : Option α → Datum
  | some value => write value
  | none => null

/-- A field that is left out when it has no value. -/
def field? (name : String) (write : α → Datum) : Option α → List (String × Datum)
  | some value => [(name, write value)]
  | none => []

mutual

/-- The JSON form: byte strings in base 64, amounts in decimal, links as objects. -/
def toJson : Datum → Json
  | null => .null
  | bool value => .bool value
  | word value => .nat value.toNat
  | integer value => .int value.toInt
  | text value => .text value
  | bytes value => .text (Base64.encode value)
  | address value => .text (value.toText .mainnet)
  | amount value => .text (toString value)
  | link value => .object [("/", .text value.toText)]
  | list items => .list (itemsToJson items)
  | record fields => .object (fieldsToJson fields)

def itemsToJson : List Datum → List Json
  | [] => []
  | item :: rest => toJson item :: itemsToJson rest

def fieldsToJson : List (String × Datum) → List (String × Json)
  | [] => []
  | (name, item) :: rest => (name, toJson item) :: fieldsToJson rest

end

open Cbor

/-- A byte string behind its head. -/
def blob? (kind : Kind) (bytes : List UInt8) : Option (List UInt8) :=
  (sizedHead? kind bytes.length).map (· ++ bytes)

/-- A link: its tag, and its bytes behind a zero. -/
def linkToCbor? (cid : Cid) : Option (List UInt8) :=
  (blob? .bytes (0 :: cid.toBytes)).map (head .tag 42 ++ ·)

mutual

/-- The DAG-CBOR form. Only an amount that is too large, or a length that no head can hold,
cannot be written. -/
def toCbor? : Datum → Option (List UInt8)
  | null => some [0xf6]
  | bool false => some [0xf4]
  | bool true => some [0xf5]
  | word value => some (head .unsigned value)
  | integer value =>
    some (if 0 ≤ value then head .unsigned value.toUInt64 else head .negative (~~~ value.toUInt64))
  | text value => blob? .text (Utf8.encode value)
  | bytes value => blob? .bytes value
  | address value => blob? .bytes value.toBytes
  | amount value => (SignedMagnitude.encode? value).bind (blob? .bytes)
  | link value => linkToCbor? value
  | list items => do
    let head ← sizedHead? .list items.length
    let items ← itemsToCbor? items
    return head ++ items
  | record fields => do
    let head ← sizedHead? .map fields.length
    let fields ← fieldsToCbor? fields
    return head ++ fields

def itemsToCbor? : List Datum → Option (List UInt8)
  | [] => some []
  | item :: rest => do
    let item ← toCbor? item
    let rest ← itemsToCbor? rest
    return item ++ rest

def fieldsToCbor? : List (String × Datum) → Option (List UInt8)
  | [] => some []
  | (name, item) :: rest => do
    let name ← blob? .text (Utf8.encode name)
    let item ← toCbor? item
    let rest ← fieldsToCbor? rest
    return name ++ item ++ rest

end

end Datum

/-- A type whose values are written as JSON and as DAG-CBOR. -/
class Writable (α : Type) where
  datum : α → Datum

namespace Writable

variable {α : Type} [Writable α]

def toJson (value : α) : Json := (datum value).toJson

def toCbor? (value : α) : Option (List UInt8) := (datum value).toCbor?

end Writable
end TraceLedger
