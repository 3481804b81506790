import TraceLedger.Cid
import TraceLedger.Json.Basic
import TraceLedger.Text.Base64

/-! # Values without a schema

What a DAG-CBOR item holds when nothing is known about it, and how it is shown as JSON. -/

namespace TraceLedger

/-- A value of the data model. -/
inductive Ipld where
  | null
  | bool (value : Bool)
  | int (value : Int)
  | float (value : Binary64)
  | text (value : String)
  | bytes (value : List UInt8)
  | list (items : List Ipld)
  | map (entries : List (String × Ipld))
  | link (cid : Cid)

namespace Ipld

instance : Inhabited Ipld := ⟨null⟩

/-- An integer as a number, or as text if it needs more than 64 bits. -/
def intToJson (n : Int) : Json :=
  if Int64.minValue.toInt ≤ n ∧ n < UInt64.size then .int n else .text (toString n)

mutual

/-- Byte strings are shown in base 64 and links by their text. -/
def toJson : Ipld → Json
  | null => .null
  | bool value => .bool value
  | int value => intToJson value
  | float value => if value.isFinite then .float value else .null
  | text value => .text value
  | bytes value => .text (Base64.encode value)
  | list items => .list (itemsToJson items)
  | map entries => .object (entriesToJson entries)
  | link cid => .text cid.toText

def itemsToJson : List Ipld → List Json
  | [] => []
  | item :: rest => toJson item :: itemsToJson rest

def entriesToJson : List (String × Ipld) → List (String × Json)
  | [] => []
  | (name, item) :: rest => (name, toJson item) :: entriesToJson rest

end

end Ipld
end TraceLedger
