import TraceLedger.Decimal.Shortest
import TraceLedger.Text.Hex

/-! # JSON values

Objects keep the order of their fields. Whole numbers and fractions are told apart, as they are
written apart. -/

namespace TraceLedger

/-- A JSON value. -/
inductive Json where
  | null
  | bool (value : Bool)
  | int (value : Int)
  | float (value : Binary64)
  | text (value : String)
  | list (items : List Json)
  | object (fields : List (String × Json))

namespace Json

instance : Inhabited Json := ⟨null⟩

/-- Whether nothing is said. -/
def isNull : Json → Bool
  | null => true
  | _ => false

/-- Text, or null when there is none. -/
def optional : Option String → Json
  | some value => text value
  | none => null

def nat (n : Nat) : Json := int n

/-- Fields in order, each name once. -/
abbrev Members := List (String × Json)

/-- Gives a field a new value, in its old place if it is already there. -/
def Members.insert (fields : Members) (name : String) (value : Json) : Members :=
  if fields.any (·.1 = name) then
    fields.map fun field => if field.1 = name then (name, value) else field
  else fields ++ [(name, value)]

/-- The value of a field. -/
def Members.get? (fields : Members) (name : String) : Option Json :=
  (fields.find? (·.1 = name)).map Prod.snd

/-- The field with a given name, of an object. -/
def get? : Json → String → Option Json
  | object fields, name => Members.get? fields name
  | _, _ => none

end Json
end TraceLedger
