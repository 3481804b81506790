import TraceLedger.Address.Basic
import TraceLedger.Cid

/-! # Reading records

A record is described once, by its fields. A source is a form of data that records are read
from; it decides how the leaves and the records themselves look. -/

namespace TraceLedger

/-- One value for each of the given types. -/
@[reducible] def Values : List Type → Type
  | [] => Unit
  | τ :: τs => τ × Values τs

/-- At most one value for each of the given types. -/
@[reducible] def Slots : List Type → Type
  | [] => Unit
  | τ :: τs => Option τ × Slots τs

/-- The fields of a record: their names, how each is read, and what stands for a missing one.
Where nothing does, the field is required. -/
inductive Fields (m : Type → Type) : List Type → Type 1 where
  | nil : Fields m []
  | cons {τ : Type} {τs : List Type} (name : String) (read : m τ) (absent : Option τ)
      (rest : Fields m τs) : Fields m (τ :: τs)

namespace Fields

variable {m : Type → Type}

/-- Slots without values. -/
def empty : Fields m τs → Slots τs
  | nil => ()
  | cons _ _ _ rest => (none, rest.empty)

/-- What is to be done with an entry of a given name. -/
inductive Entry (m : Type → Type) (α : Type) where
  /-- No field has the name. -/
  | unknown
  /-- The field has its value already. -/
  | repeated
  /-- The reader fills in the field. -/
  | known (read : m α)

/-- Finds the field of a name. -/
def entry [Monad m] (name : String) : Fields m τs → Slots τs → Entry m (Slots τs)
  | nil, () => .unknown
  | cons fieldName read _ rest, (slot, slots) =>
    if name = fieldName then
      if slot.isSome then .repeated else .known (do return (some (← read), slots))
    else match rest.entry name slots with
      | .unknown => .unknown
      | .repeated => .repeated
      | .known read => .known (do return (slot, ← read))

/-- Puts the default in the place of each missing value. -/
def complete : Fields m τs → Slots τs → Option (Values τs)
  | nil, () => some ()
  | cons _ _ absent rest, (slot, slots) =>
    match slot <|> absent, rest.complete slots with
    | some value, some values => some (value, values)
    | _, _ => none

/-- The values of a record whose fields are all missing. -/
def defaults (fields : Fields m τs) : Option (Values τs) := fields.complete fields.empty

end Fields

/-- A form of data that records are read from. -/
class Source (m : Type → Type) extends Monad m where
  /-- Refuses what stands here. -/
  refuse : m α
  u16 : m UInt16
  u32 : m UInt32
  u64 : m UInt64
  i64 : m Int64
  bool : m Bool
  text : m String
  bytes : m (List UInt8)
  address : m Address
  amount : m Int
  link : m Cid
  /-- Null, or a value. -/
  optional : m α → m (Option α)
  list : m α → m (List α)
  /-- One of several names. -/
  choice : List (String × α) → m α
  record : Fields m τs → m (Values τs)
  /-- Reads a value that may hold values of its own kind inside its records and lists. -/
  nested : (m α → m α) → m α

namespace Source

variable {m : Type → Type} [Source m]

/-- A value, or the default in the place of null. -/
def orDefault (fallback : α) (read : m α) : m α := do return (← optional read).getD fallback

/-- A byte string; null is an empty one. -/
def payload : m (List UInt8) := orDefault [] bytes

/-- Links; null is an empty list. -/
def links : m (List Cid) := orDefault [] (list link)

end Source

/-- A type whose values are read from every source. -/
class Readable (α : Type) where
  read : {m : Type → Type} → [Source m] → m α

end TraceLedger
