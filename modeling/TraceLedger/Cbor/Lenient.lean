import TraceLedger.Cbor.Item
import TraceLedger.Record.Source
import TraceLedger.Wire.SignedMagnitude

/-! # Records in CBOR of any writer

Tags before values are passed over, lengths need not be told, and bytes behind the value do not
matter. Records are maps whose names are texts or byte strings. -/

namespace TraceLedger.Cbor.Lenient

/-- Reads a value from an item, within a budget for nesting. -/
def Reader (α : Type) : Type := (budget : Nat) → Item → Option α

namespace Reader

instance : Monad Reader where
  pure a := fun _ _ => some a
  bind r f := fun budget item =>
    match r budget item with
    | some a => f a budget item
    | none => none

def refuse : Reader α := fun _ _ => none

/-- Enters a list or a map. -/
def enter (r : Reader α) : Reader α := fun budget item =>
  match budget with
  | 0 => none
  | budget + 1 => r budget item

/-- A whole number from `low` to `high`. -/
def int (low high : Int) : Reader Int := fun _ item =>
  match item.int? with
  | some n => if low ≤ n ∧ n ≤ high then some n else none
  | none => none

/-- A whole number that is not negative. -/
def nat (high : Nat) : Reader Nat := do return (← int 0 high).toNat

def text : Reader String := fun _ item =>
  match item.untagged with
  | .text _ value => some value
  | _ => none

def bool : Reader Bool := fun _ item =>
  match item.untagged with
  | .bool value => some value
  | _ => none

def bytes : Reader (List UInt8) := fun _ item =>
  match item.untagged with
  | .bytes _ value => some value
  | _ => none

/-- The longest string that has to come in one piece. -/
def maxWhole : Nat := 4096

/-- A byte string in one piece. -/
def wholeBytes : Reader (List UInt8) := fun _ item =>
  match item.untagged with
  | .bytes true value => if value.length ≤ maxWhole then some value else none
  | _ => none

/-- A byte string in one piece that `parse` accepts. -/
def parsed (parse : List UInt8 → Option α) : Reader α := do
  match parse (← wholeBytes) with
  | some a => return a
  | none => refuse

/-- The identifier in the bytes of a link, with or without a zero before it. -/
def identifier? : List UInt8 → Option Cid
  | 0 :: bytes => Cid.ofBytes? bytes
  | bytes => Cid.ofBytes? bytes

def link : Reader Cid := parsed identifier?

/-- The name of a field: a text or a byte string in one piece. A byte string that is no text
names no field. -/
def name? (item : Item) : Option (Option String) :=
  match item.untagged with
  | .text true value => if (Utf8.encode value).length ≤ maxWhole then some (some value) else none
  | .bytes true value => if value.length ≤ maxWhole then some (Utf8.decode? value) else none
  | _ => none

/-- Null counts only where no tag stands before it. -/
def optional (r : Reader α) : Reader (Option α) := fun budget item =>
  match item with
  | .null => some none
  | item => (r budget item).map some

/-- A list; an empty byte string is an empty list. -/
def list (r : Reader α) : Reader (List α) := enter fun budget item =>
  match item.untagged with
  | .list items => items.mapM (r budget)
  | .bytes _ [] => some []
  | _ => none

/-- Fills in the fields of the given entries. Entries with other names are passed over. -/
def fill (fields : Fields Reader τs) (budget : Nat) :
    Slots τs → List (Item × Item) → Option (Slots τs)
  | slots, [] => some slots
  | slots, (name, item) :: rest =>
    match name? name with
    | none => none
    | some none => if item.isPassable then fill fields budget slots rest else none
    | some (some name) =>
      match fields.entry name slots with
      | .unknown => if item.isPassable then fill fields budget slots rest else none
      | .repeated => none
      | .known read =>
        match read budget item with
        | some slots => fill fields budget slots rest
        | none => none

def record (fields : Fields Reader τs) : Reader (Values τs) := enter fun budget item =>
  match item.untagged with
  | .map entries => (fill fields budget fields.empty entries).bind fields.complete
  | _ => none

/-- A name. -/
def choice (names : List (String × α)) : Reader α := do
  let name ← text
  match names.find? (·.1 = name) with
  | some (_, value) => return value
  | none => refuse

/-- Each value inside another one spends some of the budget, so it bounds their number. -/
def nested (f : Reader α → Reader α) : Reader α := fun budget =>
  Nat.repeat f (budget + 1) refuse budget

instance : Source Reader where
  refuse := refuse
  u16 := do return UInt16.ofNat (← nat (UInt16.size - 1))
  u32 := do return UInt32.ofNat (← nat (UInt32.size - 1))
  u64 := do return UInt64.ofNat (← nat (UInt64.size - 1))
  i64 := do return Int64.ofInt (← int Int64.minValue.toInt Int64.maxValue.toInt)
  bool := bool
  text := text
  bytes := bytes
  address := parsed Address.ofBytes?
  amount := parsed SignedMagnitude.decode?
  link := link
  optional := optional
  list := list
  choice := choice
  record := record
  nested := nested

end Reader

/-- Reads the value at the start of the input. -/
def read? [Readable α] (input : List UInt8) : Option α :=
  match Item.ofBytes? input with
  | some item => (Readable.read : Reader α) (item.depth + 1) item
  | none => none

end TraceLedger.Cbor.Lenient
