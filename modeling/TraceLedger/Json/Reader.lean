import TraceLedger.Json.Doc
import TraceLedger.Record.Source
import TraceLedger.Address.Text
import TraceLedger.Text.Base64
import TraceLedger.Wire.SignedMagnitude

/-! # Records in JSON

A record is an object, or a list of its fields in order. A budget bounds how deep records and
lists may nest. -/

namespace TraceLedger.Json

/-- Reads a value from a document, within a budget for nesting. -/
def Reader (α : Type) : Type := (budget : Nat) → Doc → Option α

namespace Reader

instance : Monad Reader where
  pure a := fun _ _ => some a
  bind r f := fun budget doc =>
    match r budget doc with
    | some a => f a budget doc
    | none => none

def refuse : Reader α := fun _ _ => none

/-- Enters a list or an object. -/
def enter (r : Reader α) : Reader α := fun budget doc =>
  match budget with
  | 0 => none
  | budget + 1 => r budget doc

/-- A whole number from `low` to `high`. -/
def int (low high : Int) : Reader Int := fun _ doc =>
  match doc with
  | .number numeral =>
    match numeral.toInt? with
    | some n => if low ≤ n ∧ n ≤ high then some n else none
    | none => none
  | _ => none

/-- A whole number that is not negative. -/
def nat (high : Nat) : Reader Nat := do return (← int 0 high).toNat

def text : Reader String := fun _ doc =>
  match doc with
  | .text value => value
  | _ => none

def bool : Reader Bool := fun _ doc =>
  match doc with
  | .bool value => some value
  | _ => none

/-- A text that `parse` accepts. -/
def parsed (parse : String → Option α) : Reader α := do
  match parse (← text) with
  | some a => return a
  | none => refuse

def optional (r : Reader α) : Reader (Option α) := fun budget doc =>
  match doc with
  | .null => some none
  | doc => (r budget doc).map some

def list (r : Reader α) : Reader (List α) := enter fun budget doc =>
  match doc with
  | .list items => items.mapM (r budget)
  | _ => none

/-- Fills in the fields of the given entries. Entries with other names do not matter. -/
def fill (fields : Fields Reader τs) (budget : Nat) :
    Slots τs → List (Option String × Doc) → Option (Slots τs)
  | slots, [] => some slots
  | slots, (name, doc) :: rest =>
    match name with
    | none => none
    | some name =>
      match fields.entry name slots with
      | .unknown => fill fields budget slots rest
      | .repeated => none
      | .known read =>
        match read budget doc with
        | some slots => fill fields budget slots rest
        | none => none

/-- Reads the fields in order. Missing ones at the end have their defaults, and nothing is left
over. -/
def inOrder (budget : Nat) : Fields Reader τs → List Doc → Option (Values τs)
  | .nil, [] => some ()
  | .nil, _ :: _ => none
  | .cons _ _ absent rest, [] =>
    match absent, inOrder budget rest [] with
    | some value, some values => some (value, values)
    | _, _ => none
  | .cons _ read _ rest, doc :: docs =>
    match read budget doc, inOrder budget rest docs with
    | some value, some values => some (value, values)
    | _, _ => none

def record (fields : Fields Reader τs) : Reader (Values τs) := enter fun budget doc =>
  match doc with
  | .object entries => (fill fields budget fields.empty entries).bind fields.complete
  | .list items => inOrder budget fields items
  | _ => none

/-- A link is an object with its text. -/
def link : Reader Cid := do
  let (cid, ()) ← record (.cons "/" (parsed Cid.ofText?) none .nil)
  return cid

/-- A name, or an object with the name and null. -/
def choice (names : List (String × α)) : Reader α := fun budget doc =>
  let named (name : String) := (names.find? (·.1 = name)).map Prod.snd
  match doc with
  | .text (some name) => named name
  | .object [(some name, .null)] => if budget = 0 then none else named name
  | _ => none

/-- Gives an entry a new value, in its old place if it is already there. -/
def put (name : String) (value : α) : List (String × α) → List (String × α)
  | [] => [(name, value)]
  | (other, old) :: rest =>
    if name = other then (name, value) :: rest else (other, old) :: put name value rest

/-- An object whose names are not known beforehand. Of repeated names the last one counts. -/
def table (r : Reader α) : Reader (List (String × α)) := enter fun budget doc =>
  match doc with
  | .object entries =>
    entries.foldlM (fun done (name, doc) =>
      match name, r budget doc with
      | some name, some value => some (put name value done)
      | _, _ => none) []
  | _ => none

/-- Each value inside another one spends some of the budget, so it bounds their number. -/
def nested (f : Reader α → Reader α) : Reader α := fun budget =>
  Nat.repeat f (budget + 1) refuse budget

instance : Source Reader where
  refuse := refuse
  u16 := do return UInt16.ofNat (← nat (UInt16.size - 1))
  u32 := do return UInt32.ofNat (← nat (UInt32.size - 1))
  u64 := do return UInt64.ofNat (← nat (UInt64.size - 1))
  i64 := do return Int64.ofInt (← int Int64.minValue.toInt Int64.maxValue.toInt)
  bool := bool
  text := text
  bytes := parsed Base64.decode?
  address := parsed fun text => (Address.ofText text).toOption
  amount := parsed SignedMagnitude.ofText?
  link := link
  optional := optional
  list := list
  choice := choice
  record := record
  nested := nested

end Reader

/-- Reads a document that nests no deeper than a text may. -/
def Doc.readText? [Readable α] (doc : Doc) : Option α :=
  (Readable.read : Reader α) Doc.maxDepth doc

/-- Reads a document of any depth. -/
def Doc.read? [Readable α] (doc : Doc) : Option α :=
  (Readable.read : Reader α) (doc.depth + 1) doc

end TraceLedger.Json
