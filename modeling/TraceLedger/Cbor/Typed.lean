import TraceLedger.Cbor.Dag
import TraceLedger.Record.Source
import TraceLedger.Wire.SignedMagnitude

/-! # Records in DAG-CBOR

A record is a map of a told size. -/

namespace TraceLedger.Cbor.Dag

/-- A byte string that `parse` accepts. -/
def parsed (parse : List UInt8 → Option α) : Reader α := do
  match parse (← bytes) with
  | some a => return a
  | none => .refuse

def address : Reader Address := parsed Address.ofBytes?

/-- An amount, or any other big integer. -/
def amount : Reader Int := parsed SignedMagnitude.decode?

/-- A link of a record. A second zero before the identifier is passed over. -/
def recordLink : Reader Cid := do
  match ← linkBytes with
  | 0 :: bytes => identifier bytes
  | bytes => identifier bytes

/-- Fills in the fields of the next `count` entries. Entries with other names do not matter. -/
def fill (fields : Fields Reader τs) (budget : Nat) :
    (count : Nat) → Slots τs → List UInt8 → Option (Slots τs × List UInt8)
  | 0, slots, input => some (slots, input)
  | count + 1, slots, input =>
    match text budget input with
    | none => none
    | some (name, rest) =>
      match fields.entry name slots with
      | .repeated => none
      | .unknown =>
        match skip budget rest with
        | some ((), rest) => fill fields budget count slots rest
        | none => none
      | .known read =>
        match read budget rest with
        | some (slots, rest) => fill fields budget count slots rest
        | none => none

def record (fields : Fields Reader τs) : Reader (Values τs) := step fun budget input =>
  match argument .map budget input with
  | none => none
  | some (count, rest) =>
    match fill fields budget count.toNat fields.empty rest with
    | none => none
    | some (slots, rest) => (fields.complete slots).map (·, rest)

/-- The head of a map with one entry. -/
def singleEntry : UInt8 := 0xa1

/-- A name, which may be the name of a single entry; the value of the entry is not read. -/
def choice (names : List (String × α)) : Reader α := step fun budget input =>
  let named (input : List UInt8) : Option (α × List UInt8) :=
    match text budget input with
    | none => none
    | some (name, rest) => (names.find? (·.1 = name)).map fun (_, value) => (value, rest)
  match input with
  | [] => none
  | b :: rest =>
    if b = singleEntry then named rest
    else if b >>> 5 = Kind.text.code then named (b :: rest)
    else none

/-- Each value inside another one spends some of the budget, so it bounds their number. -/
def nested (f : Reader α → Reader α) : Reader α := fun budget =>
  Nat.repeat f (budget + 1) .refuse budget

instance : Source Reader where
  refuse := .refuse
  u16 := u16
  u32 := u32
  u64 := u64
  i64 := i64
  bool := bool
  text := text
  bytes := bytes
  address := address
  amount := amount
  link := recordLink
  optional := optional
  list := list
  choice := choice
  record := record
  nested := nested

/-- Reads an input that holds one value and nothing else. -/
def read? [Readable α] (input : List UInt8) : Option α := run (Readable.read : Reader α) input

end TraceLedger.Cbor.Dag
