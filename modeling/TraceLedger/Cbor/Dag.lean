import TraceLedger.Cbor.Head
import TraceLedger.Cbor.Ipld
import TraceLedger.Text.Utf8

/-! # DAG-CBOR readers

A reader takes one item off the front of the input. It knows which kind of item comes next, and
so tells a head of another kind only by the bits that its own kind leaves free. A budget bounds
how deep items may nest. -/

namespace TraceLedger.Cbor.Dag

/-- Reads one value with a budget for nested items. -/
def Reader (α : Type) : Type := (budget : Nat) → List UInt8 → Option (α × List UInt8)

namespace Reader

def pure (a : α) : Reader α := fun _ input => some (a, input)

def bind (r : Reader α) (f : α → Reader β) : Reader β := fun budget input =>
  match r budget input with
  | some (a, rest) => f a budget rest
  | none => none

instance : Monad Reader where
  pure := pure
  bind := bind

/-- Refuses every input. -/
def refuse : Reader α := fun _ _ => none

end Reader

/-- The budget for a whole input. -/
def fullBudget : Nat := 256

/-- Spends one step of the budget on what a reader reads. -/
def step (r : Reader α) : Reader α := fun budget input =>
  match budget with
  | 0 => none
  | budget + 1 => r budget input

/-- The next byte. -/
def byte : Reader UInt8 := fun _ input =>
  match input with
  | [] => none
  | b :: rest => some (b, rest)

/-- The argument of a head. The bits that the kind sets may be missing in the head. -/
def argument (kind : Kind) : Reader UInt64 := fun _ input =>
  match input with
  | [] => none
  | b :: rest => argument? (b &&& ~~~ kind.mask) rest

/-- The next `n` bytes. -/
def take (n : Nat) : Reader (List UInt8) := fun _ input => Octets.take? n input

/-- The given number of values. -/
def sequence (read : List UInt8 → Option (α × List UInt8)) :
    (count : Nat) → List UInt8 → Option (List α × List UInt8)
  | 0, input => some ([], input)
  | count + 1, input =>
    match read input with
    | none => none
    | some (a, rest) =>
      match sequence read count rest with
      | none => none
      | some (more, rest) => some (a :: more, rest)

/-- Values up to a break. Each of them takes at least one byte, so the length of the input is
fuel enough. -/
def untilBreak (read : List UInt8 → Option (α × List UInt8)) :
    (fuel : Nat) → List UInt8 → Option (List α × List UInt8)
  | 0, _ => none
  | fuel + 1, input =>
    match input with
    | [] => none
    | b :: rest =>
      if b = breakByte then some ([], rest)
      else
        match read (b :: rest) with
        | none => none
        | some (a, rest) =>
          match untilBreak read fuel rest with
          | none => none
          | some (more, rest) => some (a :: more, rest)

/-- The content of a byte string or of a text: of a told length, or in chunks, each of which
costs a step. -/
def content (kind : Kind) : Reader (List UInt8)
  | budget, input =>
    match input with
    | [] => none
    | b :: rest =>
      if b = kind.openHead then
        let chunk := match budget with
          | 0 => fun _ => none
          | budget + 1 => content kind budget
        (untilBreak chunk (rest.length + 1) rest).map fun (chunks, rest) => (chunks.flatten, rest)
      else
        match argument? (b &&& ~~~ kind.mask) rest with
        | some (size, rest) => take size.toNat budget rest
        | none => none

def bytes : Reader (List UInt8) := content .bytes

def text : Reader String := do
  match Utf8.decode? (← content .text) with
  | some value => return value
  | none => .refuse

/-- A word that fits in eight bytes of argument. -/
def u64 : Reader UInt64 := argument .unsigned

/-- A number whose head takes no more than the given number of bytes. -/
def narrow (lowest : UInt8) : Reader UInt64 := fun budget input =>
  match input with
  | [] => none
  | b :: _ => if b < lowest then u64 budget input else none

/-- A word written without an argument of eight bytes. -/
def u32 : Reader UInt32 := do return (← narrow 27).toUInt32

/-- A word written without an argument of four or eight bytes. -/
def u16 : Reader UInt16 := do return (← narrow 26).toUInt16

/-- A whole number as its head tells it. -/
def integer : Reader Int := fun _ input =>
  match input with
  | [] => none
  | b :: rest =>
    match argument? (b &&& 0x1f) rest with
    | none => none
    | some (n, rest) =>
      if b >>> 5 = Kind.unsigned.code then some ((n.toNat : Int), rest)
      else if b >>> 5 = Kind.negative.code then some (-1 - (n.toNat : Int), rest)
      else none

def i64 : Reader Int64 := do
  let n ← integer
  if Int64.minValue.toInt ≤ n ∧ n ≤ Int64.maxValue.toInt then return Int64.ofInt n else .refuse

def bool : Reader Bool := do
  match ← byte with
  | 0xf4 => return false
  | 0xf5 => return true
  | _ => .refuse

/-- The tag of links. -/
def linkTag : UInt64 := 42

/-- A byte string whose head is a head of byte strings. -/
def properBytes : Reader (List UInt8) := fun budget input =>
  match input with
  | [] => none
  | b :: _ => if b >>> 5 = Kind.bytes.code then bytes budget input else none

/-- The bytes of a link behind its tag: a zero, and the identifier's binary form. -/
def linkBytes : Reader (List UInt8) := do
  if (← argument .tag) = linkTag then
    match ← properBytes with
    | 0 :: b :: rest => return b :: rest
    | _ => .refuse
  else .refuse

/-- The identifier that a byte string starts with. -/
def identifier (bytes : List UInt8) : Reader Cid :=
  match Cid.ofBytes? bytes with
  | some cid => .pure cid
  | none => .refuse

def link : Reader Cid := do identifier (← linkBytes)

/-- Nothing, or a value, which costs a step. -/
def optional (r : Reader α) : Reader (Option α) := fun budget input =>
  match input with
  | 0xf6 :: rest => some (none, rest)
  | input => step (do return some (← r)) budget input

/-- A list of a told length. -/
def list (r : Reader α) : Reader (List α) := step fun budget input =>
  match argument .list budget input with
  | some (count, rest) => sequence (r budget) count.toNat rest
  | none => none

/-- Inserts an entry in the order of the names' bytes; none if the name is there already. -/
def insertEntry (name : String) (value : α) : List (String × α) → Option (List (String × α))
  | [] => some [(name, value)]
  | (other, v) :: rest =>
    if name = other then none
    else if name < other then some ((name, value) :: (other, v) :: rest)
    else (insertEntry name value rest).map ((other, v) :: ·)

/-- Entries in the order of their names, each name once. -/
def sortEntries (entries : List (String × α)) : Option (List (String × α)) :=
  entries.foldlM (fun sorted (name, value) => insertEntry name value sorted) []

/-- Bytes of a floating point number of four or eight bytes. -/
def float (width : Nat) : Reader Binary64 := do
  let bits := BigEndian.decode (← take width)
  return if width = 4 then .ofBinary32 (UInt32.ofNat bits) else ⟨UInt64.ofNat bits⟩

/-- Reads an item of any kind. Lengths are told, tags other than the one of links do not occur,
and the names in a map differ. -/
def ipld : Reader Ipld
  | 0, _ => none
  | budget + 1, input =>
    match input with
    | [] => none
    | b :: rest =>
      let kind := b >>> 5
      if kind = Kind.unsigned.code ∨ kind = Kind.negative.code then
        (integer budget input).map fun (n, rest) => (.int n, rest)
      else if b = Kind.bytes.openHead ∨ b = Kind.text.openHead then none
      else if kind = Kind.bytes.code then
        (bytes budget input).map fun (value, rest) => (.bytes value, rest)
      else if kind = Kind.text.code then
        (text budget input).map fun (value, rest) => (.text value, rest)
      else if kind = Kind.list.code then
        match budget with
        | 0 => none
        | budget + 1 =>
          match argument .list budget input with
          | none => none
          | some (count, rest) =>
            (sequence (fun input => ipld budget input) count.toNat rest).map
              fun (items, rest) => (.list items, rest)
      else if kind = Kind.map.code then
        match budget with
        | 0 => none
        | budget + 1 =>
          match argument .map budget input with
          | none => none
          | some (count, rest) =>
            match sequence (fun input =>
                match text budget input with
                | none => none
                | some (name, rest) =>
                  (ipld budget rest).map fun (value, rest) => ((name, value), rest))
              count.toNat rest with
            | none => none
            | some (entries, rest) =>
              (sortEntries entries).map fun entries => (.map entries, rest)
      else if kind = Kind.tag.code then
        (link budget input).map fun (cid, rest) => (.link cid, rest)
      else if b = 0xf4 then some (.bool false, rest)
      else if b = 0xf5 then some (.bool true, rest)
      else if b = 0xf6 then some (.null, rest)
      else if b = 0xfa then (float 4 budget rest).map fun (value, rest) => (.float value, rest)
      else if b = 0xfb then (float 8 budget rest).map fun (value, rest) => (.float value, rest)
      else none

/-- Passes over an item of any kind, with tags and lengths that are not told. What stands
between the head of an open item and its break may be items of any kind, whichever kind the open
item is of; in an open map they come in pairs. -/
def skip : Reader Unit
  | 0, _ => none
  | budget + 1, input =>
    let one := fun input => skip budget input
    let pair := fun input =>
      match skip budget input with
      | some ((), rest) => skip budget rest
      | none => none
    match input with
    | [] => none
    | b :: rest =>
      let kind := b >>> 5
      if kind = Kind.unsigned.code ∨ kind = Kind.negative.code then
        (argument? (b &&& 0x1f) rest).map fun (_, rest) => ((), rest)
      else if b ∈ [Kind.bytes, .text, .list].map Kind.openHead then
        (untilBreak one (rest.length + 1) rest).map fun (_, rest) => ((), rest)
      else if b = Kind.map.openHead then
        (untilBreak pair (rest.length + 1) rest).map fun (_, rest) => ((), rest)
      else if kind = Kind.bytes.code ∨ kind = Kind.text.code then
        match argument? (b &&& 0x1f) rest with
        | none => none
        | some (size, rest) => (take size.toNat budget rest).map fun (_, rest) => ((), rest)
      else if kind = Kind.list.code then
        match argument? (b &&& 0x1f) rest with
        | none => none
        | some (count, rest) => (sequence one count.toNat rest).map fun (_, rest) => ((), rest)
      else if kind = Kind.map.code then
        match argument? (b &&& 0x1f) rest with
        | none => none
        | some (count, rest) => (sequence pair count.toNat rest).map fun (_, rest) => ((), rest)
      else if kind = Kind.tag.code then
        match argument? (b &&& 0x1f) rest with
        | none => none
        | some (_, rest) => skip budget rest
      else if 0xf4 ≤ b ∧ b ≤ 0xf7 then some ((), rest)
      else if b = 0xf9 then (take 2 budget rest).map fun (_, rest) => ((), rest)
      else if b = 0xfa then (take 4 budget rest).map fun (_, rest) => ((), rest)
      else if b = 0xfb then (take 8 budget rest).map fun (_, rest) => ((), rest)
      else none

/-- Reads an input that holds one value and nothing else. -/
def run (r : Reader α) (input : List UInt8) : Option α :=
  match r fullBudget input with
  | some (a, []) => some a
  | _ => none

/-- The value of an input without a schema. -/
def ipld? (input : List UInt8) : Option Ipld := run ipld input

end TraceLedger.Cbor.Dag
