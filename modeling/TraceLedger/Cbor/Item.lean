import TraceLedger.Cbor.Head
import TraceLedger.Text.Utf8

/-! # CBOR items

The syntax tree of an item of any kind. Tags are kept; of byte strings and texts it is kept
whether their length was told, since short names must come in one piece. -/

namespace TraceLedger.Cbor

/-- A CBOR item. -/
inductive Item where
  | int (n : Int)
  | bytes (whole : Bool) (value : List UInt8)
  | text (whole : Bool) (value : String)
  | list (items : List Item)
  | map (entries : List (Item × Item))
  | tag (tag : UInt64) (item : Item)
  | bool (value : Bool)
  /-- Null, or an undefined value. -/
  | null
  | float

namespace Item

/-- The bytes still to be read. -/
abbrev Input := List UInt8

/-- The chunks of a byte string or of a text up to its break. Chunks may be grouped, to any
depth, in further strings of untold length: `depth` counts those that are open. -/
def chunks (kind : Kind) : (fuel : Nat) → (depth : Nat) → Input → Option (List (List UInt8) × Input)
  | 0, _, _ => none
  | _, _, [] => none
  | fuel + 1, depth, b :: rest =>
    if b = breakByte then
      match depth with
      | 0 => some ([], rest)
      | depth + 1 => chunks kind fuel depth rest
    else if b = kind.openHead then chunks kind fuel (depth + 1) rest
    else if b >>> 5 = kind.code then
      match argument? (b &&& 0x1f) rest with
      | none => none
      | some (size, rest) =>
        match Octets.take? size.toNat rest with
        | none => none
        | some (chunk, rest) =>
          (chunks kind fuel depth rest).map fun (more, rest) => (chunk :: more, rest)
    else none

/-- The text of chunks, each of which is well formed. -/
def joinText (chunks : List (List UInt8)) : Option String :=
  (chunks.mapM Utf8.decode?).map String.join

/-- The meaning of the smallest items, which are only a number. -/
def simple? (n : UInt64) : Option Item :=
  if n = 20 then some (bool false)
  else if n = 21 then some (bool true)
  else if n = 22 ∨ n = 23 then some null
  else none

mutual

/-- Reads one item. -/
def read : (fuel : Nat) → Input → Option (Item × Input)
  | 0, _ => none
  | _, [] => none
  | fuel + 1, b :: rest =>
    let kind := b >>> 5
    let low := b &&& 0x1f
    if b = Kind.bytes.openHead then
      (chunks .bytes (rest.length + 1) 0 rest).map fun (chunks, rest) =>
        (bytes false chunks.flatten, rest)
    else if b = Kind.text.openHead then
      match chunks .text (rest.length + 1) 0 rest with
      | none => none
      | some (chunks, rest) => (joinText chunks).map fun value => (text false value, rest)
    else if b = Kind.list.openHead then
      (openItems fuel rest).map fun (items, rest) => (list items, rest)
    else if b = Kind.map.openHead then
      (openEntries fuel rest).map fun (entries, rest) => (map entries, rest)
    else if kind = 7 then
      if low = 24 then
        match number? 1 rest with
        | none => none
        | some (n, rest) => (simple? n).map (·, rest)
      else if low = 25 then (Octets.take? 2 rest).map fun (_, rest) => (float, rest)
      else if low = 26 then (Octets.take? 4 rest).map fun (_, rest) => (float, rest)
      else if low = 27 then (Octets.take? 8 rest).map fun (_, rest) => (float, rest)
      else (simple? low.toUInt64).map (·, rest)
    else
      match argument? low rest with
      | none => none
      | some (n, rest) =>
        if kind = Kind.unsigned.code then some (int n.toNat, rest)
        else if kind = Kind.negative.code then some (int (-1 - (n.toNat : Int)), rest)
        else if kind = Kind.bytes.code then
          (Octets.take? n.toNat rest).map fun (value, rest) => (bytes true value, rest)
        else if kind = Kind.text.code then
          match Octets.take? n.toNat rest with
          | none => none
          | some (value, rest) => (Utf8.decode? value).map fun value => (text true value, rest)
        else if kind = Kind.list.code then
          (items fuel n.toNat rest).map fun (items, rest) => (list items, rest)
        else if kind = Kind.map.code then
          (entries fuel n.toNat rest).map fun (entries, rest) => (map entries, rest)
        else (read fuel rest).map fun (item, rest) => (tag n item, rest)

/-- Reads the given number of items. -/
def items : (fuel : Nat) → (count : Nat) → Input → Option (List Item × Input)
  | 0, _, _ => none
  | _, 0, input => some ([], input)
  | fuel + 1, count + 1, input =>
    match read fuel input with
    | none => none
    | some (item, rest) => (items fuel count rest).map fun (more, rest) => (item :: more, rest)

/-- Reads the given number of entries. -/
def entries : (fuel : Nat) → (count : Nat) → Input → Option (List (Item × Item) × Input)
  | 0, _, _ => none
  | _, 0, input => some ([], input)
  | fuel + 1, count + 1, input =>
    match read fuel input with
    | none => none
    | some (name, rest) =>
      match read fuel rest with
      | none => none
      | some (item, rest) =>
        (entries fuel count rest).map fun (more, rest) => ((name, item) :: more, rest)

/-- Reads items up to a break. -/
def openItems : (fuel : Nat) → Input → Option (List Item × Input)
  | 0, _ => none
  | _, [] => none
  | fuel + 1, b :: rest =>
    if b = breakByte then some ([], rest)
    else
      match read fuel (b :: rest) with
      | none => none
      | some (item, rest) => (openItems fuel rest).map fun (more, rest) => (item :: more, rest)

/-- Reads entries up to a break. -/
def openEntries : (fuel : Nat) → Input → Option (List (Item × Item) × Input)
  | 0, _ => none
  | _, [] => none
  | fuel + 1, b :: rest =>
    if b = breakByte then some ([], rest)
    else
      match read fuel (b :: rest) with
      | none => none
      | some (name, rest) =>
        match read fuel rest with
        | none => none
        | some (item, rest) =>
          (openEntries fuel rest).map fun (more, rest) => ((name, item) :: more, rest)

end

/-- The item at the start of the input; what follows it does not matter. Every item but the
empty list takes a byte more than it nests, so twice the length of the input is fuel enough. -/
def ofBytes? (input : Input) : Option Item := (read (2 * input.length + 1) input).map Prod.fst

/-- The item behind its tags. -/
def untagged : Item → Item
  | tag _ item => untagged item
  | item => item

/-- The tag of positive integers given by their bytes. -/
def positiveTag : UInt64 := 2

/-- The tag of negative integers given by their bytes. -/
def negativeTag : UInt64 := 3

/-- The most bytes of such an integer, without leading zeros. -/
def maxIntegerSize : Nat := 16

/-- The number that bytes stand for, if it is not too large. -/
def magnitude? (bytes : List UInt8) : Option Nat :=
  let bytes := bytes.dropWhile (· = 0)
  if bytes.length ≤ maxIntegerSize then some (BigEndian.decode bytes) else none

/-- The integer that an item stands for. -/
def int? : Item → Option Int
  | int n => some n
  | tag t item =>
    if t = positiveTag ∨ t = negativeTag then
      match item with
      | bytes _ value => (magnitude? value).map fun n =>
          if t = positiveTag then (n : Int) else -1 - (n : Int)
      | _ => none
    else int? item
  | _ => none

/-- A negative integer given by so few bytes in one piece that it is taken for a number of 128
bits, which it exceeds. -/
def isTooLow : Item → Bool
  | tag t (bytes true value) =>
    t = negativeTag && value.length ≤ maxIntegerSize && 1 <<< 127 ≤ BigEndian.decode value
  | _ => false

mutual

/-- Whether an item can be passed over: no integer in it is too low. -/
def isPassable : Item → Bool
  | list items => arePassable items
  | map entries => entriesPassable entries
  | tag t item => !isTooLow (tag t item) && isPassable item
  | _ => true

def arePassable : List Item → Bool
  | [] => true
  | item :: rest => isPassable item && arePassable rest

def entriesPassable : List (Item × Item) → Bool
  | [] => true
  | (name, item) :: rest => isPassable name && isPassable item && entriesPassable rest

end

mutual

/-- How many items stand inside one another. -/
def depth : Item → Nat
  | list items => itemsDepth items + 1
  | map entries => entriesDepth entries + 1
  | tag _ item => depth item + 1
  | _ => 0

def itemsDepth : List Item → Nat
  | [] => 0
  | item :: rest => max (depth item) (itemsDepth rest)

def entriesDepth : List (Item × Item) → Nat
  | [] => 0
  | (name, item) :: rest => max (max (depth name) (depth item)) (entriesDepth rest)

end

end Item
end TraceLedger.Cbor
