import TraceLedger.Json.Numeral
import TraceLedger.Json.Basic
import TraceLedger.Text.Utf8

/-! # JSON documents

The syntax tree of a text: numerals are kept by their digits, repeated fields are kept, and a
text that is not well-formed UTF-8 is kept as unknown, so that a reader that has no use for a
part of a document need not refuse it. -/

namespace TraceLedger.Json

/-- The syntax tree of a JSON text. -/
inductive Doc where
  | null
  | bool (value : Bool)
  | number (numeral : Numeral)
  /-- A text; none if its bytes are not UTF-8. -/
  | text (value : Option String)
  | list (items : List Doc)
  | object (fields : List (Option String × Doc))

namespace Doc

/-- The bytes still to be read. -/
abbrev Input := List UInt8

/-- Space, tab, line feed and carriage return. -/
def isSpace (b : UInt8) : Bool := b = 0x20 || b = 0x09 || b = 0x0a || b = 0x0d

def skipSpace (input : Input) : Input := input.dropWhile isSpace

def isDigit (b : UInt8) : Bool := 0x30 ≤ b && b ≤ 0x39

/-- Takes off a fixed word. -/
def expect (word : List UInt8) (input : Input) : Option Input :=
  if input.take word.length = word then some (input.drop word.length) else none

/-- The digits at the start. -/
def digits (input : Input) : List Nat × Input :=
  ((input.takeWhile isDigit).map fun b => b.toNat - 0x30, input.dropWhile isDigit)

/-- Digits of which there must be one. -/
def someDigits (input : Input) : Option (List Nat × Input) :=
  match digits input with
  | ([], _) => none
  | result => some result

/-- The digits behind a point, if there is one. -/
def fraction : Input → Option (List Nat × Input)
  | 0x2e :: rest => someDigits rest
  | input => some ([], input)

/-- The sign of an exponent. -/
def exponentSign : Input → Bool × Input
  | 0x2b :: rest => (false, rest)
  | 0x2d :: rest => (true, rest)
  | input => (false, input)

/-- The exponent, if there is one. -/
def exponent : Input → Option (Option (Bool × List Nat) × Input)
  | b :: rest =>
    if b = 0x65 ∨ b = 0x45 then do
      let (negative, rest) := exponentSign rest
      let (digits, rest) ← someDigits rest
      return (some (negative, digits), rest)
    else some (none, b :: rest)
  | [] => some (none, [])

/-- The digits before the point: a single zero, or digits that do not start with one. -/
def whole (input : Input) : Option (List Nat × Input) :=
  match someDigits input with
  | some (0 :: _ :: _, _) => none
  | result => result

/-- Reads a numeral behind its sign. -/
def numeral (negative : Bool) (input : Input) : Option (Numeral × Input) := do
  let (whole, rest) ← whole input
  let (fraction, rest) ← fraction rest
  let (exponent, rest) ← exponent rest
  return (⟨negative, whole, fraction, exponent⟩, rest)

/-- The value of four hexadecimal digits. -/
def hex4 : Input → Option (Nat × Input)
  | a :: b :: c :: d :: rest => do
    let digits ← [a, b, c, d].mapM fun b => Hex.value? (Char.ofNat b.toNat)
    return (digits.foldl (fun n d => 16 * n + d) 0, rest)
  | _ => none

/-- The bytes of one character. -/
def charBytes (code : Nat) : List UInt8 := Utf8.encode (String.singleton (Char.ofNat code))

/-- The bytes of half a surrogate pair, which are part of no text. -/
def halfBytes (code : Nat) : List UInt8 :=
  [UInt8.ofNat (0xe0 + code / 4096), UInt8.ofNat (0x80 + code / 64 % 64),
    UInt8.ofNat (0x80 + code % 64)]

/-- The second half of a surrogate pair, if one is escaped here. -/
def secondHalf (input : Input) : Option (Nat × Input) := do
  let (code, rest) ← hex4 (← expect [0x5c, 0x75] input)
  if 0xdc00 ≤ code ∧ code ≤ 0xdfff then some (code, rest) else none

/-- The bytes of the character that `\u` and its digits stand for. Half of a surrogate pair
without the other half is no character, and makes what it stands in no text. -/
def unicodeEscape (input : Input) : Option (List UInt8 × Input) := do
  let (code, rest) ← hex4 input
  if 0xdc00 ≤ code ∧ code ≤ 0xdfff then some (halfBytes code, rest)
  else if 0xd800 ≤ code ∧ code ≤ 0xdbff then
    match secondHalf rest with
    | some (second, rest) =>
      some (charBytes (0x10000 + 0x400 * (code - 0xd800) + (second - 0xdc00)), rest)
    | none => some (halfBytes code, rest)
  else some (charBytes code, rest)

/-- The bytes that an escape stands for, behind the backslash. -/
def escape : Input → Option (List UInt8 × Input)
  | [] => none
  | b :: rest =>
    if b = 0x22 ∨ b = 0x5c ∨ b = 0x2f then some ([b], rest)
    else if b = 0x62 then some ([0x08], rest)
    else if b = 0x66 then some ([0x0c], rest)
    else if b = 0x6e then some ([0x0a], rest)
    else if b = 0x72 then some ([0x0d], rest)
    else if b = 0x74 then some ([0x09], rest)
    else if b = 0x75 then unicodeEscape rest
    else none

/-- The bytes of a text up to its closing quote, with the escapes replaced. Control characters
must be escaped. `done` holds the bytes so far, last first. -/
def textBytes : (fuel : Nat) → (done : List UInt8) → Input → Option (List UInt8 × Input)
  | 0, _, _ => none
  | _, _, [] => none
  | fuel + 1, done, b :: rest =>
    if b = 0x22 then some (done.reverse, rest)
    else if b = 0x5c then
      match escape rest with
      | some (bytes, rest) => textBytes fuel (bytes.reverse ++ done) rest
      | none => none
    else if b < 0x20 then none
    else textBytes fuel (b :: done) rest

/-- Reads a text behind its opening quote. -/
def string (fuel : Nat) (input : Input) : Option (Option String × Input) := do
  let (bytes, rest) ← textBytes fuel [] input
  return (Utf8.decode? bytes, rest)

mutual

/-- Reads one value; space may stand before it. -/
def value : (fuel : Nat) → Input → Option (Doc × Input)
  | 0, _ => none
  | fuel + 1, input =>
    match skipSpace input with
    | [] => none
    | b :: rest =>
      if b = 0x7b then
        match skipSpace rest with
        | 0x7d :: rest => some (object [], rest)
        | rest => (fields fuel rest).map fun (fields, rest) => (object fields, rest)
      else if b = 0x5b then
        match skipSpace rest with
        | 0x5d :: rest => some (list [], rest)
        | rest => (items fuel rest).map fun (items, rest) => (list items, rest)
      else if b = 0x22 then (string fuel rest).map fun (value, rest) => (text value, rest)
      else if b = 0x2d then (numeral true rest).map fun (n, rest) => (number n, rest)
      else if isDigit b then (numeral false (b :: rest)).map fun (n, rest) => (number n, rest)
      else if b = 0x6e then (expect [0x75, 0x6c, 0x6c] rest).map (null, ·)
      else if b = 0x74 then (expect [0x72, 0x75, 0x65] rest).map (bool true, ·)
      else if b = 0x66 then (expect [0x61, 0x6c, 0x73, 0x65] rest).map (bool false, ·)
      else none

/-- Reads the items of a list up to its end. -/
def items : (fuel : Nat) → Input → Option (List Doc × Input)
  | 0, _ => none
  | fuel + 1, input => do
    let (item, rest) ← value fuel input
    match skipSpace rest with
    | 0x2c :: rest =>
      let (more, rest) ← items fuel rest
      return (item :: more, rest)
    | 0x5d :: rest => return ([item], rest)
    | _ => none

/-- Reads the fields of an object up to its end. -/
def fields : (fuel : Nat) → Input → Option (List (Option String × Doc) × Input)
  | 0, _ => none
  | fuel + 1, input => do
    let rest ← expect [0x22] (skipSpace input)
    let (name, rest) ← string fuel rest
    let rest ← expect [0x3a] (skipSpace rest)
    let (item, rest) ← value fuel rest
    match skipSpace rest with
    | 0x2c :: rest =>
      let (more, rest) ← fields fuel rest
      return ((name, item) :: more, rest)
    | 0x7d :: rest => return ([(name, item)], rest)
    | _ => none

end

/-- Reads a text that holds one value and nothing else but space. No byte is looked at in more
than two steps, so that twice their number is fuel enough. -/
def ofBytes? (bytes : List UInt8) : Option Doc :=
  match value (2 * bytes.length + 2) bytes with
  | some (doc, rest) => if (skipSpace rest).isEmpty then some doc else none
  | none => none

def ofText? (text : String) : Option Doc := ofBytes? (Utf8.encode text)

mutual

/-- How many lists and objects stand inside one another. -/
def depth : Doc → Nat
  | list items => itemsDepth items + 1
  | object fields => fieldsDepth fields + 1
  | _ => 0

def itemsDepth : List Doc → Nat
  | [] => 0
  | item :: rest => max (depth item) (itemsDepth rest)

def fieldsDepth : List (Option String × Doc) → Nat
  | [] => 0
  | (_, item) :: rest => max (depth item) (fieldsDepth rest)

end

mutual

/-- The value of a document. Of repeated fields the last one counts, at the place of the
first. -/
def toJson? : Doc → Option Json
  | null => some .null
  | bool value => some (.bool value)
  | number numeral =>
    match numeral.toInt? with
    | some n => some (.int n)
    | none => numeral.toBinary64?.map .float
  | text value => value.map .text
  | list items => (itemsToJson? items).map .list
  | object fields => (fieldsToJson? [] fields).map .object

def itemsToJson? : List Doc → Option (List Json)
  | [] => some []
  | item :: rest => do
    let item ← toJson? item
    let rest ← itemsToJson? rest
    return item :: rest

/-- Adds fields to those that were read before them. -/
def fieldsToJson? (done : Json.Members) : List (Option String × Doc) → Option Json.Members
  | [] => some done
  | (name, item) :: rest => do
    let name ← name
    let item ← toJson? item
    fieldsToJson? (done.insert name item) rest

end

/-- Lists and objects that a text may nest where its size is not bounded otherwise. -/
def maxDepth : Nat := 127

end Doc

/-- The value of a text, if it does not nest too deep. -/
def ofText? (text : String) : Option Json :=
  match Doc.ofText? text with
  | some doc => if doc.depth ≤ Doc.maxDepth then doc.toJson? else none
  | none => none

end TraceLedger.Json
