import TraceLedger.Text.BitDigits

/-! # Base 64 text of bytes

The writer pads to whole groups of four. The reader takes missing and short padding too, but no
more padding than the group needs. -/

namespace TraceLedger.Base64

/-- The symbol of a digit. -/
def symbol (n : Nat) : Char :=
  if n < 26 then Char.ofNat (65 + n)
  else if n < 52 then Char.ofNat (71 + n)
  else if n < 62 then Char.ofNat (n - 4)
  else if n = 62 then '+' else '/'

/-- The digit of a symbol. -/
def value? (c : Char) : Option Nat :=
  if 'A' ≤ c ∧ c ≤ 'Z' then some (c.toNat - 65)
  else if 'a' ≤ c ∧ c ≤ 'z' then some (c.toNat - 71)
  else if '0' ≤ c ∧ c ≤ '9' then some (c.toNat + 4)
  else if c = '+' then some 62
  else if c = '/' then some 63
  else none

/-- Digits, then padding up to a multiple of four symbols. -/
def encode (bytes : List UInt8) : String :=
  let symbols := (BitDigits.encode 6 bytes).map symbol
  String.ofList (symbols ++ List.replicate ((4 - symbols.length % 4) % 4) '=')

/-- The most padding that may follow `count` digits. -/
def paddingRoom (count : Nat) : Nat := (4 - count % 4) % 4

/-- Reads digits, then at most as much padding as fills the last group of four. -/
def decode? (text : String) : Option (List UInt8) := do
  let symbols := text.toList.takeWhile (· ≠ '=')
  let padding := text.toList.dropWhile (· ≠ '=')
  let digits ← symbols.mapM value?
  if padding.all (· = '=') ∧ padding.length ≤ paddingRoom digits.length then
    BitDigits.decode? 6 digits
  else none

end TraceLedger.Base64
