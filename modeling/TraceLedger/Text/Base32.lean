import TraceLedger.Text.BitDigits

/-! # Base 32 text of bytes, without padding

Links and addresses are written in lower case. -/

namespace TraceLedger.Base32

/-- The lowercase symbol of a digit. -/
def symbol (n : Nat) : Char :=
  if n < 26 then Char.ofNat (97 + n) else Char.ofNat (24 + n)

/-- The digit of a lowercase symbol. -/
def value? (c : Char) : Option Nat :=
  if 'a' ≤ c ∧ c ≤ 'z' then some (c.toNat - 97)
  else if '2' ≤ c ∧ c ≤ '7' then some (c.toNat - 24)
  else none

def encode (bytes : List UInt8) : List Char := (BitDigits.encode 5 bytes).map symbol

def decode? (text : List Char) : Option (List UInt8) := do
  BitDigits.decode? 5 (← text.mapM value?)

end TraceLedger.Base32
