import TraceLedger.Text.Unprintable

/-! # Quoted text

Text between double quotes in a message. A quote, a backslash and whatever cannot be seen are
escaped. -/

namespace TraceLedger.Quoted

/-- The hexadecimal digits of a number, lower case and without leading zeros. -/
def hexDigits (n : Nat) : List Char := Nat.toDigits 16 n

/-- How one character is shown. -/
def escape (c : Char) : List Char :=
  if c = '"' then ['\\', '"']
  else if c = '\\' then ['\\', '\\']
  else if c = '\n' then ['\\', 'n']
  else if c = '\r' then ['\\', 'r']
  else if c = '\t' then ['\\', 't']
  else if c = '\x00' then ['\\', '0']
  else if Unprintable.isUnprintable c then ['\\', 'u', '\x7b'] ++ hexDigits c.toNat ++ ['\x7d']
  else [c]

/-- The text between quotes. -/
def quote (text : List Char) : String := String.ofList ('"' :: text.flatMap escape ++ ['"'])

end TraceLedger.Quoted
