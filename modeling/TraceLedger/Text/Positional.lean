import TraceLedger.Wire.BigEndian

/-! # Positional text of bytes

Base 36 and base 58 read a byte string as one number. Zero bytes in front, which the number
does not show, are written as zero digits. -/

namespace TraceLedger.Positional

/-- The symbols of a base, in the order of their values. -/
abbrev Alphabet := List Char

def base58 : Alphabet := "123456789ABCDEFGHJKLMNPQRSTUVWXYZabcdefghijkmnopqrstuvwxyz".toList

def base36 : Alphabet := "0123456789abcdefghijklmnopqrstuvwxyz".toList

/-- The number with the given digits, highest first. -/
def number (base : Nat) (digits : List Nat) : Nat := digits.foldl (fun n d => base * n + d) 0

/-- The digits of a number in front of `rest`, highest first; zero has none. -/
def digits (base n : Nat) (rest : List Nat) : List Nat :=
  if _h : 1 < base ∧ 0 < n then digits base (n / base) (n % base :: rest) else rest
termination_by n
decreasing_by exact Nat.div_lt_self _h.2 _h.1

def encode (alphabet : Alphabet) (bytes : List UInt8) : List Char :=
  let zeros := (bytes.takeWhile (· = 0)).length
  let digits := List.replicate zeros 0 ++ digits alphabet.length (BigEndian.decode bytes) []
  digits.filterMap (alphabet[·]?)

def decode? (alphabet : Alphabet) (text : List Char) : Option (List UInt8) := do
  let digits ← text.mapM (alphabet.idxOf? ·)
  let zeros := (digits.takeWhile (· = 0)).length
  return List.replicate zeros 0 ++ BigEndian.encode (number alphabet.length digits)

end TraceLedger.Positional
