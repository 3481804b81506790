import TraceLedger.Wire.BigEndian

/-! # Signed big integers

As bytes, an integer is a sign byte and its magnitude, highest byte first; zero is the empty
string. As text, it is a decimal with a sign. -/

namespace TraceLedger.SignedMagnitude

/-- The most bytes that an integer may take, the sign included. -/
def maxSize : Nat := 128

/-- Sign and magnitude, however long. -/
def bytesOf : Int → List UInt8
  | .ofNat 0 => []
  | .ofNat n => 0 :: BigEndian.encode n
  | .negSucc n => 1 :: BigEndian.encode (n + 1)

/-- The written form, unless it is too long. -/
def encode? (n : Int) : Option (List UInt8) :=
  let bytes := bytesOf n
  if bytes.length ≤ maxSize then some bytes else none

/-- Reads the bytes. Leading zeros and a sign alone are allowed. -/
def decode? (bytes : List UInt8) : Option Int :=
  if bytes.length ≤ maxSize then
    match bytes with
    | [] => some 0
    | sign :: magnitude =>
      if sign = 0 then some (BigEndian.decode magnitude : Int)
      else if sign = 1 then some (-(BigEndian.decode magnitude : Int))
      else none
  else none

/-- Reads digits, between and after which underscores may stand. -/
def digits? : List Char → Option Nat
  | [] => none
  | '_' :: _ => none
  | text => text.foldlM (fun n c =>
      if c = '_' then some n
      else if c.isDigit then some (10 * n + (c.toNat - 48))
      else none) 0

/-- Drops one plus sign, unless a second one follows it. -/
def dropPlus : List Char → List Char
  | '+' :: '+' :: rest => '+' :: '+' :: rest
  | '+' :: rest => rest
  | text => text

/-- Reads a decimal, with at most one sign before it. -/
def ofText? (text : String) : Option Int :=
  match text.toList with
  | '-' :: rest => (digits? rest).map fun n => -(n : Int)
  | text => (digits? (dropPlus text)).map fun n => (n : Int)

end TraceLedger.SignedMagnitude
