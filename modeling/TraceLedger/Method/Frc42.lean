import TraceLedger.Error
import TraceLedger.Hash.Blake2b
import TraceLedger.Text.Utf8
import TraceLedger.Wire.BigEndian

/-! # Numbers of exported methods

Methods that any actor may call have a number that is derived from their name by a hash. Small
numbers are kept free for methods that are numbered by hand. -/

namespace TraceLedger.Frc42

/-- Whether a character may stand in a name. -/
def isNameChar (c : Char) : Bool := c.isAlphanum || c = '_'

/-- Whether a name is acceptable: it starts with a capital letter or an underscore. -/
def isName : List Char → Bool
  | [] => false
  | c :: rest => (c.isUpper || c = '_') && rest.all isNameChar

/-- The least number that a hash may give. -/
def firstNumber : Nat := 0x1000000

/-- The first of `count` words of four bytes that is large enough. -/
def firstLarge : (count : Nat) → List UInt8 → Option UInt64
  | 0, _ => none
  | count + 1, digest =>
    let n := BigEndian.decode (digest.take 4)
    if firstNumber ≤ n then some (UInt64.ofNat n) else firstLarge count (digest.drop 4)

/-- The digest that a name's number is taken from. -/
def digest (name : String) : List UInt8 := Blake2b.hash 64 (Utf8.encode ("1|" ++ name))

/-- The number of a constructor. -/
def constructorNumber : UInt64 := 1

/-- The number of a method by its name. -/
def number? (name : String) : Option UInt64 :=
  if isName name.toList then
    if name = "Constructor" then some constructorNumber else firstLarge 16 (digest name)
  else none

/-- The number of a method by its name, or why there is none. -/
def number (name : String) : Except Error UInt64 :=
  match number? name with
  | some n => .ok n
  | none => .error (.config (.methodName name))

end TraceLedger.Frc42
