/-! # Byte strings of a given length -/

namespace TraceLedger

/-- A byte string of length `n`. -/
abbrev Octets (n : Nat) := { bytes : List UInt8 // bytes.length = n }

/-- The byte string as one of length `n`. -/
def Octets.ofList? (n : Nat) (bytes : List UInt8) : Option (Octets n) :=
  if h : bytes.length = n then some ⟨bytes, h⟩ else none

/-- Takes the first `n` bytes off the input, if there are so many. -/
def Octets.take? (n : Nat) (input : List UInt8) : Option (List UInt8 × List UInt8) :=
  let bytes := input.take n
  if bytes.length = n then some (bytes, input.drop n) else none

end TraceLedger
