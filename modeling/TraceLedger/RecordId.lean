import TraceLedger.Hash.Blake2b
import TraceLedger.Text.Hex
import TraceLedger.Text.Utf8
import TraceLedger.Wire.BigEndian

/-! # Identifiers of records

An identifier is a hash of the parts that tell a record apart. The length of each part is hashed
with it, so that parts cannot run into one another. -/

namespace TraceLedger.RecordId

/-- A part behind its length. -/
def encodePart (part : String) : List UInt8 :=
  let bytes := Utf8.encode part
  BigEndian.fixed 8 bytes.length ++ bytes

/-- What is hashed. -/
def preimage (parts : List String) : List UInt8 := parts.flatMap encodePart

/-- The identifier of a record with the given parts. -/
def ofParts (parts : List String) : String := Hex.encode (Blake2b.hash 32 (preimage parts))

end TraceLedger.RecordId
