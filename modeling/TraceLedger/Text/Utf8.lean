/-! # Text as bytes -/

namespace TraceLedger.Utf8

def encode (text : String) : List UInt8 := text.toByteArray.data.toList

/-- The text that the bytes encode, if they are well formed. -/
def decode? (bytes : List UInt8) : Option String := String.fromUTF8? ⟨bytes.toArray⟩

theorem decode?_encode (text : String) : decode? (encode text) = some text := by
  simp [decode?, encode, String.fromUTF8?, text.isValidUTF8, String.fromUTF8]

end TraceLedger.Utf8
