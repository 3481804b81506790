/-! # Big-endian numbers -/

namespace TraceLedger.BigEndian

/-- The number with the given bytes, highest first. -/
def decode (bytes : List UInt8) : Nat := bytes.foldl (fun n b => 256 * n + b.toNat) 0

/-- The lowest `width` bytes of a number, highest first. -/
def fixed : (width : Nat) → Nat → List UInt8
  | 0, _ => []
  | width + 1, n => fixed width (n / 256) ++ [UInt8.ofNat (n % 256)]

/-- Number of bytes that a number needs; zero needs none. -/
def width (n : Nat) : Nat := if n = 0 then 0 else n.log2 / 8 + 1

/-- The bytes of a number without leading zeros. -/
def encode (n : Nat) : List UInt8 := fixed (width n) n

end TraceLedger.BigEndian
