import TraceLedger.Cid
import TraceLedger.Hash.Blake2b

/-! # Links by content -/

namespace TraceLedger

/-- The 256-bit Blake2b hash of some bytes. -/
def Multihash.blake2b256 (bytes : List UInt8) : Multihash where
  code := Cid.blake2b256
  digest := Blake2b.hash 32 bytes
  length_le := by
    unfold Blake2b.hash
    exact Nat.le_trans (List.length_take_le _ _) (by decide)

/-- The link to bytes that are encoded in a given way. -/
def Cid.ofContent (codec : UInt64) (bytes : List UInt8) : Cid := .v1 codec (.blake2b256 bytes)

end TraceLedger
