import TraceLedger.Wire.Varint
import TraceLedger.Wire.Octets
import TraceLedger.Text.Multibase

/-! # Content identifiers

A link names content by a hash of it. Version 0 is a bare SHA2-256 digest; version 1 also says
how the content is encoded and which hash was used. -/

namespace TraceLedger

/-- A digest of at most 64 bytes with the code of its hash function. -/
structure Multihash where
  code : UInt64
  digest : List UInt8
  length_le : digest.length ≤ 64
deriving DecidableEq

/-- A content identifier. -/
inductive Cid where
  | v0 (digest : Octets 32)
  | v1 (codec : UInt64) (hash : Multihash)
deriving DecidableEq

namespace Cid

/-- Code of raw bytes. -/
def raw : UInt64 := 0x55

/-- Code of DAG-CBOR. -/
def dagCbor : UInt64 := 0x71

/-- Code of the 256-bit Blake2b hash. -/
def blake2b256 : UInt64 := 0xb220

/-- Code of the hash that keeps its input. -/
def identity : UInt64 := 0

/-- Code of SHA2-256, the hash of version 0. -/
def sha256 : UInt64 := 0x12

/-- The code of the hash function. -/
def hashCode : Cid → UInt64
  | v0 _ => sha256
  | v1 _ hash => hash.code

def digest : Cid → List UInt8
  | v0 digest => digest.1
  | v1 _ hash => hash.digest

/-- The binary form. -/
def toBytes : Cid → List UInt8
  | v0 digest => 0x12 :: 0x20 :: digest.1
  | v1 codec hash =>
    1 :: (Varint.encode codec ++ Varint.encode hash.code ++
      UInt8.ofNat hash.digest.length :: hash.digest)

/-- Reads a digest behind its code and its length. -/
def readHash (bytes : List UInt8) : Option (Multihash × List UInt8) := do
  let (code, bytes) ← Varint.read bytes
  let (size, bytes) ← Varint.read bytes
  if h : size.toNat ≤ 64 ∧ size.toNat ≤ bytes.length then
    some (⟨code, bytes.take size.toNat, by simp; omega⟩, bytes.drop size.toNat)
  else none

/-- Reads the binary form. The bytes `12 20` start a version 0. -/
def read (bytes : List UInt8) : Option (Cid × List UInt8) := do
  let (version, rest) ← Varint.read bytes
  let (codec, rest) ← Varint.read rest
  if version = 0x12 ∧ codec = 0x20 then
    if h : 32 ≤ rest.length then some (v0 ⟨rest.take 32, by simp; omega⟩, rest.drop 32)
    else none
  else if version = 1 then
    let (hash, rest) ← readHash rest
    some (v1 codec hash, rest)
  else none

/-- The identifier at the start of `bytes`; what follows it does not matter. -/
def ofBytes? (bytes : List UInt8) : Option Cid := (read bytes).map Prod.fst

/-- Version 0 is written in base 58, version 1 in base 32 behind its letter. -/
def toText (c : Cid) : String :=
  match c with
  | v0 _ => String.ofList (Positional.encode Positional.base58 c.toBytes)
  | v1 _ _ => String.ofList ('b' :: Base32.encode c.toBytes)

/-- What stands behind the first `/ipfs/`, or the whole text. -/
def stripPath (text : List Char) : List Char := go text text
where
  go (whole : List Char) : List Char → List Char
    | '/' :: 'i' :: 'p' :: 'f' :: 's' :: '/' :: rest => rest
    | _ :: rest => go whole rest
    | [] => whole

/-- Reads the text form. A text of 46 symbols that starts with `Qm` is a version 0. -/
def ofText? (text : String) : Option Cid :=
  let text := stripPath text.toList
  if (String.ofList text).utf8ByteSize < 2 then none
  else if (String.ofList text).utf8ByteSize = 46 ∧ text.take 2 = ['Q', 'm'] then
    (Positional.decode? Positional.base58 text).bind ofBytes?
  else (Multibase.decode? text).bind ofBytes?

end Cid
end TraceLedger
