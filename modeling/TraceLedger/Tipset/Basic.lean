import TraceLedger.Cbor.Head
import TraceLedger.Error
import TraceLedger.Hash.Content
import TraceLedger.Record.Datum
import TraceLedger.Record.Source

/-! # Tipsets

A tipset is a set of blocks at one height. Its key lists the links of the blocks, and its own
identifier is a hash of the key. -/

namespace TraceLedger

/-- The links of a tipset's blocks, in order. -/
structure TipsetKey where
  cids : List Cid
deriving DecidableEq

namespace TipsetKey

instance : Inhabited TipsetKey := ⟨⟨[]⟩⟩

instance : Readable TipsetKey where
  read := do return ⟨← Source.links⟩

instance : Writable TipsetKey where
  datum key := .list (key.cids.map .link)

/-- What is hashed: the blocks' links one behind the other, as one CBOR byte string. -/
def preimage (key : TipsetKey) : List UInt8 :=
  let bytes := key.cids.flatMap Cid.toBytes
  Cbor.head .bytes (UInt64.ofNat bytes.length) ++ bytes

/-- The identifier of the tipset. A tipset without blocks has none. -/
def cid (key : TipsetKey) : Except Error Cid :=
  if key.cids.isEmpty then .error .emptyTipset
  else .ok (.ofContent Cid.dagCbor key.preimage)

end TipsetKey

/-- A block and the links of the messages in it. -/
structure Block where
  cid : Cid
  miner : Address
  messages : List Cid
deriving DecidableEq

namespace Block
open Source

instance : Readable Block where
  read := do
    let (cid, miner, messages, ()) ← record <|
      .cons "Cid" link none <|
      .cons "Miner" address none <|
      .cons "Messages" links (some []) .nil
    return { cid, miner, messages }

instance : Writable Block where
  datum block := .record [
    ("Cid", .link block.cid),
    ("Miner", .address block.miner),
    ("Messages", .list (block.messages.map .link))]

end Block

/-- A tipset with its blocks. -/
structure Tipset where
  key : TipsetKey
  height : Int64
  timestamp : UInt64
  parentKey : TipsetKey
  blocks : List Block
deriving DecidableEq

namespace Tipset
open Source

instance : Readable Tipset where
  read := do
    let (key, height, timestamp, parentKey, blocks, ()) ← record <|
      .cons "Key" Readable.read (some default) <|
      .cons "Height" i64 none <|
      .cons "Timestamp" u64 (some 0) <|
      .cons "ParentKey" Readable.read (some default) <|
      .cons "Blocks" (list Readable.read) (some []) .nil
    return { key, height, timestamp, parentKey, blocks }

instance : Writable Tipset where
  datum tipset := .record [
    ("Key", Writable.datum tipset.key),
    ("Height", .integer tipset.height),
    ("Timestamp", .word tipset.timestamp),
    ("ParentKey", Writable.datum tipset.parentKey),
    ("Blocks", .list (tipset.blocks.map Writable.datum))]

/-- The first block that includes a message. -/
def blockOf? (tipset : Tipset) (message : Cid) : Option Block :=
  tipset.blocks.find? fun block => block.messages.contains message

/-- The text of the tipset's identifier. -/
def cidText (tipset : Tipset) : Except Error String := tipset.key.cid.map Cid.toText

end Tipset
end TraceLedger
