import TraceLedger.ExitStatus
import TraceLedger.Json.Doc
import TraceLedger.Record.Datum
import TraceLedger.Record.Source

/-! # Transactions

One flat record per call, and one per fee that was paid. -/

namespace TraceLedger

/-- A record of one call or of one fee. -/
structure Transaction where
  id : String
  /-- The record of the caller, or the tipset. -/
  parentId : String
  /-- How deep the call is below its message. Fees are at level 0. -/
  level : UInt16
  height : Int64
  timestamp : UInt64
  tipsetCid : String
  blockCid : String
  /-- The message that the record belongs to. -/
  txHash : String
  sender : String
  receiver : String
  amount : String
  gasUsed : Int64
  status : String
  /-- The method's name, or that of fees. -/
  txType : String
  /-- The text of a JSON object. -/
  metadata : String
deriving DecidableEq

namespace Transaction
open Source

instance : Readable Transaction where
  read := do
    let (id, parentId, level, height, timestamp, tipsetCid, blockCid, txHash, sender, receiver,
        amount, gasUsed, status, txType, metadata, ()) ← record <|
      .cons "id" text none <|
      .cons "parent_id" text none <|
      .cons "level" u16 none <|
      .cons "height" i64 none <|
      .cons "timestamp" u64 none <|
      .cons "tipset_cid" text none <|
      .cons "block_cid" text none <|
      .cons "tx_hash" text none <|
      .cons "from" text none <|
      .cons "to" text none <|
      .cons "amount" text none <|
      .cons "gas_used" i64 none <|
      .cons "status" text none <|
      .cons "tx_type" text none <|
      .cons "metadata" text none .nil
    return { id, parentId, level, height, timestamp, tipsetCid, blockCid, txHash, sender, receiver,
             amount, gasUsed, status, txType, metadata }

instance : Writable Transaction where
  datum t := .record [
    ("id", .text t.id),
    ("parent_id", .text t.parentId),
    ("level", .word t.level.toUInt64),
    ("height", .integer t.height),
    ("timestamp", .word t.timestamp),
    ("tipset_cid", .text t.tipsetCid),
    ("block_cid", .text t.blockCid),
    ("tx_hash", .text t.txHash),
    ("from", .text t.sender),
    ("to", .text t.receiver),
    ("amount", .text t.amount),
    ("gas_used", .integer t.gasUsed),
    ("status", .text t.status),
    ("tx_type", .text t.txType),
    ("metadata", .text t.metadata)]

/-- The type of fee records. -/
def feeType : String := "Fee"

def isSuccess (t : Transaction) : Bool := t.status = ExitStatus.ok

def isFee (t : Transaction) : Bool := t.txType = feeType

/-- The fields of the metadata, if it is a JSON object. -/
def metadataFields? (t : Transaction) : Option Json.Members :=
  match Json.ofText? t.metadata with
  | some (.object fields) => some fields
  | _ => none

end Transaction
end TraceLedger
