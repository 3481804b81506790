import TraceLedger.Record.Datum
import TraceLedger.Record.Source

/-! # What is known of an address -/

namespace TraceLedger

/-- Everything known of an address that was seen. What could not be resolved is empty. -/
structure AddressInfo where
  /-- The actor's number as an address. -/
  short : String
  /-- The form that does not depend on the number. -/
  robust : String
  actorCode : String
  actorType : String
  ethAddress : Option String
  /-- The message in which the actor was created, if that was seen. -/
  creationTxHash : Option String
deriving DecidableEq

namespace AddressInfo
open Source

def empty : AddressInfo := ⟨"", "", "", "", none, none⟩

instance : Readable AddressInfo where
  read := do
    let (short, robust, actorCode, actorType, ethAddress, creationTxHash, ()) ← record <|
      .cons "short" text none <|
      .cons "robust" text none <|
      .cons "actor_code" text none <|
      .cons "actor_type" text none <|
      .cons "eth_address" (optional text) (some none) <|
      .cons "creation_tx_hash" (optional text) (some none) .nil
    return { short, robust, actorCode, actorType, ethAddress, creationTxHash }

instance : Writable AddressInfo where
  datum info := .record <| [
    ("short", .text info.short),
    ("robust", .text info.robust),
    ("actor_code", .text info.actorCode),
    ("actor_type", .text info.actorType)] ++
    Datum.field? "eth_address" .text info.ethAddress ++
    Datum.field? "creation_tx_hash" .text info.creationTxHash

/-- A text, or another one where it is empty. -/
def orText (text other : String) : String := if text.isEmpty then other else text

/-- Takes from another record what this one lacks. -/
def fillFrom (info other : AddressInfo) : AddressInfo where
  short := orText info.short other.short
  robust := orText info.robust other.robust
  actorCode := orText info.actorCode other.actorCode
  actorType := orText info.actorType other.actorType
  ethAddress := info.ethAddress <|> other.ethAddress
  creationTxHash := info.creationTxHash <|> other.creationTxHash

/-- What a record is filed under. -/
def key (info : AddressInfo) : String := orText info.short info.robust

end AddressInfo
end TraceLedger
