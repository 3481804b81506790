import TraceLedger.Json.Reader
import TraceLedger.Record.Datum
import TraceLedger.Record.Source

/-! # Logs of Ethereum contracts -/

namespace TraceLedger

/-- A log that a contract emitted, in the form that nodes give it. -/
structure EthLog where
  address : String
  topics : List String
  data : String
  logIndex : String
  transactionHash : String
  removed : Bool
deriving DecidableEq

namespace EthLog
open Source

instance : Readable EthLog where
  read := do
    let (address, topics, data, logIndex, transactionHash, removed, ()) ← record <|
      .cons "address" text none <|
      .cons "topics" (list text) (some []) <|
      .cons "data" text (some "") <|
      .cons "logIndex" text (some "") <|
      .cons "transactionHash" text (some "") <|
      .cons "removed" bool (some false) .nil
    return { address, topics, data, logIndex, transactionHash, removed }

instance : Writable EthLog where
  datum log := .record [
    ("address", .text log.address),
    ("topics", .list (log.topics.map .text)),
    ("data", .text log.data),
    ("logIndex", .text log.logIndex),
    ("transactionHash", .text log.transactionHash),
    ("removed", .bool log.removed)]

end EthLog

/-- The logs of a tipset by the message that emitted them, each message once. -/
structure EthLogs where
  entries : List (String × List EthLog)
deriving DecidableEq

namespace EthLogs

def empty : EthLogs := ⟨[]⟩

/-- The logs of a message, in the order in which they were emitted. -/
def ofMessage (logs : EthLogs) (message : String) : List EthLog :=
  match logs.entries.find? (·.1 = message) with
  | some (_, logs) => logs
  | none => []

/-- Adds a log behind those of the same message. -/
def insert (logs : EthLogs) (message : String) (log : EthLog) : EthLogs :=
  if logs.entries.any (·.1 = message) then
    ⟨logs.entries.map fun entry => if entry.1 = message then (message, entry.2 ++ [log]) else entry⟩
  else ⟨logs.entries ++ [(message, [log])]⟩

def isEmpty (logs : EthLogs) : Bool := logs.entries.isEmpty

/-- Reads an object of lists. -/
def ofDoc? (doc : Json.Doc) : Option EthLogs :=
  ((Json.Reader.table (Source.list Readable.read) : Json.Reader _) (doc.depth + 1) doc).map
    EthLogs.mk

end EthLogs
end TraceLedger
