import TraceLedger.Error
import TraceLedger.Json.Reader
import TraceLedger.Record.Datum
import TraceLedger.Record.Source

/-! # Configuration -/

namespace TraceLedger

/-- How traces are turned into records. -/
structure Config where
  network : Network
  /-- Calls at this depth and below are not visited. -/
  maxDepth : UInt64
  /-- Whether the node is asked about the addresses in calls. -/
  resolveAddresses : Bool
deriving DecidableEq

namespace Config
open Source

/-- The depth to which calls can nest. -/
def maxCallDepth : UInt64 := 1024

/-- The configuration where nothing else is said. -/
def standard : Config := ⟨.mainnet, maxCallDepth, true⟩

/-- The names of networks in records. -/
def networkNames : List (String × Network) := [
  ("mainnet", .mainnet),
  ("calibration", .calibration),
  ("calibnet", .calibration),
  ("testnet", .calibration)]

instance : Readable Network where
  read := choice networkNames

instance : Readable Config where
  read := do
    let (network, maxDepth, resolveAddresses, ()) ← record <|
      .cons "network" Readable.read (some standard.network) <|
      .cons "max_depth" u64 (some standard.maxDepth) <|
      .cons "resolve_addresses" bool (some standard.resolveAddresses) .nil
    return { network, maxDepth, resolveAddresses }

instance : Writable Config where
  datum c := .record [
    ("network", .text c.network.name),
    ("max_depth", .word c.maxDepth),
    ("resolve_addresses", .bool c.resolveAddresses)]

/-- Refuses depths that no record can carry. -/
def validate (c : Config) : Except Error Unit :=
  if c.maxDepth = 0 then .error (.config .noDepth)
  else if depthLimit < c.maxDepth then .error (.config (.tooDeep c.maxDepth))
  else .ok ()

/-- Reads and validates a configuration. Missing fields have their standard values. -/
def ofText (text : String) : Except Error Config :=
  match (Json.Doc.ofText? text).bind Json.Doc.readText? with
  | none => .error (.config .malformed)
  | some (config : Config) =>
    match config.validate with
    | .error e => .error e
    | .ok () => .ok config

end Config
end TraceLedger
