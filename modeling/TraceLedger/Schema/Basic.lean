import TraceLedger.Address.Text
import TraceLedger.Cbor.Typed
import TraceLedger.Json.Basic
import TraceLedger.Text.Base64

/-! # Schemas of parameters and results

A schema says what an actor writes as parameters or result of a method, and how it is shown.
Records are lists without the names of their fields. -/

namespace TraceLedger

/-- What is written, and how it is shown. -/
inductive Schema where
  | address
  /-- A big integer, shown in decimal. -/
  | amount
  | word
  | exitCode
  | integer
  | bool
  | text
  | link
  /-- Bytes in base 64. -/
  | base64
  /-- Bytes in base 64; no bytes are null. -/
  | payload
  /-- Bytes in hexadecimal. -/
  | hex
  /-- So many bytes, in hexadecimal. -/
  | hexOf (size : Nat)
  /-- Null, or a value. -/
  | optional (schema : Schema)
  | list (schema : Schema)
  /-- The fields of a record in order. -/
  | tuple (fields : List (String × Schema))
  /-- A value that is shown as the only field of a record. -/
  | named (name : String) (schema : Schema)
  /-- A big integer, bare or as the only item of a list. -/
  | looseAmount
  /-- Byte strings, in any of their layouts. -/
  | multiaddrs
  /-- What was allocated, then what was claimed of it. -/
  | claims

namespace Schema

open Cbor

/-- Bytes as text. -/
def hexText (bytes : List UInt8) : Json := .text ("0x" ++ Hex.encode bytes)

def base64Text (bytes : List UInt8) : Json := .text (Base64.encode bytes)

def amountText (n : Int) : Json := .text (toString n)

/-! ## Values with several layouts -/

/-- A big integer in a byte string. -/
def scalar? : Ipld → Option Int
  | .bytes value => SignedMagnitude.decode? value
  | _ => none

/-- A big integer, bare or as the only item of a list. -/
def looseAmount? : Ipld → Option Int
  | .list [item] => scalar? item
  | item => scalar? item

def bytes? : Ipld → Option (List UInt8)
  | .bytes value => some value
  | _ => none

/-- Byte strings: a single one, a list of them, or a list that holds only such a list. -/
def multiaddrs? : Ipld → Option (List (List UInt8))
  | .bytes value => some [value]
  | .list [.list items] => items.mapM bytes?
  | .list items => items.mapM bytes?
  | _ => none

/-- What was claimed: a total, or an amount for each group of sectors. -/
inductive Claimed where
  | total (space : Int)
  | sectors (spaces : List Int)
deriving DecidableEq

def claimed? : Ipld → Option Claimed
  | .list items => (items.mapM looseAmount?).map .sectors
  | item => (scalar? item).map .total

/-- The space claimed in all. -/
def Claimed.space : Claimed → Int
  | total space => space
  | sectors spaces => spaces.foldl (· + ·) 0

/-- The amounts of the groups. -/
def Claimed.groups : Claimed → List Int
  | total _ => []
  | sectors spaces => spaces

/-- Shows a result of claims with the batch that it is about. -/
def showClaims (batch : Ipld) (claimed : Claimed) : Json :=
  .object [
    ("BatchInfo", batch.toJson),
    ("ClaimedSpace", amountText claimed.space),
    ("SectorClaims", .list (claimed.groups.map amountText))]

/-! ## Reading -/

/-- Reads an item without a schema and takes a value from it. -/
def loosely (take : Ipld → Option α) : Dag.Reader α := do
  match take (← Dag.ipld) with
  | some a => return a
  | none => .refuse

/-- A list of exactly `size` values. -/
def tupleOf (size : Nat) (r : Dag.Reader α) : Dag.Reader α := Dag.step do
  if (← Dag.argument .list).toNat = size then r else .refuse

/-- Bytes of a fixed length. -/
def octets (size : Nat) : Dag.Reader (List UInt8) := do
  let bytes ← Dag.bytes
  if bytes.length = size then return bytes else .refuse

mutual

/-- Reads a value and shows it. -/
def read (network : Network) : Schema → Dag.Reader Json
  | address => do return .text ((← Dag.address).toText network)
  | amount => do return amountText (← Dag.amount)
  | word => do return .nat (← Dag.u64).toNat
  | exitCode => do return .nat (← Dag.u32).toNat
  | integer => do return .int (← Dag.i64).toInt
  | bool => do return .bool (← Dag.bool)
  | text => do return .text (← Dag.text)
  | link => do return .text (← Dag.link).toText
  | base64 => do return base64Text (← Dag.bytes)
  | payload => do
    let bytes ← Dag.bytes
    return if bytes.isEmpty then .null else base64Text bytes
  | hex => do return hexText (← Dag.bytes)
  | hexOf size => do return hexText (← octets size)
  | optional schema => do return (← Dag.optional (read network schema)).getD .null
  | list schema => do return .list (← Dag.list (read network schema))
  | tuple fields => do return .object (← tupleOf fields.length (readFields network fields))
  | named name schema => do return .object [(name, ← read network schema)]
  | looseAmount => do return amountText (← loosely looseAmount?)
  | multiaddrs => do return .list ((← loosely multiaddrs?).map base64Text)
  | claims => tupleOf 2 do
    let batch ← Dag.ipld
    let claimed ← loosely claimed?
    return showClaims batch claimed

/-- Reads the fields of a record in order. -/
def readFields (network : Network) : List (String × Schema) → Dag.Reader (List (String × Json))
  | [] => return []
  | (name, schema) :: rest => do
    let value ← read network schema
    let rest ← readFields network rest
    return (name, value) :: rest

end

/-- Reads bytes that hold one value and nothing else. -/
def ofBytes? (network : Network) (schema : Schema) (bytes : List UInt8) : Option Json :=
  Dag.run (schema.read network) bytes

end Schema

/-- How one side of a call is shown. -/
inductive SideSchema where
  /-- As whatever it holds. -/
  | plain
  | typed (schema : Schema)
  /-- The input or output of a contract: one byte string, or else the bytes as they are. -/
  | contract

/-- What a method creates. -/
inductive Creation where
  | nothing
  /-- An actor with the code in the parameters, which are a list of the given size. -/
  | actor (size : Nat)
  | miner
  | contract

/-- The two sides of a method. -/
structure MethodSchema where
  params : SideSchema := .plain
  result : SideSchema := .plain
  creates : Creation := .nothing

end TraceLedger
