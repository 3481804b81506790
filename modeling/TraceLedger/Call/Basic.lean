import TraceLedger.Actor.Kind
import TraceLedger.AddressInfo
import TraceLedger.Json.Printer
import TraceLedger.Text.Base64
import TraceLedger.Version

/-! # Calls and their metadata -/

namespace TraceLedger

/-- Where on the chain a call was made. -/
structure CallContext where
  network : Network
  version : Version
  /-- The message that the call belongs to. -/
  txCid : String

/-- A call of a method of an actor, with the bytes of both sides. -/
structure Call where
  actor : ActorKind
  methodNum : UInt64
  method : String
  params : List UInt8
  result : List UInt8

namespace Call

/-- What the names of methods that any actor may call end in. -/
def exportedSuffix : List Char := "Exported".toList

/-- The name of a method without that ending. -/
def plainName (method : String) : String :=
  let text := method.toList
  let size := text.length - exportedSuffix.length
  if exportedSuffix.length ≤ text.length ∧ text.drop size = exportedSuffix then
    String.ofList (text.take size)
  else method

/-- Whether the call enters a contract. -/
def isContractInvocation (c : Call) : Bool :=
  c.actor = .evm ∧ plainName c.method = "InvokeContract"

/-- The error of a side that cannot be decoded. -/
def decodeError (c : Call) (side : Side) : Error := .decode c.actor.name c.method side

end Call

/-- The metadata of a call, and the actor that it created. -/
structure DecodedCall where
  metadata : Json.Members
  created : Option AddressInfo

namespace DecodedCall

/-- Metadata with the given sides. -/
def ofSides (methodNum : UInt64) (params result : Json) (created : Option AddressInfo) :
    DecodedCall where
  metadata := [("MethodNum", .nat methodNum.toNat), ("Params", params), ("Return", result)]
  created := created

/-- Bytes in base 64; no bytes are null. -/
def rawBytes (bytes : List UInt8) : Json :=
  if bytes.isEmpty then .null else .text (Base64.encode bytes)

/-- Metadata with the bytes of both sides, for calls that are not decoded. -/
def raw (methodNum : UInt64) (params result : List UInt8) : DecodedCall :=
  ofSides methodNum (rawBytes params) (rawBytes result) none

/-- Gives a field a value. -/
def insert (d : DecodedCall) (name : String) (value : Json) : DecodedCall :=
  { d with metadata := d.metadata.insert name value }

/-- The parameters, as shown. -/
def params (d : DecodedCall) : Json := (d.metadata.get? "Params").getD .null

/-- The result, as shown. -/
def result (d : DecodedCall) : Json := (d.metadata.get? "Return").getD .null

/-- The text of the metadata. -/
def toText (d : DecodedCall) : String := (Json.object d.metadata).render

end DecodedCall
end TraceLedger
