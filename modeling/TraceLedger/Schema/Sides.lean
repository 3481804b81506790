import TraceLedger.Call.Creation
import TraceLedger.Schema.Chain
import TraceLedger.Schema.Contracts
import TraceLedger.Schema.Datacap
import TraceLedger.Schema.Storage
import TraceLedger.Schema.Wallets

/-! # The two sides of a method

What the tables of the methods say of a call: how each side is shown by its own bytes, and which
actor was created. -/

namespace TraceLedger

open Cbor

/-- The schema of a method, for the actors whose methods are known. -/
def MethodSchema.of? (actor : ActorKind) (release : UInt32) (method : String) :
    Option MethodSchema :=
  match actor with
  | .account => some (account method)
  | .init => some (init method)
  | .cron => some (cron method)
  | .reward => some (reward release method)
  | .power => some (power release method)
  | .miner => some (miner method)
  | .market => some (market method)
  | .paymentChannel => some (paymentChannel method)
  | .multisig => some (multisig release method)
  | .verifiedRegistry => some (verifiedRegistry release method)
  | .datacap => some (datacap method)
  | .evm => some (evm method)
  | .eam => some (eam method)
  | .ethAccount => some {}
  | .system => some {}
  | .placeholder => none
  | .unknown => none

namespace SideSchema

/-- Shows bytes without a schema. -/
def showPlain? (bytes : List UInt8) : Option Json := (Dag.ipld? bytes).map Ipld.toJson

/-- Shows bytes by a schema. A null says nothing, and is shown as what the bytes hold. -/
def showTyped? (network : Network) (schema : Schema) (bytes : List UInt8) : Option Json :=
  match schema.ofBytes? network bytes with
  | none => none
  | some .null => showPlain? bytes
  | some value => some value

/-- Shows one side of a call; an empty one is null. -/
def show? (network : Network) (side : SideSchema) (bytes : List UInt8) : Option Json :=
  if bytes.isEmpty then some .null
  else match side with
    | plain => showPlain? bytes
    | typed schema => showTyped? network schema bytes
    | contract => some (Schema.hexText (Call.contractBytes bytes))

/-- Shows parameters, which must be well formed on their own. -/
def showParams? (network : Network) (side : SideSchema) (bytes : List UInt8) : Option Json :=
  if bytes.isEmpty then some .null
  else if (Dag.ipld? bytes).isNone then none
  else side.show? network bytes

end SideSchema

namespace Creation

/-- Byte strings that are passed over. -/
def skipBytes : (count : Nat) → Dag.Reader Unit
  | 0 => return
  | count + 1 => do
    let _ ← Dag.bytes
    skipBytes count

/-- The link at the start of parameters that are a list of the given size. -/
def code? (size : Nat) (bytes : List UInt8) : Option Cid :=
  Dag.run (Schema.tupleOf size do
    let code ← Dag.link
    skipBytes (size - 1)
    return code) bytes

/-- The actor that a call created. -/
def created? (creation : Creation) (ctx : CallContext) (actors : ActorRegistry)
    (params result : List UInt8) : Option AddressInfo :=
  match creation with
  | nothing => none
  | actor size =>
    let code := code? size params
    (Dag.run NewActor.reader result).map fun actor => actor.info ctx code (actors.nameOf code)
  | miner =>
    (Dag.run NewActor.reader result).map fun actor => actor.info ctx none ActorKind.miner.name
  | contract => (Dag.run NewContract.reader result).bind fun contract => contract.info? ctx

end Creation
end TraceLedger
