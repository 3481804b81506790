import TraceLedger.Actor.Registry
import TraceLedger.Call.Filling
import TraceLedger.Schema.Contracts

/-! # Created actors

Some methods create actors. Their parameters tell the code, and their results the addresses of the
new actor. -/

namespace TraceLedger

open Cbor Schema

/-- The name of the kind of actors with the code, if a code is told. -/
def ActorRegistry.nameOf (actors : ActorRegistry) : Option Cid → String
  | some code => (actors.kindOf code).name
  | none => ""

/-- An actor to be created: its code, and what its constructor is called with. -/
structure Execution where
  code : Cid
  params : List UInt8

namespace Execution

def reader : Dag.Reader Execution := tupleOf 2 do
  let code ← Dag.link
  let params ← Dag.bytes
  return ⟨code, params⟩

def toJson (e : Execution) : Json :=
  .object [("CodeCid", .text e.code.toText), ("ConstructorParams", base64Text e.params)]

end Execution

/-- An actor to be created under a name of the caller's choice. -/
structure NamedExecution where
  code : Cid
  params : List UInt8
  name : List UInt8

namespace NamedExecution

def reader : Dag.Reader NamedExecution := tupleOf 3 do
  let code ← Dag.link
  let params ← Dag.bytes
  let name ← Dag.bytes
  return ⟨code, params, name⟩

def toJson (e : NamedExecution) : Json :=
  .object [
    ("CodeCid", .text e.code.toText),
    ("ConstructorParams", base64Text e.params),
    ("SubAddress", base64Text e.name)]

end NamedExecution

/-- The two addresses of a new actor. -/
structure NewActor where
  id : Address
  robust : Address

namespace NewActor

def reader : Dag.Reader NewActor := tupleOf 2 do
  let id ← Dag.address
  let robust ← Dag.address
  return ⟨id, robust⟩

def toJson (network : Network) (actor : NewActor) : Json :=
  .object [
    ("IDAddress", .text (actor.id.toText network)),
    ("RobustAddress", .text (actor.robust.toText network))]

/-- What is known of a new actor. -/
def info (ctx : CallContext) (actor : NewActor) (code : Option Cid) (actorType : String) :
    AddressInfo where
  short := actor.id.toText ctx.network
  robust := actor.robust.toText ctx.network
  actorCode := match code with
    | some code => code.toText
    | none => ""
  actorType := actorType
  ethAddress := actor.robust.ethereum?
  creationTxHash := some ctx.txCid

end NewActor

/-- The number, the robust address and the Ethereum address of a new contract. -/
structure NewContract where
  number : UInt64
  robust : Option Address
  name : List UInt8

namespace NewContract

def reader : Dag.Reader NewContract := tupleOf 3 do
  let number ← Dag.u64
  let robust ← Dag.optional Dag.address
  let name ← octets MethodSchema.ethereumSize
  return ⟨number, robust, name⟩

def toJson (network : Network) (contract : NewContract) : Json :=
  .object [
    ("ActorID", .nat contract.number.toNat),
    ("RobustAddress", (contract.robust.map fun a => .text (a.toText network)).getD .null),
    ("EthAddress", hexText contract.name)]

/-- What is known of a new contract. -/
def info? (ctx : CallContext) (contract : NewContract) : Option AddressInfo :=
  (Address.delegated? Address.ethereumManager contract.name).map fun delegated => {
    short := (Address.id contract.number).toText ctx.network
    robust := (contract.robust.getD delegated).toText ctx.network
    actorCode := ""
    actorType := ActorKind.evm.name
    ethAddress := delegated.ethereum?
    creationTxHash := some ctx.txCid }

end NewContract

namespace Call

/-- Sets the result of a creation, and tells of the new actor. -/
def fillNewActor (c : Call) (ctx : CallContext) (code : Option Cid) (actorType : String)
    (out : DecodedCall) : Except Error DecodedCall := do
  let (actor, out) ← c.fillAs .result NewActor.reader (NewActor.toJson ctx.network) out
  match actor with
  | some actor => return { out with created := some (actor.info ctx code actorType) }
  | none => return out

/-- Sets the result of the creation of a contract, and tells of it. -/
def fillNewContract (c : Call) (ctx : CallContext) (out : DecodedCall) :
    Except Error DecodedCall := do
  let (contract, out) ← c.fillAs .result NewContract.reader (NewContract.toJson ctx.network) out
  match contract with
  | some contract =>
    match contract.info? ctx with
    | some info => return { out with created := some info }
    | none => throw (c.decodeError .result)
  | none => return out

end Call
end TraceLedger
