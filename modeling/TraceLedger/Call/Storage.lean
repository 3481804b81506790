import TraceLedger.Call.Creation
import TraceLedger.Schema.Storage

/-! # Decoders of storage power, miners and the storage market -/

namespace TraceLedger.Call

open MethodSchema

/-- Decodes a call of the storage power actor. -/
def fillPower (c : Call) (ctx : CallContext) (method : String) (out : DecodedCall) :
    Except Error DecodedCall :=
  match method with
  | "CreateMiner" => do
    let out ← c.fill ctx .params minerCreation out
    c.fillNewActor ctx none ActorKind.miner.name out
  | "UpdateClaimedPower" => c.fill ctx .params powerDelta out
  | "CurrentTotalPower" =>
    if rampRelease ≤ ctx.version.actors then c.fill ctx .result rampedPower out
    else c.fill ctx .result flatPower out
  | "NetworkRawPower" => c.fill ctx .result rawPower out
  | "EnrollCronEvent" => c.fill ctx .params cronEvent out
  | "UpdatePledgeTotal" => c.fill ctx .params .amount out
  | "MinerRawPower" => do
    let out ← c.fill ctx .params minerNumber out
    c.fill ctx .result minerPower out
  | "MinerCount" => c.fill ctx .result count out
  | "MinerConsensusCount" => c.fill ctx .result count out
  | _ => return out

/-- Decodes a call of a miner. -/
def fillMiner (c : Call) (ctx : CallContext) (method : String) (out : DecodedCall) :
    Except Error DecodedCall :=
  match method with
  | "ControlAddresses" => c.fill ctx .result minerAddresses out
  | "ChangeWorkerAddress" => c.fill ctx .params newWorker out
  | "ChangePeerID" => c.fill ctx .params newPeer out
  | "ChangeMultiaddrs" => c.fill ctx .params newMultiaddrs out
  | "ChangeOwnerAddress" => c.fill ctx .params .address out
  | "WithdrawBalance" => do
    let out ← c.fill ctx .params requestedAmount out
    c.fill ctx .result .looseAmount out
  | "ChangeBeneficiary" => c.fill ctx .params newBeneficiary out
  | "GetOwner" => c.fill ctx .result owner out
  | "GetMultiaddrs" => c.fill ctx .result minerMultiaddrs out
  | "GetPeerID" => c.fill ctx .result peer out
  | "GetAvailableBalance" | "InitialPledge" => c.fill ctx .result .looseAmount out
  | "IsControllingAddress" => do
    let out ← c.fill ctx .params .address out
    c.fill ctx .result .bool out
  | _ => return out

/-- Decodes a call of the storage market. -/
def fillMarket (c : Call) (ctx : CallContext) (method : String) (out : DecodedCall) :
    Except Error DecodedCall :=
  match method with
  | "AddBalance" => c.fill ctx .params .address out
  | "WithdrawBalance" => do
    let out ← c.fill ctx .params marketWithdrawal out
    c.fill ctx .result .looseAmount out
  | "GetBalance" => do
    let out ← c.fill ctx .params .address out
    c.fill ctx .result marketBalance out
  | "GetDealClient" | "GetDealProvider" => do
    let out ← c.fill ctx .params .word out
    c.fill ctx .result .word out
  | _ => return out

end TraceLedger.Call
