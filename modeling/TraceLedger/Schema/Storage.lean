import TraceLedger.Schema.Basic

/-! # Storage power, miners and the storage market -/

namespace TraceLedger.MethodSchema

open Schema

/-- An estimate that follows a value: where it is and how fast it moves. -/
def estimate : Schema := tuple [("Position", amount), ("Velocity", amount)]

/-- The two addresses of a new actor. -/
def newActor : Schema := tuple [("IDAddress", address), ("RobustAddress", address)]

/-! ## Storage power -/

/-- A miner to be created. -/
def minerCreation : Schema :=
  tuple [
    ("Owner", address),
    ("Worker", address),
    ("WindowPoStProofType", integer),
    ("Peer", base64),
    ("Multiaddrs", list base64)]

def powerDelta : Schema := tuple [("RawByteDelta", amount), ("QualityAdjustedDelta", amount)]

/-- The first release that tells how the pledge is ramped up. -/
def rampRelease : UInt32 := 14

/-- The power of the whole network, in an earlier release. -/
def flatPower : Schema :=
  tuple [
    ("RawBytePower", amount),
    ("QualityAdjPower", amount),
    ("PledgeCollateral", amount),
    ("QualityAdjPowerSmoothed", estimate)]

def rampedPower : Schema :=
  tuple [
    ("RawBytePower", amount),
    ("QualityAdjPower", amount),
    ("PledgeCollateral", amount),
    ("QualityAdjPowerSmoothed", estimate),
    ("RampStartEpoch", integer),
    ("RampDurationEpochs", word)]

/-- The power of the whole network. -/
def totalPower (release : UInt32) : Schema :=
  if release < rampRelease then flatPower else rampedPower

def rawPower : Schema := named "RawBytePower" looseAmount

def cronEvent : Schema := tuple [("EventEpoch", integer), ("Payload", base64)]

def minerNumber : Schema := named "Miner" word

/-- The power of one miner. -/
def minerPower : Schema := tuple [("RawBytePower", amount), ("MeetsConsensusMinimum", bool)]

def count : Schema := named "Count" integer

/-- Methods of the storage power actor. -/
def power (release : UInt32) : String → MethodSchema
  | "CreateMiner" =>
    { params := .typed minerCreation, result := .typed newActor, creates := .miner }
  | "UpdateClaimedPower" => { params := .typed powerDelta }
  | "CurrentTotalPower" => { result := .typed (totalPower release) }
  | "NetworkRawPower" => { result := .typed rawPower }
  | "EnrollCronEvent" => { params := .typed cronEvent }
  | "UpdatePledgeTotal" => { params := .typed amount }
  | "MinerRawPower" => { params := .typed minerNumber, result := .typed minerPower }
  | "MinerCount" => { result := .typed count }
  | "MinerConsensusCount" => { result := .typed count }
  | _ => {}

/-! ## Miners -/

def minerAddresses : Schema :=
  tuple [("Owner", address), ("Worker", address), ("ControlAddresses", list address)]

def newWorker : Schema := tuple [("NewWorker", address), ("NewControlAddresses", list address)]

def newPeer : Schema := tuple [("NewID", base64)]

def newMultiaddrs : Schema := tuple [("NewMultiaddrs", list base64)]

def requestedAmount : Schema := tuple [("AmountRequested", amount)]

def newBeneficiary : Schema :=
  tuple [("NewBeneficiary", address), ("NewQuota", amount), ("NewExpiration", integer)]

/-- The owner of a miner, and who may become it. -/
def owner : Schema := tuple [("Owner", address), ("Proposed", optional address)]

def minerMultiaddrs : Schema := named "MultiAddrs" multiaddrs

def peer : Schema := tuple [("PeerID", base64)]

/-- Methods of miners. -/
def miner : String → MethodSchema
  | "ControlAddresses" => { result := .typed minerAddresses }
  | "ChangeWorkerAddress" => { params := .typed newWorker }
  | "ChangePeerID" => { params := .typed newPeer }
  | "ChangeMultiaddrs" => { params := .typed newMultiaddrs }
  | "ChangeOwnerAddress" => { params := .typed address }
  | "WithdrawBalance" => { params := .typed requestedAmount, result := .typed looseAmount }
  | "ChangeBeneficiary" => { params := .typed newBeneficiary }
  | "GetOwner" => { result := .typed owner }
  | "GetMultiaddrs" => { result := .typed minerMultiaddrs }
  | "GetPeerID" => { result := .typed peer }
  | "GetAvailableBalance" => { result := .typed looseAmount }
  | "InitialPledge" => { result := .typed looseAmount }
  | "IsControllingAddress" => { params := .typed address, result := .typed bool }
  | _ => {}

/-! ## The storage market -/

def marketWithdrawal : Schema :=
  tuple [("ProviderOrClientAddress", address), ("Amount", amount)]

def marketBalance : Schema := tuple [("Balance", amount), ("Locked", amount)]

/-- Methods of the storage market. -/
def market : String → MethodSchema
  | "AddBalance" => { params := .typed address }
  | "WithdrawBalance" => { params := .typed marketWithdrawal, result := .typed looseAmount }
  | "GetBalance" => { params := .typed address, result := .typed marketBalance }
  | "GetDealClient" => { params := .typed word, result := .typed word }
  | "GetDealProvider" => { params := .typed word, result := .typed word }
  | _ => {}

end TraceLedger.MethodSchema
