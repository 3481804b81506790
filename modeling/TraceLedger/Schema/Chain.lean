import TraceLedger.Schema.Storage

/-! # The actors that run the chain: init, cron and reward -/

namespace TraceLedger.MethodSchema

open Schema

/-! ## Init -/

def networkName : Schema := tuple [("NetworkName", text)]

/-- An actor to be created. -/
def execution : Schema := tuple [("CodeCid", link), ("ConstructorParams", base64)]

/-- An actor to be created under a name of the caller's choice. -/
def namedExecution : Schema :=
  tuple [("CodeCid", link), ("ConstructorParams", base64), ("SubAddress", base64)]

/-- Methods of the actor that creates others. -/
def init : String → MethodSchema
  | "Constructor" => { params := .typed networkName }
  | "Exec" => { params := .typed execution, result := .typed newActor, creates := .actor 2 }
  | "Exec4" => { params := .typed namedExecution, result := .typed newActor, creates := .actor 3 }
  | _ => {}

/-! ## Cron -/

/-- The calls of every epoch. -/
def cronEntries : Schema :=
  tuple [("Entries", list (tuple [("Receiver", address), ("MethodNum", word)]))]

/-- Methods of the actor that calls others at every epoch. -/
def cron : String → MethodSchema
  | "Constructor" => { params := .typed cronEntries }
  | _ => {}

/-! ## Reward -/

def blockReward : Schema :=
  tuple [("Miner", address), ("Penalty", amount), ("GasReward", amount), ("WinCount", integer)]

/-- The first release that leaves out the reward of the epoch itself. -/
def smoothedRelease : UInt32 := 2

/-- The reward of the current epoch, in an earlier release. -/
def fullReward : Schema :=
  tuple [
    ("ThisEpochReward", amount),
    ("ThisEpochRewardSmoothed", estimate),
    ("ThisEpochBaselinePower", amount)]

def smoothedReward : Schema :=
  tuple [("ThisEpochRewardSmoothed", estimate), ("ThisEpochBaselinePower", amount)]

/-- The reward of the current epoch. -/
def epochReward (release : UInt32) : Schema :=
  if release < smoothedRelease then fullReward else smoothedReward

/-- Methods of the actor that pays for blocks. -/
def reward (release : UInt32) : String → MethodSchema
  | "AwardBlockReward" => { params := .typed blockReward }
  | "ThisEpochReward" => { result := .typed (epochReward release) }
  | "Constructor" => { params := .typed (optional amount) }
  | "UpdateNetworkKPI" => { params := .typed (optional amount) }
  | _ => {}

end TraceLedger.MethodSchema
