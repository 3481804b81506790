import TraceLedger.Error

/-! # Built-in actors -/

namespace TraceLedger

/-- The families of built-in actors. -/
inductive ActorKind where
  | system
  | init
  | cron
  | account
  | power
  | miner
  | market
  | paymentChannel
  | multisig
  | reward
  | verifiedRegistry
  | datacap
  | evm
  | eam
  | ethAccount
  | placeholder
  /-- No built-in actor. -/
  | unknown
deriving DecidableEq, Repr

namespace ActorKind

/-- Every built-in actor. -/
def all : List ActorKind := [system, init, cron, account, power, miner, market, paymentChannel,
  multisig, reward, verifiedRegistry, datacap, evm, eam, ethAccount, placeholder]

/-- The name in the manifests of actor releases. -/
def name : ActorKind → String
  | system => "system"
  | init => "init"
  | cron => "cron"
  | account => "account"
  | power => "storagepower"
  | miner => "storageminer"
  | market => "storagemarket"
  | paymentChannel => "paymentchannel"
  | multisig => "multisig"
  | reward => "reward"
  | verifiedRegistry => "verifiedregistry"
  | datacap => "datacap"
  | evm => "evm"
  | eam => "eam"
  | ethAccount => "ethaccount"
  | placeholder => "placeholder"
  | unknown => "unknown"

/-- The actor of a name. -/
def ofName (name : String) : ActorKind := (all.find? (·.name = name)).getD unknown

/-- The actor of a name; names of no actor are refused, but for the one of unknown actors. -/
def ofText (text : String) : Except Error ActorKind :=
  match ofName text with
  | unknown => if text = unknown.name then .ok unknown else .error (.config (.unknownActor text))
  | kind => .ok kind

/-- The first release of the built-in actors that has the actor. -/
def introducedIn : ActorKind → UInt32
  | datacap => 9
  | evm => 10
  | eam => 10
  | ethAccount => 10
  | placeholder => 10
  | _ => 0

end ActorKind
end TraceLedger
