import TraceLedger.Actor.Kind
import TraceLedger.Method.Frc42

/-! # The methods of built-in actors

Each definition says in which releases of the built-in actors it holds. -/

namespace TraceLedger

/-- How a method got its number. -/
inductive Numbering where
  | fixed (number : UInt64)
  /-- By the hash of a name. -/
  | hashed (name : String)
deriving DecidableEq

/-- A method and the releases that have it. -/
structure MethodDef where
  numbering : Numbering
  name : String
  /-- The first release with the method. -/
  added : UInt32
  /-- The first release without it. -/
  retired : UInt32
deriving DecidableEq

namespace MethodDef

/-- The release before which a method stands that was never retired. -/
def lastRelease : UInt32 := 0xffffffff

def addedIn (d : MethodDef) (release : UInt32) : MethodDef := { d with added := release }

def retiredIn (d : MethodDef) (release : UInt32) : MethodDef := { d with retired := release }

/-- Whether a release has the method. -/
def isActive (d : MethodDef) (release : UInt32) : Bool :=
  d.added ≤ release && release < d.retired

def number? (d : MethodDef) : Option UInt64 :=
  match d.numbering with
  | .fixed n => some n
  | .hashed name => Frc42.number? name

/-- A method with a number of its own. -/
def fixed (number : UInt64) (name : String) : MethodDef := ⟨.fixed number, name, 0, lastRelease⟩

/-- A method that any actor may call, from the tenth release on. -/
def exported (hashedName name : String) : MethodDef := ⟨.hashed hashedName, name, 10, lastRelease⟩

/-- Called when tokens arrive. -/
def receiverHook : MethodDef := (exported "Receive" "UniversalReceiverHook").addedIn 9

/-! ## The actors -/

def account : List MethodDef := [
  fixed 2 "PubkeyAddress",
  (exported "AuthenticateMessage" "AuthenticateMessageExported").addedIn 9,
  receiverHook]

def init : List MethodDef := [
  fixed 2 "Exec",
  (fixed 3 "Exec4").addedIn 10,
  exported "Exec" "ExecExported"]

def cron : List MethodDef := [
  fixed 2 "EpochTick"]

def reward : List MethodDef := [
  fixed 2 "AwardBlockReward",
  fixed 3 "ThisEpochReward",
  fixed 4 "UpdateNetworkKPI"]

def power : List MethodDef := [
  fixed 2 "CreateMiner",
  fixed 3 "UpdateClaimedPower",
  fixed 4 "EnrollCronEvent",
  fixed 5 "OnEpochTickEnd",
  fixed 6 "UpdatePledgeTotal",
  (fixed 7 "OnConsensusFault").retiredIn 3,
  fixed 8 "SubmitPoRepForBulkVerify",
  fixed 9 "CurrentTotalPower",
  exported "CreateMiner" "CreateMinerExported",
  exported "NetworkRawPower" "NetworkRawPowerExported",
  exported "MinerRawPower" "MinerRawPowerExported",
  exported "MinerCount" "MinerCountExported",
  exported "MinerConsensusCount" "MinerConsensusCountExported",
  (exported "MinerPower" "MinerPowerExported").addedIn 14]

def miner : List MethodDef := [
  fixed 2 "ControlAddresses",
  fixed 3 "ChangeWorkerAddress",
  fixed 4 "ChangePeerID",
  fixed 5 "SubmitWindowedPoSt",
  fixed 6 "PreCommitSector",
  fixed 7 "ProveCommitSector",
  fixed 8 "ExtendSectorExpiration",
  fixed 9 "TerminateSectors",
  fixed 10 "DeclareFaults",
  fixed 11 "DeclareFaultsRecovered",
  fixed 12 "OnDeferredCronEvent",
  fixed 13 "CheckSectorProven",
  (fixed 14 "AddLockedFund").retiredIn 2,
  (fixed 14 "ApplyRewards").addedIn 2,
  fixed 15 "ReportConsensusFault",
  fixed 16 "WithdrawBalance",
  fixed 17 "ConfirmSectorProofsValid",
  fixed 18 "ChangeMultiaddrs",
  fixed 19 "CompactPartitions",
  fixed 20 "CompactSectorNumbers",
  fixed 21 "ConfirmUpdateWorkerKey",
  fixed 22 "RepayDebt",
  fixed 23 "ChangeOwnerAddress",
  (fixed 24 "DisputeWindowedPoSt").addedIn 3,
  (fixed 25 "PreCommitSectorBatch").addedIn 5,
  (fixed 26 "ProveCommitAggregate").addedIn 5,
  (fixed 27 "ProveReplicaUpdates").addedIn 7,
  (fixed 28 "PreCommitSectorBatch2").addedIn 9,
  (fixed 29 "ProveReplicaUpdates2").addedIn 9,
  (fixed 30 "ChangeBeneficiary").addedIn 9,
  (fixed 31 "GetBeneficiary").addedIn 9,
  (fixed 32 "ExtendSectorExpiration2").addedIn 9,
  (fixed 33 "ProveCommitSectors3").addedIn 13,
  (fixed 34 "ProveReplicaUpdates3").addedIn 13,
  (fixed 35 "InternalSectorSetupForPreseal").addedIn 13,
  (fixed 36 "ProveCommitSectorsNI").addedIn 14,
  exported "ChangeWorkerAddress" "ChangeWorkerAddressExported",
  exported "ChangePeerID" "ChangePeerIDExported",
  exported "WithdrawBalance" "WithdrawBalanceExported",
  exported "ChangeMultiaddrs" "ChangeMultiaddrsExported",
  exported "ConfirmChangeWorkerAddress" "ConfirmChangeWorkerAddressExported",
  exported "RepayDebt" "RepayDebtExported",
  exported "ChangeOwnerAddress" "ChangeOwnerAddressExported",
  exported "ChangeBeneficiary" "ChangeBeneficiaryExported",
  exported "GetBeneficiary" "GetBeneficiaryExported",
  exported "GetOwner" "GetOwnerExported",
  exported "IsControllingAddress" "IsControllingAddressExported",
  exported "GetSectorSize" "GetSectorSizeExported",
  exported "GetAvailableBalance" "GetAvailableBalanceExported",
  exported "GetVestingFunds" "GetVestingFundsExported",
  exported "GetPeerID" "GetPeerIDExported",
  exported "GetMultiaddrs" "GetMultiaddrsExported",
  (exported "InitialPledge" "InitialPledgeExported").addedIn 16]

def market : List MethodDef := [
  fixed 2 "AddBalance",
  fixed 3 "WithdrawBalance",
  fixed 4 "PublishStorageDeals",
  fixed 5 "VerifyDealsForActivation",
  fixed 6 "ActivateDeals",
  fixed 7 "OnMinerSectorsTerminate",
  (fixed 8 "ComputeDataCommitment").retiredIn 13,
  fixed 9 "CronTick",
  exported "AddBalance" "AddBalanceExported",
  exported "WithdrawBalance" "WithdrawBalanceExported",
  exported "PublishStorageDeals" "PublishStorageDealsExported",
  exported "GetBalance" "GetBalanceExported",
  exported "GetDealDataCommitment" "GetDealDataCommitmentExported",
  exported "GetDealClient" "GetDealClientExported",
  exported "GetDealProvider" "GetDealProviderExported",
  exported "GetDealLabel" "GetDealLabelExported",
  exported "GetDealTerm" "GetDealTermExported",
  exported "GetDealTotalPrice" "GetDealTotalPriceExported",
  exported "GetDealClientCollateral" "GetDealClientCollateralExported",
  exported "GetDealProviderCollateral" "GetDealProviderCollateralExported",
  exported "GetDealVerified" "GetDealVerifiedExported",
  exported "GetDealActivation" "GetDealActivationExported",
  (exported "GetDealSector" "GetDealSectorExported").addedIn 13,
  (exported "SettleDealPayments" "SettleDealPaymentsExported").addedIn 13,
  (exported "SectorContentChanged" "SectorContentChanged").addedIn 13]

def paymentChannel : List MethodDef := [
  fixed 2 "UpdateChannelState",
  fixed 3 "Settle",
  fixed 4 "Collect"]

def multisig : List MethodDef := [
  fixed 2 "Propose",
  fixed 3 "Approve",
  fixed 4 "Cancel",
  fixed 5 "AddSigner",
  fixed 6 "RemoveSigner",
  fixed 7 "SwapSigner",
  fixed 8 "ChangeNumApprovalsThreshold",
  (fixed 9 "LockBalance").addedIn 2,
  receiverHook,
  exported "Propose" "ProposeExported",
  exported "Approve" "ApproveExported",
  exported "Cancel" "CancelExported",
  exported "AddSigner" "AddSignerExported",
  exported "RemoveSigner" "RemoveSignerExported",
  exported "SwapSigner" "SwapSignerExported",
  exported "ChangeNumApprovalsThreshold" "ChangeNumApprovalsThresholdExported",
  exported "LockBalance" "LockBalanceExported"]

def verifiedRegistry : List MethodDef := [
  fixed 2 "AddVerifier",
  fixed 3 "RemoveVerifier",
  fixed 4 "AddVerifiedClient",
  (fixed 5 "UseBytes").retiredIn 9,
  (fixed 6 "RestoreBytes").retiredIn 9,
  (fixed 7 "RemoveVerifiedClientDataCap").addedIn 7,
  (fixed 8 "RemoveExpiredAllocations").addedIn 9,
  (fixed 9 "ClaimAllocations").addedIn 9,
  (fixed 10 "GetClaims").addedIn 9,
  (fixed 11 "ExtendClaimTerms").addedIn 9,
  (fixed 12 "RemoveExpiredClaims").addedIn 9,
  receiverHook,
  exported "AddVerifiedClient" "AddVerifiedClientExported",
  exported "RemoveExpiredAllocations" "RemoveExpiredAllocationsExported",
  exported "GetClaims" "GetClaimsExported",
  exported "ExtendClaimTerms" "ExtendClaimTermsExported",
  exported "RemoveExpiredClaims" "RemoveExpiredClaimsExported"]

def datacap : List MethodDef := [
  fixed 2 "Mint",
  fixed 3 "Destroy",
  (fixed 10 "Name").retiredIn 10,
  (fixed 11 "Symbol").retiredIn 10,
  (fixed 12 "TotalSupply").retiredIn 10,
  (fixed 13 "BalanceOf").retiredIn 10,
  (fixed 14 "Transfer").retiredIn 10,
  (fixed 15 "TransferFrom").retiredIn 10,
  (fixed 16 "IncreaseAllowance").retiredIn 10,
  (fixed 17 "DecreaseAllowance").retiredIn 10,
  (fixed 18 "RevokeAllowance").retiredIn 10,
  (fixed 19 "Burn").retiredIn 10,
  (fixed 20 "BurnFrom").retiredIn 10,
  (fixed 21 "Allowance").retiredIn 10,
  exported "Mint" "MintExported",
  exported "Destroy" "DestroyExported",
  exported "Name" "NameExported",
  exported "Symbol" "SymbolExported",
  exported "Granularity" "GranularityExported",
  exported "TotalSupply" "TotalSupplyExported",
  exported "Balance" "BalanceExported",
  exported "Transfer" "TransferExported",
  exported "TransferFrom" "TransferFromExported",
  exported "IncreaseAllowance" "IncreaseAllowanceExported",
  exported "DecreaseAllowance" "DecreaseAllowanceExported",
  exported "RevokeAllowance" "RevokeAllowanceExported",
  exported "Burn" "BurnExported",
  exported "BurnFrom" "BurnFromExported",
  exported "Allowance" "AllowanceExported"]

def evm : List MethodDef := [
  fixed 2 "Resurrect",
  fixed 3 "GetBytecode",
  fixed 4 "GetBytecodeHash",
  fixed 5 "GetStorageAt",
  fixed 6 "InvokeContractDelegate",
  exported "InvokeEVM" "InvokeContract",
  receiverHook]

def eam : List MethodDef := [
  fixed 2 "Create",
  fixed 3 "Create2",
  fixed 4 "CreateExternal"]

def ethAccount : List MethodDef := [
  receiverHook]

/-- The definitions of an actor. -/
def ofActor : ActorKind → List MethodDef
  | .account => account
  | .init => init
  | .cron => cron
  | .reward => reward
  | .power => power
  | .miner => miner
  | .market => market
  | .paymentChannel => paymentChannel
  | .multisig => multisig
  | .verifiedRegistry => verifiedRegistry
  | .datacap => datacap
  | .evm => evm
  | .eam => eam
  | .ethAccount => ethAccount
  | .system => []
  | .placeholder => []
  | .unknown => []

end MethodDef
end TraceLedger
