import TraceLedger.Trace.Output
import TraceLedger.Walk.Basic

/-! # Fees

What the sender of a message paid for its gas: a part went to the miner of the block, the rest
was burnt. The record stands beside the calls of the message. -/

namespace TraceLedger

namespace Fee

/-- The actor that burnt funds go to. -/
def burntFunds : Address := .id 99

/-- The sender of a message, by the message itself or by its trace. -/
def payer (network : Network) (i : Invocation) : String :=
  match i.message, i.recorded with
  | some message, _ => message.sender.toText network
  | none, some trace => trace.message.sender.toText network
  | none, none => ""

/-- An amount in decimal. -/
def amount (n : Int) : Json := .text (toString n)

/-- How the cost was divided. -/
def metadata (network : Network) (miner : String) (i : Invocation) (cost : GasCost) :
    Json.Members :=
  let burn := Json.text (burntFunds.toText network)
  [ ("MinerFee", .object [("MinerAddress", .text miner), ("Amount", amount cost.minerTip)]),
    ("OverEstimationBurnFee",
      .object [("BurnAddress", burn), ("Amount", amount cost.overEstimationBurn)]),
    ("BurnFee", .object [("BurnAddress", burn), ("Amount", amount cost.baseFeeBurn)])] ++
  match i.message with
  | some message => [
      ("GasUsed", .int i.gasUsed.toInt),
      ("GasLimit", .nat message.gasLimit.toNat),
      ("GasFeeCap", amount message.gasFeeCap),
      ("GasPremium", amount message.gasPremium)]
  | none => []

/-- The record of a fee; of a message that cost nothing there is none. -/
def transaction? (network : Network) (scope : Scope) (parent : String) (miner : Option Address)
    (i : Invocation) : Option Transaction :=
  match i.gasCost with
  | none => none
  | some cost =>
    if cost.totalCost = 0 then none
    else
      let miner := match miner with
        | some miner => miner.toText network
        | none => ""
      some {
        id := RecordId.ofParts
          [scope.tipsetCid, scope.blockCid, scope.messageCid, parent, Transaction.feeType]
        parentId := parent
        level := 0
        height := scope.tipset.height
        timestamp := scope.tipset.timestamp
        tipsetCid := scope.tipsetCid
        blockCid := scope.blockCid
        txHash := scope.messageCid
        sender := payer network i
        receiver := miner
        amount := toString cost.totalCost
        gasUsed := i.gasUsed
        -- Gas is paid for whether or not the message succeeded.
        status := ExitStatus.ok
        txType := Transaction.feeType
        metadata := (Json.object (metadata network miner i cost)).render }

end Fee
end TraceLedger
