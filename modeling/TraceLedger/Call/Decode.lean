import TraceLedger.Call.Chain
import TraceLedger.Call.Contracts
import TraceLedger.Call.Datacap
import TraceLedger.Call.Storage
import TraceLedger.Call.Wallets
import TraceLedger.Method.Name

/-! # Decoding calls

A call is decoded by the decoder of its actor. Parameters must be well formed before anything else
is looked at, also where the decoder would not look at all of them. -/

namespace TraceLedger.Call

/-- Lets the decoder of the actor fill in the record. Some actors have no decoder. -/
def fillTyped? (c : Call) (ctx : CallContext) (actors : ActorRegistry) (method : String)
    (out : DecodedCall) : Option (Except Error DecodedCall) :=
  match c.actor with
  | .account => some (c.fillAccount ctx method out)
  | .init => some (c.fillInit ctx actors method out)
  | .cron => some (c.fillCron ctx method out)
  | .reward => some (c.fillReward ctx method out)
  | .power => some (c.fillPower ctx method out)
  | .miner => some (c.fillMiner ctx method out)
  | .market => some (c.fillMarket ctx method out)
  | .paymentChannel => some (c.fillPaymentChannel ctx method out)
  | .multisig => some (c.fillMultisig ctx method out)
  | .verifiedRegistry => some (c.fillVerifiedRegistry ctx method out)
  | .datacap => some (c.fillDatacap ctx method out)
  | .evm => some (c.fillEvm ctx method out)
  | .eam => some (c.fillEam ctx method out)
  | .ethAccount => some (.ok out)
  | .system => some (.ok out)
  | .placeholder => none
  | .unknown => none

/-- Decodes a call. Of an unknown method the bytes are kept. Of an actor without a decoder they are
kept too, if the parameters are well formed. Methods that any actor may call are decoded as the
methods that they stand for. -/
def decode (ctx : CallContext) (actors : ActorRegistry) (c : Call) : Except Error DecodedCall :=
  if c.method = VersionRegistry.unknownMethod then .ok (.raw c.methodNum c.params c.result)
  else do
    let plainParams ← c.showPlain .params
    match c.fillTyped? ctx actors (plainName c.method) (.start c.methodNum) with
    | some filled =>
      let out ← filled
      c.fillPlain plainParams out
    | none => return .raw c.methodNum c.params c.result

end TraceLedger.Call
