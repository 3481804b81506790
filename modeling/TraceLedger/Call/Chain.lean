import TraceLedger.Call.Creation
import TraceLedger.Schema.Chain

/-! # Decoders of the actors that run the chain: init, cron and reward -/

namespace TraceLedger.Call

open MethodSchema

/-- Sets the parameters of a creation, and tells the code in them. -/
def fillExecution (c : Call) (method : String) (out : DecodedCall) :
    Except Error (Option Cid × DecodedCall) :=
  if method = "Exec" then do
    let (execution, out) ← c.fillAs .params Execution.reader Execution.toJson out
    return (execution.map (·.code), out)
  else do
    let (execution, out) ← c.fillAs .params NamedExecution.reader NamedExecution.toJson out
    return (execution.map (·.code), out)

/-- Decodes a call of the actor that creates others. -/
def fillInit (c : Call) (ctx : CallContext) (actors : ActorRegistry) (method : String)
    (out : DecodedCall) : Except Error DecodedCall :=
  match method with
  | "Constructor" => c.fill ctx .params networkName out
  | "Exec" | "Exec4" => do
    let (code, out) ← c.fillExecution method out
    c.fillNewActor ctx code (actors.nameOf code) out
  | _ => return out

/-- Decodes a call of the actor that calls others at every epoch. -/
def fillCron (c : Call) (ctx : CallContext) (method : String) (out : DecodedCall) :
    Except Error DecodedCall :=
  if method = "Constructor" then c.fill ctx .params cronEntries out else return out

/-- Decodes a call of the actor that pays for blocks. -/
def fillReward (c : Call) (ctx : CallContext) (method : String) (out : DecodedCall) :
    Except Error DecodedCall :=
  match method with
  | "AwardBlockReward" => c.fill ctx .params blockReward out
  | "ThisEpochReward" =>
    if ctx.version.actors < smoothedRelease then c.fill ctx .result fullReward out
    else c.fill ctx .result smoothedReward out
  | "Constructor" | "UpdateNetworkKPI" => c.fill ctx .params (.optional .amount) out
  | _ => return out

end TraceLedger.Call
