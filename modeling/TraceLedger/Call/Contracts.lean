import TraceLedger.Call.Creation
import TraceLedger.Schema.Contracts

/-! # Decoders of contracts and of the actor that creates them -/

namespace TraceLedger.Call

open MethodSchema

/-- Decodes a call of a contract. -/
def fillEvm (c : Call) (ctx : CallContext) (method : String) (out : DecodedCall) :
    Except Error DecodedCall :=
  match method with
  | "Constructor" | "Resurrect" => c.fill ctx .params contractOrigin out
  | "InvokeContract" => return c.fillContract .result (c.fillContract .params out)
  | "InvokeContractDelegate" => do
    let out ← c.fill ctx .params delegatedCall out
    return c.fillContract .result out
  | "GetBytecode" => c.fill ctx .result (.optional .link) out
  | "GetBytecodeHash" => c.fill ctx .result .hex out
  | "GetStorageAt" => do
    let out ← c.fill ctx .params storageKey out
    c.fill ctx .result .hex out
  | _ => return out

/-- The parameters of the methods that create contracts. -/
def contractParams? (method : String) : Option Schema :=
  match method with
  | "Create" => some numberedContract
  | "Create2" => some saltedContract
  | "CreateExternal" => some initcode
  | _ => none

/-- Decodes a call of the Ethereum address manager. -/
def fillEam (c : Call) (ctx : CallContext) (method : String) (out : DecodedCall) :
    Except Error DecodedCall :=
  match contractParams? method with
  | some schema => do
    let out ← c.fill ctx .params schema out
    c.fillNewContract ctx out
  | none => return out

end TraceLedger.Call
