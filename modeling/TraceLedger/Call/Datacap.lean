import TraceLedger.Call.Filling
import TraceLedger.Schema.Datacap

/-! # Decoders of the registry of verified clients and of the token -/

namespace TraceLedger.Call

open MethodSchema

/-- Decodes a call of the registry of verified clients. -/
def fillVerifiedRegistry (c : Call) (ctx : CallContext) (method : String) (out : DecodedCall) :
    Except Error DecodedCall :=
  match method with
  | "AddVerifier" | "AddVerifiedClient" => c.fill ctx .params allowance out
  | "RemoveVerifier" => c.fill ctx .params .address out
  | "UseBytes" | "RestoreBytes" => c.fill ctx .params dealBytes out
  | "ClaimAllocations" => do
    let out ←
      if groupedRelease ≤ ctx.version.actors then c.fill ctx .params sectorClaims out else pure out
    c.fill ctx .result .claims out
  | _ => return out

/-- Decodes a call of the token. -/
def fillDatacap (c : Call) (ctx : CallContext) (method : String) (out : DecodedCall) :
    Except Error DecodedCall :=
  match method with
  | "Name" | "Symbol" => c.fill ctx .result .text out
  | "TotalSupply" => c.fill ctx .result .amount out
  | "Balance" | "BalanceOf" => do
    let out ← c.fill ctx .params .address out
    c.fill ctx .result .amount out
  | "Mint" => c.fill ctx .params minted out
  | "Destroy" => c.fill ctx .params destroyed out
  | "Transfer" => c.fill ctx .params transferred out
  | "Burn" => c.fill ctx .params burnt out
  | "IncreaseAllowance" | "DecreaseAllowance" => do
    let name := if method = "IncreaseAllowance" then "Increase" else "Decrease"
    let out ← c.fill ctx .params (allowanceChange name) out
    c.fill ctx .result .amount out
  | "RevokeAllowance" => do
    let out ← c.fill ctx .params operator out
    c.fill ctx .result .amount out
  | "Allowance" => do
    let out ← c.fill ctx .params ownerAndOperator out
    c.fill ctx .result .amount out
  | _ => return out

end TraceLedger.Call
