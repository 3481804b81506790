import TraceLedger.Call.Filling
import TraceLedger.Schema.Wallets

/-! # Decoders of accounts, multisignature wallets and payment channels -/

namespace TraceLedger.Call

open MethodSchema

/-- Decodes a call of an account. -/
def fillAccount (c : Call) (ctx : CallContext) (method : String) (out : DecodedCall) :
    Except Error DecodedCall :=
  match method with
  | "Constructor" => c.fill ctx .params accountKey out
  | "PubkeyAddress" => c.fill ctx .result .address out
  | "AuthenticateMessage" => c.fill ctx .params signedMessage out
  | _ => return out

/-- Decodes a call of a multisignature wallet. -/
def fillMultisig (c : Call) (ctx : CallContext) (method : String) (out : DecodedCall) :
    Except Error DecodedCall :=
  match method with
  | "Constructor" =>
    if ctx.version.actors < vestingRelease then c.fill ctx .params plainWallet out
    else c.fill ctx .params vestingWallet out
  | "Propose" => do
    let out ← c.fill ctx .params proposedCall out
    c.fill ctx .result proposed out
  | "Approve" | "Cancel" => do
    let out ← c.fill ctx .params proposal out
    if method = "Approve" then c.fill ctx .result approved out else return out
  | "AddSigner" => c.fill ctx .params addedSigner out
  | "RemoveSigner" => c.fill ctx .params removedSigner out
  | "SwapSigner" => c.fill ctx .params swappedSigner out
  | "ChangeNumApprovalsThreshold" => c.fill ctx .params threshold out
  | "LockBalance" => c.fill ctx .params lockedBalance out
  | _ => return out

/-- Decodes a call of a payment channel. -/
def fillPaymentChannel (c : Call) (ctx : CallContext) (method : String) (out : DecodedCall) :
    Except Error DecodedCall :=
  if method = "Constructor" then c.fill ctx .params channelEnds out else return out

end TraceLedger.Call
