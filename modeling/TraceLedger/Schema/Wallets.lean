import TraceLedger.Schema.Basic

/-! # Accounts, multisignature wallets and payment channels -/

namespace TraceLedger.MethodSchema

open Schema

/-! ## Accounts -/

/-- The key of a new account. -/
def accountKey : Schema := named "Address" address

def signedMessage : Schema := tuple [("Signature", base64), ("Message", base64)]

/-- Methods of accounts. -/
def account : String → MethodSchema
  | "Constructor" => { params := .typed accountKey }
  | "PubkeyAddress" => { result := .typed address }
  | "AuthenticateMessage" => { params := .typed signedMessage }
  | _ => {}

/-! ## Multisignature wallets -/

/-- The first release whose wallets can lock funds from an epoch on. -/
def vestingRelease : UInt32 := 2

/-- A new wallet of an earlier release. -/
def plainWallet : Schema :=
  tuple [("Signers", list address), ("NumApprovalsThreshold", word), ("UnlockDuration", integer)]

def vestingWallet : Schema :=
  tuple [
    ("Signers", list address),
    ("NumApprovalsThreshold", word),
    ("UnlockDuration", integer),
    ("StartEpoch", integer)]

/-- Parameters of a wallet's constructor. -/
def multisigConstructor (release : UInt32) : Schema :=
  if release < vestingRelease then plainWallet else vestingWallet

/-- A call that is to be agreed on. -/
def proposedCall : Schema :=
  tuple [("To", address), ("Value", amount), ("Method", word), ("Params", base64)]

/-- What came of proposing a call. -/
def proposed : Schema :=
  tuple [("TxnID", integer), ("Applied", bool), ("Code", exitCode), ("Ret", payload)]

/-- A reference to a proposal. -/
def proposal : Schema := tuple [("ID", integer), ("ProposalHash", base64)]

/-- What came of approving a call. -/
def approved : Schema := tuple [("Applied", bool), ("Code", exitCode), ("Ret", payload)]

def addedSigner : Schema := tuple [("Signer", address), ("Increase", bool)]

def removedSigner : Schema := tuple [("Signer", address), ("Decrease", bool)]

def swappedSigner : Schema := tuple [("From", address), ("To", address)]

def threshold : Schema := tuple [("NewThreshold", word)]

def lockedBalance : Schema :=
  tuple [("StartEpoch", integer), ("UnlockDuration", integer), ("Amount", amount)]

/-- Methods of multisignature wallets. -/
def multisig (release : UInt32) : String → MethodSchema
  | "Constructor" => { params := .typed (multisigConstructor release) }
  | "Propose" => { params := .typed proposedCall, result := .typed proposed }
  | "Approve" => { params := .typed proposal, result := .typed approved }
  | "Cancel" => { params := .typed proposal }
  | "AddSigner" => { params := .typed addedSigner }
  | "RemoveSigner" => { params := .typed removedSigner }
  | "SwapSigner" => { params := .typed swappedSigner }
  | "ChangeNumApprovalsThreshold" => { params := .typed threshold }
  | "LockBalance" => { params := .typed lockedBalance }
  | _ => {}

/-! ## Payment channels -/

/-- The two ends of a channel. -/
def channelEnds : Schema := tuple [("From", address), ("To", address)]

/-- Methods of payment channels. -/
def paymentChannel : String → MethodSchema
  | "Constructor" => { params := .typed channelEnds }
  | _ => {}

end TraceLedger.MethodSchema
