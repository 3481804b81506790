import TraceLedger.Schema.Basic

/-! # Contracts and the actor that creates them -/

namespace TraceLedger.MethodSchema

open Schema

/-- Bytes of an Ethereum address. -/
def ethereumSize : Nat := 20

/-- Bytes of a salt. -/
def saltSize : Nat := 32

/-! ## Contracts -/

/-- Who created a contract, and its code. -/
def contractOrigin : Schema := tuple [("Creator", hexOf ethereumSize), ("Initcode", hex)]

/-- A call with the code of one contract and the state of another. -/
def delegatedCall : Schema :=
  tuple [("Code", link), ("Input", hex), ("Caller", hexOf ethereumSize), ("Value", amount)]

def storageKey : Schema := tuple [("StorageKey", hex)]

/-- Methods of contracts. -/
def evm : String → MethodSchema
  | "Constructor" => { params := .typed contractOrigin }
  | "Resurrect" => { params := .typed contractOrigin }
  | "InvokeContract" => { params := .contract, result := .contract }
  | "InvokeContractDelegate" => { params := .typed delegatedCall, result := .contract }
  | "GetBytecode" => { result := .typed (optional link) }
  | "GetBytecodeHash" => { result := .typed hex }
  | "GetStorageAt" => { params := .typed storageKey, result := .typed hex }
  | _ => {}

/-! ## The Ethereum address manager -/

/-- A contract whose address comes from the number of its creator's calls. -/
def numberedContract : Schema := tuple [("Initcode", hex), ("Nonce", word)]

/-- A contract whose address comes from a salt. -/
def saltedContract : Schema := tuple [("Initcode", hex), ("Salt", hexOf saltSize)]

def initcode : Schema := named "Initcode" hex

/-- The addresses of a new contract. -/
def newContract : Schema :=
  tuple [
    ("ActorID", word),
    ("RobustAddress", optional address),
    ("EthAddress", hexOf ethereumSize)]

/-- Methods of the Ethereum address manager. -/
def eam : String → MethodSchema
  | "Create" =>
    { params := .typed numberedContract, result := .typed newContract, creates := .contract }
  | "Create2" =>
    { params := .typed saltedContract, result := .typed newContract, creates := .contract }
  | "CreateExternal" =>
    { params := .typed initcode, result := .typed newContract, creates := .contract }
  | _ => {}

end TraceLedger.MethodSchema
