import TraceLedger.Schema.Basic

/-! # Verified clients and the tokens that they spend -/

namespace TraceLedger.MethodSchema

open Schema

/-! ## The registry of verified clients -/

/-- An address and what it is allowed. -/
def allowance : Schema := tuple [("Address", address), ("Allowance", amount)]

/-- An address and the size of a deal. -/
def dealBytes : Schema := tuple [("Address", address), ("DealSize", amount)]

/-- The first release that groups claims by sector. -/
def groupedRelease : UInt32 := 12

/-- Claims by sector. -/
def sectorClaims : Schema :=
  tuple [
    ("Sectors", list <| tuple [
      ("Sector", word),
      ("Expiry", integer),
      ("Claims", list <| tuple [
        ("Client", word),
        ("AllocationID", word),
        ("Data", link),
        ("Size", word)])]),
    ("AllOrNothing", bool)]

/-- Methods of the registry of verified clients. -/
def verifiedRegistry (release : UInt32) : String → MethodSchema
  | "AddVerifier" => { params := .typed allowance }
  | "AddVerifiedClient" => { params := .typed allowance }
  | "RemoveVerifier" => { params := .typed address }
  | "UseBytes" => { params := .typed dealBytes }
  | "RestoreBytes" => { params := .typed dealBytes }
  | "ClaimAllocations" => {
      params := if release < groupedRelease then .plain else .typed sectorClaims
      result := .typed claims }
  | _ => {}

/-! ## The token -/

def minted : Schema := tuple [("To", address), ("Amount", amount), ("Operators", list address)]

def destroyed : Schema := tuple [("Owner", address), ("Amount", amount)]

def transferred : Schema :=
  tuple [("To", address), ("Amount", amount), ("OperatorData", base64)]

def burnt : Schema := tuple [("Amount", amount)]

/-- A change of what an operator may spend, under the given name. -/
def allowanceChange (name : String) : Schema := tuple [("Operator", address), (name, amount)]

def operator : Schema := tuple [("Operator", address)]

/-- Whose tokens, and who may spend them. -/
def ownerAndOperator : Schema := tuple [("Owner", address), ("Operator", address)]

/-- Methods of the token. -/
def datacap : String → MethodSchema
  | "Name" => { result := .typed text }
  | "Symbol" => { result := .typed text }
  | "TotalSupply" => { result := .typed amount }
  | "Balance" => { params := .typed address, result := .typed amount }
  | "BalanceOf" => { params := .typed address, result := .typed amount }
  | "Mint" => { params := .typed minted }
  | "Destroy" => { params := .typed destroyed }
  | "Transfer" => { params := .typed transferred }
  | "Burn" => { params := .typed burnt }
  | "IncreaseAllowance" =>
    { params := .typed (allowanceChange "Increase"), result := .typed amount }
  | "DecreaseAllowance" =>
    { params := .typed (allowanceChange "Decrease"), result := .typed amount }
  | "RevokeAllowance" => { params := .typed operator, result := .typed amount }
  | "Allowance" => { params := .typed ownerAndOperator, result := .typed amount }
  | _ => {}

end TraceLedger.MethodSchema
