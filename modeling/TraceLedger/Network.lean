/-! # Networks -/

namespace TraceLedger

/-- The networks whose upgrade schedule is known. -/
inductive Network where
  | mainnet
  | calibration
deriving DecidableEq, Repr, Inhabited

namespace Network

def all : List Network := [mainnet, calibration]

def name : Network → String
  | mainnet => "mainnet"
  | calibration => "calibration"

/-- The letter that addresses of this network start with. -/
def letter : Network → Char
  | mainnet => 'f'
  | calibration => 't'

/-- The network of a name or of one of its other names, in lower case. -/
def ofName? (name : String) : Option Network :=
  if name = "mainnet" then some mainnet
  else if name = "calibration" ∨ name = "calibnet" ∨ name = "testnet" then some calibration
  else none

end Network
end TraceLedger
