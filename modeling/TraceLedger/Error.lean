import TraceLedger.Address.Text
import TraceLedger.Network

/-! # Errors

One constructor per cause, and the wording of each. Where bytes or a text cannot be read, the wording
tells what was to be read; what the reader itself says of it is left out. -/

namespace TraceLedger

/-- The two byte strings of a call. -/
inductive Side where
  | params
  | result
deriving DecidableEq

def Side.name : Side → String
  | params => "params"
  | result => "return"

/-- The three questions that resolving an address asks a node. -/
inductive Lookup where
  | short
  | robust
  | actorCode
deriving DecidableEq

def Lookup.name : Lookup → String
  | short => "short"
  | robust => "robust"
  | actorCode => "actor code"

/-- Why a payload cannot be read. -/
inductive EnvelopeFault where
  | empty
  | json
  | cbor
  | address (fault : Address.TextError)
deriving DecidableEq

def EnvelopeFault.message : EnvelopeFault → String
  | empty => "empty payload"
  | json => "json"
  | cbor => "cbor"
  | address fault => fault.message

/-- Why a configuration is not accepted. -/
inductive ConfigFault where
  | malformed
  | unknownNetwork (name : String)
  | unknownActor (name : String)
  | methodName (name : String)
  | noDepth
  | tooDeep (depth : UInt64)
  | noVersions
  | ordinals (earlier later : UInt32)
  | activation (later : UInt32) (network : Network) (earlier : UInt32)
deriving DecidableEq

/-- The greatest depth that a record can carry. -/
def depthLimit : UInt64 := 65535

/-- The wording of a fault; nothing is said of a malformed text. -/
def ConfigFault.message? : ConfigFault → Option String
  | malformed => none
  | unknownNetwork name => some ("unknown network " ++ name)
  | unknownActor name => some ("unrecognized actor type " ++ name)
  | methodName name => some ("method " ++ name)
  | noDepth => some "max_depth must be at least 1"
  | tooDeep depth => some ("max_depth " ++ toString depth ++ " exceeds " ++ toString depthLimit)
  | noVersions => some "version registry is empty"
  | ordinals earlier later =>
    some ("version ordinals not increasing: " ++ toString earlier ++ " then " ++ toString later)
  | activation later network earlier =>
    some ("version " ++ toString later ++ " activates on " ++ network.name ++ " before version " ++
      toString earlier)

/-- Everything that can fail. -/
inductive Error where
  /-- The actor has no method with this number. -/
  | unknownMethod (actor : String) (method : UInt64)
  /-- The actor has no methods at all at this protocol version. -/
  | unknownActor (actor : String) (version : UInt32)
  /-- One side of a call does not follow its schema. -/
  | decode (actor method : String) (side : Side)
  | missingReceipt (receiver : String) (method : UInt64)
  | addressResolution (address : String) (lookup : Lookup) (reason : String)
  | envelope (fault : EnvelopeFault)
  /-- A tipset without blocks has no identifier. -/
  | emptyTipset
  | config (fault : ConfigFault)
deriving DecidableEq

namespace Error

def message : Error → String
  | unknownMethod actor method => "unknown method " ++ toString method ++ " for actor " ++ actor
  | unknownActor actor version =>
    "unknown actor " ++ actor ++ " at network version " ++ toString version
  | decode actor method side => "failed to decode " ++ actor ++ "." ++ method ++ ": " ++ side.name
  | missingReceipt receiver method =>
    "missing receipt for call to " ++ receiver ++ " method " ++ toString method
  | addressResolution address lookup reason =>
    "failed to resolve " ++ lookup.name ++ " for " ++ address ++ ": " ++ reason
  | envelope fault => "failed to decode trace envelope: " ++ fault.message
  | emptyTipset => "failed to compute tipset cid: empty tipset key"
  | config fault =>
    match fault.message? with
    | some text => "invalid configuration: " ++ text
    | none => "invalid configuration"

/-- Whether the error ends the parse of a whole tipset. -/
def isFatal : Error → Bool
  | envelope _ => true
  | emptyTipset => true
  | _ => false

end Error

/-- The network of a name, in any case. -/
def Network.ofText (text : String) : Except Error Network :=
  let name := text.map Char.toLower
  match Network.ofName? name with
  | some network => .ok network
  | none => .error (.config (.unknownNetwork name))

end TraceLedger
