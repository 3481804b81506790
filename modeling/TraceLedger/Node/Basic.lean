import TraceLedger.Actor.Registry
import TraceLedger.Tipset.Basic

/-! # Nodes

A node answers questions about the state of the chain as of a tipset. A question may fail, with
a reason. A node is a function of what it is asked: one that answers the same question differently
the next time is not among these. -/

namespace TraceLedger

/-- The answers of a node. -/
structure Node where
  /-- The number of an actor, as an address. -/
  lookupId : Address → TipsetKey → Except String (Option Address)
  /-- The robust address of an actor. -/
  lookupRobust : Address → TipsetKey → Except String (Option Address)
  /-- The link to an actor's code. -/
  actorCode : Address → TipsetKey → Except String (Option Cid)
  /-- The manifest of the actors of a network version. -/
  actorCodes : UInt32 → Except String (Option Manifest)

/-- A question that was put to a node. -/
inductive Query where
  | id (address : Address) (tipset : TipsetKey)
  | robust (address : Address) (tipset : TipsetKey)
  | code (address : Address) (tipset : TipsetKey)
  | codes (version : UInt32)
deriving DecidableEq

/-- A computation that puts questions to a node. Its state lists them, the last one first. -/
abbrev Inquiry := StateM (List Query)

namespace Node

def askId (n : Node) (address : Address) (tipset : TipsetKey) :
    Inquiry (Except String (Option Address)) := do
  modify (.id address tipset :: ·)
  return n.lookupId address tipset

def askRobust (n : Node) (address : Address) (tipset : TipsetKey) :
    Inquiry (Except String (Option Address)) := do
  modify (.robust address tipset :: ·)
  return n.lookupRobust address tipset

def askCode (n : Node) (address : Address) (tipset : TipsetKey) :
    Inquiry (Except String (Option Cid)) := do
  modify (.code address tipset :: ·)
  return n.actorCode address tipset

def askCodes (n : Node) (version : UInt32) : Inquiry (Except String (Option Manifest)) := do
  modify (.codes version :: ·)
  return n.actorCodes version

end Node
end TraceLedger
