import TraceLedger.Node.Basic

/-! # Nodes in memory

A node whose actors are listed. Its answers are the same at every tipset. -/

namespace TraceLedger

/-- The actors of a node in memory. Of entries with one key the first one counts. -/
structure InMemoryNode where
  ids : List (Address × UInt64)
  robust : List (UInt64 × Address)
  codes : List (UInt64 × Cid)
  /-- Addresses that no question about succeeds. -/
  failing : List Address

namespace InMemoryNode

def empty : InMemoryNode := ⟨[], [], [], []⟩

/-- Adds an actor with its code, and perhaps a robust address. -/
def addCode (n : InMemoryNode) (id : UInt64) (robust : Option Address) (code : Cid) :
    InMemoryNode :=
  match robust with
  | some address => { n with
      ids := (address, id) :: n.ids
      robust := (id, address) :: n.robust
      codes := (id, code) :: n.codes }
  | none => { n with codes := (id, code) :: n.codes }

/-- Adds a built-in actor, whose code is a stub. -/
def addActor (n : InMemoryNode) (id : UInt64) (robust : Option Address) (kind : ActorKind) :
    InMemoryNode :=
  n.addCode id robust (ActorRegistry.stubCode kind)

/-- Makes every question about an address fail. -/
def addFailing (n : InMemoryNode) (address : Address) : InMemoryNode :=
  { n with failing := address :: n.failing }

/-- The value of a key. -/
def lookup [DecidableEq κ] (key : κ) (entries : List (κ × α)) : Option α :=
  (entries.find? (·.1 = key)).map Prod.snd

/-- The number of an actor. -/
def idOf (n : InMemoryNode) : Address → Option UInt64
  | .id number => some number
  | address => lookup address n.ids

/-- Answers a question about an address, unless it is one that fails. -/
def answer (n : InMemoryNode) (address : Address) (value : Option α) :
    Except String (Option α) :=
  if address ∈ n.failing then .error ("lookup failed for " ++ address.toText .mainnet)
  else .ok value

/-- The first network version with a manifest. -/
def firstManifest : UInt32 := 16

/-- The answers of the node. From version 16 on there is a manifest of stubs. -/
def toNode (n : InMemoryNode) : Node where
  lookupId address _ := n.answer address ((n.idOf address).map .id)
  lookupRobust address _ := n.answer address ((n.idOf address).bind (lookup · n.robust))
  actorCode address _ := n.answer address ((n.idOf address).bind (lookup · n.codes))
  actorCodes version :=
    .ok (if version < firstManifest then none else some ActorRegistry.stubManifest)

end InMemoryNode
end TraceLedger
