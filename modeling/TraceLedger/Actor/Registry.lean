import TraceLedger.Actor.Kind
import TraceLedger.Hash.Content
import TraceLedger.Text.Utf8

/-! # Actors by their code

Releases before the eighth put the actor's name into the link of its code. Later ones come with
a manifest that lists the links. -/

namespace TraceLedger

/-- Rows of a manifest: names of actors and links to their code. -/
abbrev Manifest := List (String × Cid)

/-- The actors of known links, each link once. -/
structure ActorRegistry where
  codes : List (Cid × ActorKind)
deriving DecidableEq

namespace ActorRegistry

def empty : ActorRegistry := ⟨[]⟩

/-- Sets the actor of a link. -/
def insert (r : ActorRegistry) (code : Cid) (kind : ActorKind) : ActorRegistry :=
  if r.codes.any (·.1 = code) then
    ⟨r.codes.map fun entry => if entry.1 = code then (code, kind) else entry⟩
  else ⟨r.codes ++ [(code, kind)]⟩

/-- Adds the rows of a manifest; names of no actor are passed over. -/
def addManifest (r : ActorRegistry) (rows : Manifest) : ActorRegistry :=
  rows.foldl (fun r (name, code) =>
    match ActorKind.ofName name with
    | .unknown => r
    | kind => r.insert code kind) r

def size (r : ActorRegistry) : Nat := r.codes.length

def isEmpty (r : ActorRegistry) : Bool := r.codes.isEmpty

/-- Cuts a text at its first slash. -/
def cutAtSlash (text : List Char) : Option (List Char × List Char) :=
  match text.dropWhile (· ≠ '/') with
  | [] => none
  | _ :: rest => some (text.takeWhile (· ≠ '/'), rest)

/-- The name in `fil/version/name`. -/
def nameInPath? (text : List Char) : Option String :=
  match cutAtSlash text with
  | some (['f', 'i', 'l'], rest) =>
    match cutAtSlash rest with
    | some (_, name) => some (String.ofList name)
    | none => none
  | _ => none

/-- The actor whose name is in the link itself. -/
def namedIn? (code : Cid) : Option ActorKind :=
  if code.hashCode = Cid.identity then
    match Utf8.decode? code.digest with
    | some text => (nameInPath? text.toList).map ActorKind.ofName
    | none => none
  else none

/-- The actor of a link. -/
def kindOf (r : ActorRegistry) (code : Cid) : ActorKind :=
  match r.codes.find? (·.1 = code) with
  | some (_, kind) => kind
  | none => (namedIn? code).getD .unknown

/-- The link that stands for the code of an actor where there is no real code. -/
def stubCode (kind : ActorKind) : Cid :=
  .ofContent Cid.raw (Utf8.encode ("fake/" ++ kind.name))

/-- The manifest of the stubs. -/
def stubManifest : Manifest := ActorKind.all.map fun kind => (kind.name, stubCode kind)

/-- The registry of the stubs. -/
def stubs : ActorRegistry := empty.addManifest stubManifest

end ActorRegistry
end TraceLedger
