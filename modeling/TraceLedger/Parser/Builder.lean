import TraceLedger.Parser.Basic

/-! # Building parsers

A parser needs a node. Everything else has a standard value; the actors are those that the node
lists for the versions of the registry. -/

namespace TraceLedger

/-- The parts of a parser to be. Calls are decoded as calls of the built-in actors; no other codec
can be given. -/
structure ParserBuilder where
  node : Node
  config : Config := .standard
  registry : VersionRegistry := .standard
  /-- The actors, if the node is not to be asked. -/
  actors : Option ActorRegistry := none
  /-- The actors that parameters refer to, if they are not the same. -/
  codecActors : Option ActorRegistry := none

namespace ParserBuilder

/-- The first release of the built-in actors that has a manifest. -/
def firstManifest : UInt32 := 8

/-- The versions that the node is asked about. -/
def bundled (registry : VersionRegistry) : List Version :=
  registry.versions.filter (firstManifest ≤ ·.actors)

/-- Asks for the manifest of a version, and adds its rows. A version without an answer adds none. -/
def inquireManifest (node : Node) (actors : ActorRegistry) (version : Version) :
    Inquiry ActorRegistry := do
  match ← node.askCodes version.ordinal with
  | .ok (some rows) => return actors.addManifest rows
  | _ => return actors

/-- The actors that a node lists. -/
def inquireActors (node : Node) (versions : List Version) : Inquiry ActorRegistry :=
  versions.foldlM (inquireManifest node) .empty

/-- The actors that were given, or else those that the node lists. -/
def knownActors (b : ParserBuilder) : Inquiry ActorRegistry :=
  match b.actors with
  | some actors => return actors
  | none => inquireActors b.node (bundled b.registry)

/-- Builds the parser, and tells what the node was asked for it. -/
def build (b : ParserBuilder) : Except Error (TraceParser × ResolverState) :=
  match b.config.validate with
  | .error e => .error e
  | .ok () =>
    let (actors, queries) := b.knownActors []
    .ok ({
        config := b.config
        registry := b.registry
        codecActors := b.codecActors.getD actors
        actors := actors
        node := b.node },
      ⟨[], queries⟩)

end ParserBuilder
end TraceLedger
