import TraceLedger.Method.Name

/-! # Shared method tables

The tables of all versions of a registry are built beforehand, one for each release, and looked up
when a method is to be named. -/

namespace TraceLedger

/-- A registry, with the method tables of its versions by release. -/
structure MethodResolver where
  registry : VersionRegistry
  tables : List (UInt32 × MethodTable)

namespace MethodResolver

/-- Builds the table of a release, unless there is one. -/
def addTable (tables : List (UInt32 × MethodTable)) (release : UInt32) :
    List (UInt32 × MethodTable) :=
  if tables.any (·.1 = release) then tables else tables ++ [(release, .ofRelease release)]

/-- The resolver of a registry. -/
def ofRegistry (r : VersionRegistry) : MethodResolver where
  registry := r
  tables := (r.versions.map Version.actors).foldl addTable []

/-- The version at a height and its table. A table that is not shared is built. -/
def table (m : MethodResolver) (network : Network) (height : Int64) : Version × MethodTable :=
  let version := m.registry.resolve network height
  match m.tables.find? (·.1 = version.actors) with
  | some (_, table) => (version, table)
  | none => (version, .ofRelease version.actors)

/-- The name of a method at a height. -/
def methodName (m : MethodResolver) (actor : ActorKind) (number : UInt64) (network : Network)
    (height : Int64) : Except Error String :=
  if number = MethodTable.send then .ok "Send"
  else if number = MethodTable.construct then .ok "Constructor"
  else
    let (version, table) := m.table network height
    VersionRegistry.nameIn version table actor number

end MethodResolver
end TraceLedger
