import TraceLedger.Method.Table
import TraceLedger.Version

/-! # Names of methods at a height -/

namespace TraceLedger.VersionRegistry

/-- The name where there is no other. -/
def unknownMethod : String := "unknown"

/-- The version at a height and its method table. -/
def methodTable (r : VersionRegistry) (network : Network) (height : Int64) :
    Version × MethodTable :=
  let version := r.resolve network height
  (version, .ofRelease version.actors)

/-- The name of a method by the table of a version. Fails only if the release of the version does not
have the actor. -/
def nameIn (version : Version) (table : MethodTable) (actor : ActorKind) (number : UInt64) :
    Except Error String :=
  if table.hasActor actor then
    match table.method actor number with
    | .ok name => .ok name
    | .error _ => .ok unknownMethod
  else .error (.unknownActor actor.name version.ordinal)

/-- The name of a method at a height. Every actor can be sent value and be constructed. -/
def methodName (r : VersionRegistry) (actor : ActorKind) (number : UInt64) (network : Network)
    (height : Int64) : Except Error String :=
  if number = MethodTable.send then .ok "Send"
  else if number = MethodTable.construct then .ok "Constructor"
  else
    let (version, table) := r.methodTable network height
    nameIn version table actor number

end TraceLedger.VersionRegistry
