import TraceLedger.Method.Definition

/-! # Method tables

The methods of every actor in one release of the built-in actors, by their numbers. -/

namespace TraceLedger

/-- A definition with its number. -/
structure NumberedMethod where
  number : UInt64
  definition : MethodDef
deriving DecidableEq

namespace NumberedMethod

/-- The definitions of an actor that have a number. -/
def ofActor (actor : ActorKind) : List NumberedMethod :=
  (MethodDef.ofActor actor).filterMap fun d => d.number?.map fun n => ⟨n, d⟩

/-- The numbered definitions of every actor. -/
def table : List (ActorKind × List NumberedMethod) :=
  ActorKind.all.map fun actor => (actor, ofActor actor)

end NumberedMethod

/-- Names of methods by rising number, each number once. -/
abbrev MethodNames := List (UInt64 × String)

/-- Gives a number a name. -/
def MethodNames.insert (number : UInt64) (name : String) : MethodNames → MethodNames
  | [] => [(number, name)]
  | (other, old) :: rest =>
    if number = other then (number, name) :: rest
    else if number < other then (number, name) :: (other, old) :: rest
    else (other, old) :: insert number name rest

/-- The methods of one release. -/
structure MethodTable where
  release : UInt32
  actors : List (ActorKind × MethodNames)
deriving DecidableEq

namespace MethodTable

/-- The names of the active ones among numbered definitions. -/
def namesOf (release : UInt32) (methods : List NumberedMethod) : MethodNames :=
  (methods.filter (·.definition.isActive release)).foldl
    (fun names m => names.insert m.number m.definition.name) []

/-- The table of a release: the actors that it has, and their methods. -/
def ofRelease (release : UInt32) : MethodTable where
  release := release
  actors := (NumberedMethod.table.filter (·.1.introducedIn ≤ release)).map
    fun (actor, methods) => (actor, namesOf release methods)

/-- The methods of an actor, if the release has it. -/
def actor? (t : MethodTable) (actor : ActorKind) : Option MethodNames :=
  (t.actors.find? (·.1 = actor)).map Prod.snd

def hasActor (t : MethodTable) (actor : ActorKind) : Bool := (t.actor? actor).isSome

/-- The name of a number. The methods that every actor has are not in the table. -/
def method (t : MethodTable) (actor : ActorKind) (number : UInt64) : Except Error String :=
  match ((t.actor? actor).getD []).find? (·.1 = number) with
  | some (_, name) => .ok name
  | none => .error (.unknownMethod actor.name number)

/-- Number of a plain transfer of value. -/
def send : UInt64 := 0

/-- Number of an actor's constructor. -/
def construct : UInt64 := 1

/-- The number of a name. -/
def number? (t : MethodTable) (actor : ActorKind) (name : String) : Option UInt64 :=
  if name = "Send" then some send
  else if name = "Constructor" then some construct
  else match t.actor? actor with
    | none => none
    | some names => (names.find? (·.2 = name)).map Prod.fst

end MethodTable
end TraceLedger
