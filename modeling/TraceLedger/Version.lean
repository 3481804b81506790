import TraceLedger.Error

/-! # Protocol versions

Each version of the protocol becomes active at a height, which differs between networks. A
registry lists versions in order. -/

namespace TraceLedger

/-- A protocol version. -/
structure Version where
  /-- The network version number. -/
  ordinal : UInt32
  /-- The release of the built-in actors that applies. -/
  actors : UInt32
  mainnet : Int64
  calibration : Int64
deriving DecidableEq

namespace Version

/-- The height at which the version becomes active. -/
def activation (v : Version) : Network → Int64
  | .mainnet => v.mainnet
  | .calibration => v.calibration

/-- What is wrong with the order of two versions that follow each other. -/
def orderFault? (earlier later : Version) : Option ConfigFault :=
  if later.ordinal ≤ earlier.ordinal then some (.ordinals earlier.ordinal later.ordinal)
  else (Network.all.find? fun network => later.activation network < earlier.activation network).map
    fun network => .activation later.ordinal network earlier.ordinal

/-- What is wrong with the order of versions, seen from the start. -/
def scheduleFault? : List Version → Option ConfigFault
  | [] => none
  | [_] => none
  | a :: b :: rest =>
    match orderFault? a b with
    | some fault => some fault
    | none => scheduleFault? (b :: rest)

/-- The upgrade schedule of the two networks. Calibration began at version 16. -/
def schedule : List Version := [
  ⟨0, 0, 0, 0⟩,
  ⟨1, 0, 41280, 0⟩,
  ⟨2, 0, 51000, 0⟩,
  ⟨3, 0, 94000, 0⟩,
  ⟨4, 2, 138720, 0⟩,
  ⟨5, 2, 140760, 0⟩,
  ⟨6, 2, 170000, 0⟩,
  ⟨7, 2, 265200, 0⟩,
  ⟨8, 2, 272400, 0⟩,
  ⟨9, 2, 336458, 0⟩,
  ⟨10, 3, 550321, 0⟩,
  ⟨11, 3, 665280, 0⟩,
  ⟨12, 4, 712320, 0⟩,
  ⟨13, 5, 892800, 0⟩,
  ⟨14, 6, 1231620, 0⟩,
  ⟨15, 7, 1594680, 0⟩,
  ⟨16, 8, 1960320, 0⟩,
  ⟨17, 9, 2383680, 16800⟩,
  ⟨18, 10, 2683348, 322354⟩,
  ⟨19, 10, 2809800, 489094⟩,
  ⟨20, 11, 2870280, 492214⟩,
  ⟨21, 12, 3469380, 1013134⟩,
  ⟨22, 13, 3855360, 1427974⟩,
  ⟨23, 14, 4154640, 1779094⟩,
  ⟨24, 15, 4461240, 2078794⟩,
  ⟨25, 16, 4867320, 2523454⟩]

end Version

/-- Versions in order: ordinals rise, and activations never fall. -/
structure VersionRegistry where
  first : Version
  rest : List Version
  ordered : Version.scheduleFault? (first :: rest) = none

namespace VersionRegistry

def versions (r : VersionRegistry) : List Version := r.first :: r.rest

/-- The registry of the given versions, if they are in order. -/
def ofList : List Version → Except Error VersionRegistry
  | [] => .error (.config .noVersions)
  | first :: rest =>
    match h : Version.scheduleFault? (first :: rest) with
    | none => .ok ⟨first, rest, h⟩
    | some fault => .error (.config fault)

/-- The upgrade schedule of the two networks. -/
def standard : VersionRegistry := ⟨Version.schedule.head (by decide), Version.schedule.tail, by decide⟩

def latest (r : VersionRegistry) : Version := r.rest.getLast? |>.getD r.first

/-- The version with a given ordinal. -/
def version? (r : VersionRegistry) (ordinal : UInt32) : Option Version :=
  r.versions.find? (·.ordinal = ordinal)

/-- The last of the given versions that is active at a height, or `current` if none is. -/
def lastActive (network : Network) (height : Int64) (current : Version) : List Version → Version
  | [] => current
  | v :: rest =>
    if v.activation network ≤ height then lastActive network height v rest else current

/-- The version that is active at a height; before the first activation it is the first. -/
def resolve (r : VersionRegistry) (network : Network) (height : Int64) : Version :=
  lastActive network height r.first r.rest

/-- The first and the last-but-one bound of a run of heights; the end is not part of it. -/
structure Heights where
  start : Int64
  stop : Int64
deriving DecidableEq

def Heights.isEmpty (h : Heights) : Bool := ¬ h.start < h.stop

/-- The end of the heights of the latest version. -/
def noEnd : Int64 := Int64.maxValue

/-- The heights at which the version with the given ordinal is active, among the given ones. -/
def rangeIn (network : Network) (ordinal : UInt32) : List Version → Option Heights
  | [] => none
  | v :: rest =>
    if v.ordinal = ordinal then
      some ⟨v.activation network, match rest with
        | next :: _ => next.activation network
        | [] => noEnd⟩
    else rangeIn network ordinal rest

/-- The heights at which a version is active. There are none if the next version starts at the
same height. -/
def range (r : VersionRegistry) (network : Network) (ordinal : UInt32) : Option Heights :=
  rangeIn network ordinal r.versions

/-- The versions that are active at some height: those that the next one does not replace at
once. -/
def activeOf (network : Network) : List Version → List Version
  | [] => []
  | [v] => [v]
  | v :: next :: rest =>
    if next.activation network = v.activation network then activeOf network (next :: rest)
    else v :: activeOf network (next :: rest)

/-- The versions from an ordinal on that are active at some height. -/
def activeFrom (r : VersionRegistry) (ordinal : UInt32) (network : Network) : List Version :=
  activeOf network (r.versions.dropWhile (·.ordinal < ordinal))

end VersionRegistry
end TraceLedger
