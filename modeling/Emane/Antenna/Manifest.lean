import Mathlib
import Emane.Antenna.Lookup

set_option autoImplicit false

/-! # The manifest of antenna profiles

A manifest names for each profile the file of its antenna pattern and, for some, the file of a blockage
pattern. Loaded patterns are shared: `getOrLoadPattern` looks for the path of the file, and not for what
the file is asked for.
-/

namespace Emane.Antenna

open Emane.Lib
open Emane.PluginApi (F64)

/-! ## Paths -/

def isAbsolute (path : String) : Bool := path.toList.head? = some '/'

/-- `Path::join` -/
def joinPath (base path : String) : String :=
  if isAbsolute path then path
  else if base.toList.getLast?.any (· != '/') then base ++ "/" ++ path
  else base ++ path

/-- The part of a path at a position is a component: not empty, and a point at the begin only. -/
def isComponent (part : List Char × ℕ) : Bool :=
  !part.1.isEmpty && (part.1 != ['.'] || part.2 == 0)

/-- `Path::parent` -/
def parentPath (path : String) : Option String :=
  match (path.toList.splitOn '/').zipIdx.reverse.dropWhile fun part => !isComponent part with
  | [] => none
  | _ :: before =>
      match before.dropWhile fun part => !isComponent part with
      | [] => some (if isAbsolute path then "/" else "")
      | parts => some (String.ofList (['/'].intercalate (parts.reverse.map Prod.fst)))

example : parentPath "/etc/emane/manifest.xml" = some "/etc/emane" := by decide +kernel
example : parentPath "manifest.xml" = some "" := by decide +kernel

/-- `resolve_uri` -/
def resolveUri (uri manifestPath : String) : Except String String := do
  let path ← fileUriPath uri
  if isAbsolute path then .ok path
  else .ok (joinPath ((parentPath manifestPath).getD ".") path)

/-! ## Patterns and their roles -/

/-- What a pattern file is asked for. -/
inductive Role
  | antenna
  | blockage
  deriving DecidableEq

namespace Role

def subRoot : Role → String
  | antenna => "antennapattern"
  | blockage => "blockagepattern"

/-- The missing value: the least power, or nothing. -/
def missing : Role → F64
  | antenna => dbmMin
  | blockage => ⟨0⟩

end Role

/-- A profile: the indices of its patterns, and its placement. -/
structure Profile where
  antenna : ℕ
  blockage : Option ℕ
  north : F64
  east : F64
  up : F64

structure AntennaProfileManifest where
  profiles : ℕ → Option Profile
  patterns : List AntennaPattern
  patternUriToIdx : String → Option ℕ

/-- The placement read so far, and how many there were. -/
structure Placement where
  placements : ℕ
  north : F64
  east : F64
  up : F64
  deriving DecidableEq

section

variable (parseF64 : String → Option F64) (files : String → File)

/-- An attribute of a placement. -/
def readCoordinate (id : ℕ) (coordinate : String) (node : Element) : Except String F64 := do
  let text ← okOr ("profile " ++ toString id ++ " placement missing " ++ coordinate)
    (node.attributeValue coordinate)
  okOr ("profile " ++ toString id ++ " placement " ++ coordinate ++ " parse") (parseF64 text)

/-- The body of the loop over the placements of a profile. -/
def addPlacement (id : ℕ) (placement : Placement) (node : Element) : Except String Placement :=
  if placement.placements + 1 > 1 then
    .error ("profile " ++ toString id ++ " has multiple placements")
  else do
    let north ← readCoordinate parseF64 id "north" node
    let east ← readCoordinate parseF64 id "east" node
    let up ← readCoordinate parseF64 id "up" node
    if !north.isFinite || !east.isFinite || !up.isFinite then
      .error ("profile " ++ toString id ++ " placement must be finite")
    else .ok ⟨placement.placements + 1, north, east, up⟩

/-- The loop over the placements of a profile; a profile without one is placed at the origin. -/
def readPlacement (id : ℕ) (node : Element) : Except String Placement :=
  (node.childrenNamed "placement").foldlM (addPlacement parseF64 id) ⟨0, ⟨0⟩, ⟨0⟩, ⟨0⟩⟩

/-- `AntennaPattern::new` for a role. -/
def loadPattern (path : String) (role : Role) : Except String AntennaPattern :=
  AntennaPattern.new parseF64 files path role.subRoot role.missing

namespace AntennaProfileManifest

def new : AntennaProfileManifest := ⟨fun _ => none, [], fun _ => none⟩

/-- `get_or_load_pattern` -/
def getOrLoadPattern (m : AntennaProfileManifest) (path : String) (role : Role) :
    Except String (AntennaProfileManifest × ℕ) :=
  match m.patternUriToIdx path with
  | some idx => .ok (m, idx)
  | none => do
      let pattern ← loadPattern parseF64 files path role
      let idx := m.patterns.length
      .ok ({ m with
        patterns := m.patterns ++ [pattern]
        patternUriToIdx := Function.update m.patternUriToIdx path (some idx) }, idx)

/-- The blockage pattern of a profile, unless its path is missing or empty. -/
def loadBlockage (manifestPath : String) (m : AntennaProfileManifest) :
    Option String → Except String (AntennaProfileManifest × Option ℕ)
  | none => .ok (m, none)
  | some uri =>
      if uri = "" then .ok (m, none)
      else do
        let path ← resolveUri uri manifestPath
        let (m, idx) ← m.getOrLoadPattern parseF64 files path .blockage
        .ok (m, some idx)

/-- The body of the loop over the profiles of a manifest. -/
def loadProfile (manifestPath : String) (m : AntennaProfileManifest) (node : Element) :
    Except String AntennaProfileManifest := do
  let text ← okOr "profile missing id" (node.attributeValue "id")
  let id ← okOr "profile id parse" (parseUnsigned 16 text.toList)
  let antennaUri ← okOr "profile missing antennapatternuri" (node.attributeValue "antennapatternuri")
  let placement ← readPlacement parseF64 id node
  let antennaPath ← resolveUri antennaUri manifestPath
  let (m, antenna) ← m.getOrLoadPattern parseF64 files antennaPath .antenna
  let (m, blockage) ← m.loadBlockage parseF64 files manifestPath
    (node.attributeValue "blockagepatternuri")
  if (m.profiles id).isSome then .error ("Duplicate antenna profile id " ++ toString id)
  else .ok { m with
    profiles := Function.update m.profiles id
      (some ⟨antenna, blockage, placement.north, placement.east, placement.up⟩) }

/-- `load` from the root of the document on. -/
def loadRoot (manifestPath : String) (m : AntennaProfileManifest) (root : Element) :
    Except String AntennaProfileManifest :=
  if root.name ≠ "profiles" then
    .error ("Invalid antenna profile manifest root " ++ manifestPath)
  else (root.childrenNamed "profile").foldlM (loadProfile parseF64 files manifestPath) m

/-- `load` -/
def load (m : AntennaProfileManifest) (uri : String) : Except String AntennaProfileManifest := do
  let manifestPath ← fileUriPath uri
  let root ← readDocument files manifestPath uri
  m.loadRoot parseF64 files manifestPath root

end AntennaProfileManifest

end

/-- The operations on doubles that a gain takes: `x.round().clamp(low, high) as i16`, and the sum. -/
structure Arithmetic where
  roundClamp : ℤ → ℤ → F64 → ℤ
  add : F64 → F64 → F64

namespace AntennaProfileManifest

/-- `get_profile_gain` -/
def getProfileGain (a : Arithmetic) (m : AntennaProfileManifest) (id : ℕ)
    (bearingDegrees elevationDegrees blockageBearingDegrees blockageElevationDegrees : F64) :
    Option F64 := do
  let profile ← m.profiles id
  let antenna ← m.patterns[profile.antenna]?
  let gain := antenna.getGain (a.roundClamp 0 360 bearingDegrees)
    (a.roundClamp (-90) 90 elevationDegrees)
  match profile.blockage with
  | none => some gain
  | some index => do
      let blockage ← m.patterns[index]?
      some (a.add gain (blockage.getGain (a.roundClamp 0 360 blockageBearingDegrees)
        (a.roundClamp (-90) 90 blockageElevationDegrees)))

end AntennaProfileManifest

end Emane.Antenna
