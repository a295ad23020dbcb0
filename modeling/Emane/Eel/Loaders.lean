import Mathlib
import Emane.Lib.Numerals
import Emane.Lib.Replication
import Emane.Lib.TreeMap
import Emane.Phy.GainCache

set_option autoImplicit false

/-! # The loaders for locations and pathlosses

A loader reads the arguments of a record, and enters what they say in two caches: `cache` has everything,
`deltaCache` what was entered since the last publication. `events` makes the messages of a publication
from one of the two, and empties `deltaCache`.

What `str::parse` makes of a floating-point number is a parameter, and so are the texts of its errors. The
loops over hash maps are over their sorted keys. An error of the loaders for pathlosses comes with the
loader that it leaves.
-/

namespace Emane.Eel

open Emane.Lib
open Emane.Phy (Position Orientation Velocity)
open Emane.PluginApi (F32 F64)
open Std (ExtTreeMap)

/-! ## Reading arguments -/

/-- `str::parse` -/
structure Conversions where
  f64 : String → Except String F64
  f32 : String → Except String F32
  intError : String → String

/-- What a record says about a NEM. -/
inductive Reading
  | position (position : Position)
  | orientation (orientation : Orientation)
  | velocity (velocity : Velocity)
  deriving DecidableEq

/-- What a record enters. -/
inductive Change
  | place (nem : UInt16) (reading : Reading)
  | pathloss (dst src : UInt16) (forward reverse : F32)
  | pathlossEx (dst src : UInt16) (frequencyHz : UInt64) (forward reverse : F32)
  deriving DecidableEq

/-- `split` -/
def parts (separator : Char) (text : String) : List String :=
  (text.toList.splitOn separator).map String.ofList

section

variable (c : Conversions)

def parseInt (bits : ℕ) (text : String) : Except String ℕ :=
  match parseUnsigned bits text.toList with
  | some n => .ok n
  | none => .error (c.intError text)

/-- An argument of the form `x,y,z,keyword`. -/
def readTriple (countError keywordError : String) (keywords : List String) (text : String) :
    Except String (F64 × F64 × F64) :=
  let number text := (c.f64 text).mapError ("EELEventGenerator: Parameter conversion error. " ++ ·)
  match parts ',' text with
  | [first, second, third, keyword] => do
      let x ← number first
      let y ← number second
      let z ← number third
      if keyword ∉ keywords then .error keywordError else .ok (x, y, z)
  | _ => .error countError

/-- `load` of the location loader before the caches are changed. -/
def readLocation (eventType : String) (args : List String) : Except String (Option Reading) :=
  if eventType = "location" then
    if args.head? ≠ some "gps" then .error "EELLoaderLocation only support 'gps' location type"
    else
      match args[1]? with
      | none => .error "LoaderLocation missing arguments"
      | some text => do
          let (lat, lon, alt) ← readTriple c "LoaderLocation gps expected 4 params"
            "LoaderLocation gps unkown altitude type" ["msl", "agl"] text
          .ok (some (.position ⟨lat, lon, alt⟩))
  else if eventType = "orientation" then
    match args.head? with
    | none => .error "EELLoaderLocation orientation missing arguments"
    | some text => do
        let (pitch, roll, yaw) ← readTriple c "EELLoaderLocation orientation expects 4 params"
          ("EELLoaderLocation orientation unkown or unsupported keyword. " ++
            "Only degrees and relative keywords supported.") ["degrees", "relative"] text
        .ok (some (.orientation { rollDegrees := roll, pitchDegrees := pitch, yawDegrees := yaw }))
  else if eventType = "velocity" then
    match args.head? with
    | none => .error "EELLoaderLocation velocity missing arguments"
    | some text => do
        let (azimuth, elevation, magnitude) ← readTriple c "EELLoaderLocation velocity expects 4 params"
          ("EELLoaderLocation velocity unkown or unsupported keyword. " ++
            "Only degrees, relative, mps and azimuth keywords supported.")
          ["degrees", "mps", "azimuth", "relative"] text
        .ok (some (.velocity ⟨azimuth, elevation, magnitude⟩))
  else .ok none

/-- A conversion of the loader `name`. -/
def converted {α : Type} (name : String) (result : Except String α) : Except String α :=
  result.mapError (name ++ " loader: Parameter conversion error. " ++ ·)

/-- The NEM that an argument is about, as in `nem:7`. -/
def readDestination (name text : String) : Except String UInt16 :=
  let chars := text.toList
  if ':' ∉ chars ∨ chars.takeWhile (· != ':') ≠ "nem".toList then
    .error (name ++ " only supports 'nem' module type")
  else do
    let n ← converted name (parseInt c 16 (String.ofList (chars.dropWhile (· != ':')).tail))
    .ok (UInt16.ofNat n)

/-- An argument of the pathloss loader. -/
def readPathloss (src : UInt16) (arg : String) : Except String Change :=
  match parts ',' arg with
  | dest :: forward :: rest => do
      let dst ← readDestination c "LoaderPathloss" dest
      let fwd ← converted "LoaderPathloss" (c.f32 forward)
      let rev ← rest.head?.elim (.ok fwd) fun reverse => converted "LoaderPathloss" (c.f32 reverse)
      if 1 < rest.length then .error "LoaderPathloss loader too many parameters"
      else .ok (.pathloss dst src fwd rev)
  | _ => .error "LoaderPathloss expects at least 1 parameter"

/-- A frequency with its pathlosses. -/
def readFrequency (dst src : UInt16) (parameter : String) : Except String Change :=
  match parts ':' parameter with
  | frequency :: forward :: rest =>
      if 1 < rest.length then .error "LoaderPathlossEx loader malformed parameters"
      else do
        let freq ← converted "LoaderPathlossEx" (parseInt c 64 frequency)
        let fwd ← converted "LoaderPathlossEx" (c.f32 forward)
        let rev ← rest.head?.elim (.ok fwd) fun reverse => converted "LoaderPathlossEx" (c.f32 reverse)
        .ok (.pathlossEx dst src (UInt64.ofNat freq) fwd rev)
  | _ => .error "LoaderPathlossEx loader malformed parameters"

end

/-! ## Messages -/

structure PathlossItem where
  nemId : ℕ
  forwardPathlossdB : F32
  reversePathlossdB : F32

structure PathlossExItem where
  nemId : ℕ
  entries : List (UInt64 × F32)

inductive Event
  | location (locations : List Phy.LocationEntry)
  | pathloss (pathlosses : List PathlossItem)
  | pathlossEx (pathlosses : List PathlossExItem)

/-- An event with the NEM that it is for; zero stands for all. -/
abbrev Message := UInt16 × Event

/-! ## Locations -/

/-- `LocationEntry`, in its groups. -/
structure LocationEntry where
  hasPosition : Bool
  position : Position
  hasOrientation : Bool
  orientation : Orientation
  hasVelocity : Bool
  velocity : Velocity

namespace LocationEntry

/-- `LocationEntry::default` -/
def default : LocationEntry :=
  ⟨false, ⟨⟨0⟩, ⟨0⟩, ⟨0⟩⟩, false, ⟨⟨0⟩, ⟨0⟩, ⟨0⟩⟩, false, ⟨⟨0⟩, ⟨0⟩, ⟨0⟩⟩⟩

def set (entry : LocationEntry) : Reading → LocationEntry
  | .position position => { entry with hasPosition := true, position := position }
  | .orientation orientation => { entry with hasOrientation := true, orientation := orientation }
  | .velocity velocity => { entry with hasVelocity := true, velocity := velocity }

def message (nem : UInt16) (entry : LocationEntry) : Phy.LocationEntry where
  nemId := nem.toNat
  position := entry.position
  orientation := if entry.hasOrientation then some entry.orientation else none
  velocity := if entry.hasVelocity then some entry.velocity else none

end LocationEntry

structure LocationLoader where
  cache : ExtTreeMap UInt16 LocationEntry
  deltaCache : ExtTreeMap UInt16 LocationEntry

namespace LocationLoader

/-- Both caches get the changed entry of `cache`. -/
def enter (loader : LocationLoader) : Change → LocationLoader
  | .place nem reading =>
      let entry := (loader.cache[nem]?.getD .default).set reading
      ⟨loader.cache.insert nem entry, loader.deltaCache.insert nem entry⟩
  | _ => loader

def load (c : Conversions) (loader : LocationLoader) (moduleType : String) (moduleId : UInt16)
    (eventType : String) (args : List String) : Except String LocationLoader :=
  if moduleType ≠ "nem" then .ok loader
  else do
    let reading ← readLocation c eventType args
    .ok (reading.elim loader fun reading => loader.enter (.place moduleId reading))

/-- `get_events` -/
def events (loader : LocationLoader) (mode : Mode) : List Message × LocationLoader :=
  if loader.deltaCache.isEmpty then ([], loader)
  else
    let cache := mode.pick loader.deltaCache loader.cache
    let locations := cache.toList.map fun entry => entry.2.message entry.1
    (if locations.isEmpty then [] else [(0, .location locations)], { loader with deltaCache := ∅ })

end LocationLoader

/-! ## Pathlosses -/

structure PathlossEntry where
  forward : F32
  reverse : F32

structure PathlossLoader where
  cache : ExtTreeMap UInt16 (ExtTreeMap UInt16 PathlossEntry)
  deltaCache : ExtTreeMap UInt16 (ExtTreeMap UInt16 PathlossEntry)

namespace PathlossLoader

def updateCache (cache : ExtTreeMap UInt16 (ExtTreeMap UInt16 PathlossEntry)) (dst src : UInt16)
    (forward reverse : F32) : ExtTreeMap UInt16 (ExtTreeMap UInt16 PathlossEntry) :=
  insertAt (insertAt cache dst src ⟨forward, reverse⟩) src dst ⟨reverse, forward⟩

def enter (loader : PathlossLoader) : Change → PathlossLoader
  | .pathloss dst src forward reverse =>
      ⟨updateCache loader.cache dst src forward reverse,
        updateCache loader.deltaCache dst src forward reverse⟩
  | _ => loader

/-- The body of the loop over the arguments. -/
def addArg (c : Conversions) (src : UInt16) (loader : PathlossLoader) (arg : String) :
    Except (String × PathlossLoader) PathlossLoader := do
  let change ← (readPathloss c src arg).mapError (·, loader)
  .ok (loader.enter change)

def load (c : Conversions) (loader : PathlossLoader) (moduleType : String) (moduleId : UInt16)
    (args : List String) : Except (String × PathlossLoader) PathlossLoader :=
  if moduleType ≠ "nem" then .ok loader
  else if args = [] then .error ("LoaderPathloss expects at least 1 argument", loader)
  else args.foldlM (addArg c moduleId) loader

def items (sources : ExtTreeMap UInt16 PathlossEntry) : List PathlossItem :=
  sources.toList.map fun source => ⟨source.1.toNat, source.2.forward, source.2.reverse⟩

/-- The message for `dst`, if there is something in it. -/
def message (dst : UInt16 × ExtTreeMap UInt16 PathlossEntry) : Option Message :=
  if (items dst.2).isEmpty then none else some (dst.1, .pathloss (items dst.2))

/-- `get_events` -/
def events (loader : PathlossLoader) (mode : Mode) : List Message × PathlossLoader :=
  if loader.deltaCache.isEmpty then ([], loader)
  else
    ((mode.pick loader.deltaCache loader.cache).toList.filterMap message, { loader with deltaCache := ∅ })

end PathlossLoader

/-! ## Pathlosses at frequencies -/

/-- The pathlosses by receiver, source and frequency. -/
abbrev PathlossExCache := ExtTreeMap UInt16 (ExtTreeMap UInt16 (ExtTreeMap UInt64 F32))

structure PathlossExLoader where
  cache : PathlossExCache
  deltaCache : PathlossExCache

namespace PathlossExLoader

/-- `entry(dst).or_default().entry(src).or_default().insert(freq, value)` -/
def insertValue (cache : PathlossExCache) (dst src : UInt16) (frequencyHz : UInt64) (value : F32) :
    PathlossExCache :=
  cache.insert dst (insertAt (cache[dst]?.getD ∅) src frequencyHz value)

def updateCache (cache : PathlossExCache) (dst src : UInt16) (frequencyHz : UInt64)
    (forward reverse : F32) : PathlossExCache :=
  insertValue (insertValue cache dst src frequencyHz forward) src dst frequencyHz reverse

def enter (loader : PathlossExLoader) : Change → PathlossExLoader
  | .pathlossEx dst src frequencyHz forward reverse =>
      ⟨updateCache loader.cache dst src frequencyHz forward reverse,
        updateCache loader.deltaCache dst src frequencyHz forward reverse⟩
  | _ => loader

/-- The body of the loop over the frequencies of an argument. -/
def addFrequency (c : Conversions) (dst src : UInt16) (loader : PathlossExLoader) (parameter : String) :
    Except (String × PathlossExLoader) PathlossExLoader := do
  let change ← (readFrequency c dst src parameter).mapError (·, loader)
  .ok (loader.enter change)

/-- The body of the loop over the arguments. -/
def addArg (c : Conversions) (src : UInt16) (loader : PathlossExLoader) (arg : String) :
    Except (String × PathlossExLoader) PathlossExLoader :=
  match parts ',' arg with
  | [] => .error ("LoaderPathlossEx expects at least 1 parameter", loader)
  | dest :: parameters => do
      let dst ← (readDestination c "LoaderPathlossEx" dest).mapError (·, loader)
      parameters.foldlM (addFrequency c dst src) loader

def load (c : Conversions) (loader : PathlossExLoader) (moduleType : String) (moduleId : UInt16)
    (args : List String) : Except (String × PathlossExLoader) PathlossExLoader :=
  if moduleType ≠ "nem" then .ok loader
  else if args = [] then .error ("LoaderPathlossEx expects at least 1 argument", loader)
  else args.foldlM (addArg c moduleId) loader

def items (sources : ExtTreeMap UInt16 (ExtTreeMap UInt64 F32)) : List PathlossExItem :=
  sources.toList.map fun source => ⟨source.1.toNat, source.2.toList⟩

/-- The message for `dst`, if there is something in it. -/
def message (dst : UInt16 × ExtTreeMap UInt16 (ExtTreeMap UInt64 F32)) : Option Message :=
  if (items dst.2).isEmpty then none else some (dst.1, .pathlossEx (items dst.2))

/-- `get_events` -/
def events (loader : PathlossExLoader) (mode : Mode) : List Message × PathlossExLoader :=
  if loader.deltaCache.isEmpty then ([], loader)
  else
    ((mode.pick loader.deltaCache loader.cache).toList.filterMap message, { loader with deltaCache := ∅ })

end PathlossExLoader

end Emane.Eel
