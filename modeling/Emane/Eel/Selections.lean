import Mathlib
import Emane.CommEffect.Profiles
import Emane.Eel.Publication

set_option autoImplicit false

/-! # The loaders for antenna profiles, fading models and comm effects

These loaders publish when the cache that is chosen by the mode has something in it, new or not. An antenna
profile goes to all NEMs; a fading model and a comm effect go to the NEM that receives, and are about one
that transmits.

The comm effect layer of a NEM takes an event as a whole or not at all, so one effect out of range in the
cache keeps the others of its receiver from being taken.
-/

namespace Emane.Eel

open Emane.Lib
open Emane.CommEffect (CommEffectMessage Profile Profiles)
open Emane.Phy (FadingMode ProfileEntry)
open Emane.PluginApi (F32 F64 u16TryFrom)
open Std (ExtTreeMap ExtTreeSet)

/-! ## What a record enters -/

/-- What a record of any loader enters. -/
inductive Statement
  | change (change : Change)
  | profile (nem : UInt16) (profile : ProfileEntry)
  | fading (target tx : UInt16) (model : ℤ)
  | commEffect (dst src : UInt16) (effect : CommEffectMessage)

/-- An event of any loader. -/
inductive Announcement
  | tables (event : Event)
  | antennaProfiles (profiles : List ProfileEntry)
  | commEffects (effects : List CommEffectMessage)
  | fadingSelections (entries : List (ℕ × ℤ))

/-- The number of an event. -/
def Announcement.eventId : Announcement → UInt16
  | .tables (.location _) => 100
  | .tables (.pathloss _) => 101
  | .antennaProfiles _ => 102
  | .commEffects _ => 103
  | .fadingSelections _ => 106
  | .tables (.pathlossEx _) => 107

/-- An announcement with the NEM that it is for; zero stands for all. -/
abbrev Publication := UInt16 × Announcement

/-! ## Reading arguments -/

section

variable (c : Conversions)

/-- `load` of the loader for antenna profiles before the caches are changed. -/
def readProfile (nem : UInt16) (args : List String) : Except String ProfileEntry :=
  let number {α : Type} (result : Except String α) :=
    result.mapError ("EELEventGenerator: Parameter conversion error. " ++ ·)
  match args with
  | [arg] =>
      match parts ',' arg with
      | [profile, azimuth, elevation] => do
          let profileId ← number (parseInt c 16 profile)
          let azimuth ← number (c.f64 azimuth)
          let elevation ← number (c.f64 elevation)
          .ok ⟨nem.toNat, profileId, azimuth, elevation⟩
      | _ => .error "LoaderAntennaProfile too many arguments"
  | _ => .error "LoaderAntennaProfile loader expects 1 argument"

/-- The number of a fading model. -/
def fadingModel (name : String) : Except String ℤ :=
  if name = "none" then .ok 1
  else if name = "nakagami" then .ok 2
  else if name = "lognormal" then .ok 3
  else .error ("LoaderFadingSelection loader unknown fading model: " ++ name)

/-- `strip_prefix("nem:")` -/
def stripNem (text : String) : Option String :=
  if "nem:".toList <+: text.toList then some (String.ofList (text.toList.drop 4)) else none

/-- The NEM that transmits. -/
def readTransmitter (text : String) : Except String ℕ :=
  match stripNem text with
  | some stripped => converted "LoaderFadingSelection" (parseInt c 16 stripped)
  | none => .error "LoaderFadingSelection only supports 'nem' module type"

/-- An argument of the loader for fading models. -/
def readFading (target : UInt16) (arg : String) : Except String Statement :=
  match parts ',' arg with
  | [tx, model] => do
      let tx ← readTransmitter c tx
      let model ← fadingModel model
      .ok (.fading target (UInt16.ofNat tx) model)
  | _ => .error "LoaderFadingSelection expects 2 parameters"

/-- The NEM that a comm effect is for. -/
def readEffectDestination (text : String) : Except String UInt16 :=
  let chars := text.toList
  if ':' ∉ chars then .error "LoaderCommEffect loader: Parameter conversion error. Invalid format"
  else if chars.takeWhile (· != ':') ≠ "nem".toList then
    .error "LoaderCommEffect only supports 'nem' module type"
  else do
    let n ← converted "LoaderCommEffect" (parseInt c 16 (String.ofList (chars.dropWhile (· != ':')).tail))
    .ok (UInt16.ofNat n)

/-- An argument of the loader for comm effects. -/
def readCommEffect (src : UInt16) (arg : String) : Except String Statement :=
  match parts ',' arg with
  | [dst, latency, jitter, loss, duplicates, unicast, broadcast] => do
      let dst ← readEffectDestination c dst
      let latency ← converted "LoaderCommEffect" (c.f32 latency)
      let jitter ← converted "LoaderCommEffect" (c.f32 jitter)
      let loss ← converted "LoaderCommEffect" (c.f32 loss)
      let duplicates ← converted "LoaderCommEffect" (c.f32 duplicates)
      let unicast ← converted "LoaderCommEffect" (parseInt c 64 unicast)
      let broadcast ← converted "LoaderCommEffect" (parseInt c 64 broadcast)
      .ok (.commEffect dst src
        ⟨src.toNat, latency, jitter, loss, duplicates, UInt64.ofNat unicast, UInt64.ofNat broadcast⟩)
  | _ => .error ("LoaderCommEffect expects 7 parameters <dstModuleID>,<latency seconds>,<jitter seconds>, " ++
      "<loss>,<duplicates>,<unicast bps>,<broadcast bps>")

end

/-! ## The loaders -/

structure AntennaProfileLoader where
  fullCache : ExtTreeMap UInt16 ProfileEntry
  deltaCache : ExtTreeMap UInt16 ProfileEntry

namespace AntennaProfileLoader

def new : AntennaProfileLoader := ⟨∅, ∅⟩

def enter (loader : AntennaProfileLoader) : Statement → AntennaProfileLoader
  | .profile nem profile => ⟨loader.fullCache.insert nem profile, loader.deltaCache.insert nem profile⟩
  | _ => loader

def load (c : Conversions) (loader : AntennaProfileLoader) (moduleType : String) (moduleId : UInt16)
    (args : List String) : Except (String × AntennaProfileLoader) AntennaProfileLoader :=
  if moduleType ≠ "nem" then .ok loader
  else do
    let profile ← (readProfile c moduleId args).mapError (·, loader)
    .ok (loader.enter (.profile moduleId profile))

/-- `get_events` -/
def events (loader : AntennaProfileLoader) (mode : Mode) : List Publication × AntennaProfileLoader :=
  let cache := mode.pick loader.deltaCache loader.fullCache
  (if cache.isEmpty then [] else [(0, .antennaProfiles (cache.toList.map Prod.snd))],
    { loader with deltaCache := ∅ })

end AntennaProfileLoader

/-- The caches of a loader whose entries are by the NEM that receives and the one that transmits. -/
structure PairLoader (β : Type) where
  cache : ExtTreeMap UInt16 (ExtTreeMap UInt16 β)
  deltaCache : ExtTreeMap UInt16 (ExtTreeMap UInt16 β)

namespace PairLoader

variable {β : Type}

def new : PairLoader β := ⟨∅, ∅⟩

def insert (loader : PairLoader β) (dst src : UInt16) (value : β) : PairLoader β :=
  ⟨insertAt loader.cache dst src value, insertAt loader.deltaCache dst src value⟩

/-- The loop over the arguments of a record. -/
def loadArgs (enter : PairLoader β → Statement → PairLoader β) (read : String → Except String Statement)
    (loader : PairLoader β) (args : List String) : Except (String × PairLoader β) (PairLoader β) :=
  args.foldlM (fun loader arg => do
    let statement ← (read arg).mapError (·, loader)
    .ok (enter loader statement)) loader

/-- The loop over the NEMs that receive, in their order. -/
def events (message : UInt16 × ExtTreeMap UInt16 β → Option Publication) (loader : PairLoader β)
    (mode : Mode) : List Publication × PairLoader β :=
  ((mode.pick loader.deltaCache loader.cache).toList.filterMap message, { loader with deltaCache := ∅ })

end PairLoader

abbrev FadingSelectionLoader := PairLoader ℤ

namespace FadingSelectionLoader

def enter (loader : FadingSelectionLoader) : Statement → FadingSelectionLoader
  | .fading target tx model => loader.insert target tx model
  | _ => loader

def load (c : Conversions) (loader : FadingSelectionLoader) (moduleType : String) (targetNem : UInt16)
    (args : List String) : Except (String × FadingSelectionLoader) FadingSelectionLoader :=
  if moduleType ≠ "nem" then .ok loader
  else if args = [] then .error ("LoaderFadingSelection expects at least 1 argument", loader)
  else loader.loadArgs enter (readFading c targetNem) args

def items (entries : ExtTreeMap UInt16 ℤ) : List (ℕ × ℤ) :=
  entries.toList.map fun entry => (entry.1.toNat, entry.2)

def message (target : UInt16 × ExtTreeMap UInt16 ℤ) : Option Publication :=
  some (target.1, .fadingSelections (items target.2))

/-- `get_events` -/
def events (loader : FadingSelectionLoader) (mode : Mode) : List Publication × FadingSelectionLoader :=
  PairLoader.events message loader mode

end FadingSelectionLoader

abbrev CommEffectLoader := PairLoader CommEffectMessage

namespace CommEffectLoader

def enter (loader : CommEffectLoader) : Statement → CommEffectLoader
  | .commEffect dst src effect => loader.insert dst src effect
  | _ => loader

def load (c : Conversions) (loader : CommEffectLoader) (moduleType : String) (moduleId : UInt16)
    (args : List String) : Except (String × CommEffectLoader) CommEffectLoader :=
  if moduleType ≠ "nem" then .ok loader
  else if args = [] then .error ("LoaderCommEffect expects at least 1 argument", loader)
  else loader.loadArgs enter (readCommEffect c moduleId) args

def items (entries : ExtTreeMap UInt16 CommEffectMessage) : List CommEffectMessage :=
  entries.toList.map Prod.snd

/-- The message for `dst`, if there is something in it. -/
def message (dst : UInt16 × ExtTreeMap UInt16 CommEffectMessage) : Option Publication :=
  if (items dst.2).isEmpty then none else some (dst.1, .commEffects (items dst.2))

/-- `get_events` -/
def events (loader : CommEffectLoader) (mode : Mode) : List Publication × CommEffectLoader :=
  PairLoader.events message loader mode

end CommEffectLoader

/-! ## The receivers -/

/-- A NEM: the tables of its physical layer, and its comm effect layer. Of the states of the log-normal
fading there is only the set of NEMs that have one. -/
structure Station where
  receiver : Receiver
  fadingSelections : ExtTreeMap UInt16 FadingMode
  lognormalStates : ExtTreeSet UInt16
  shim : Profiles

/-- `fading_selection_event::Model::try_from` -/
def fadingMode : ℤ → Option FadingMode
  | 1 => some .none
  | 2 => some .nakagami
  | 3 => some .lognormal
  | _ => none

/-- One entry of a fading selection event. -/
def handleFading (s : ExtTreeMap UInt16 FadingMode × ExtTreeSet UInt16) (entry : ℕ × ℤ) :
    ExtTreeMap UInt16 FadingMode × ExtTreeSet UInt16 :=
  match u16TryFrom entry.1, fadingMode entry.2 with
  | some nem, some mode => (s.1.insert nem mode, s.2.erase nem)
  | _, _ => s

namespace Station

/-- The layers that the event is for. -/
def handle (s : Station) : Announcement → Station
  | .tables event => { s with receiver := s.receiver.handle event }
  | .antennaProfiles profiles =>
      { s with receiver := { s.receiver with
          phy := profiles.foldl Phy.PhyState.handleProfile s.receiver.phy } }
  | .fadingSelections entries =>
      let (selections, states) := entries.foldl handleFading (s.fadingSelections, s.lognormalStates)
      { s with fadingSelections := selections, lognormalStates := states }
  | .commEffects effects => { s with shim := s.shim.event effects }

/-- `builtin_event`, and `event` of the comm effect layer, which looks at events of any length. -/
def take (encodedLen : Announcement → ℕ) (s : Station) (announcement : Announcement) : Station :=
  match announcement with
  | .commEffects _ => s.handle announcement
  | _ => if maxEventLength < encodedLen announcement then s else s.handle announcement

end Station

/-- A publication reaches the NEM that it is for, or all. -/
def broadcast (encodedLen : Announcement → ℕ) (stations : UInt16 → Station) (publication : Publication) :
    UInt16 → Station := fun nem =>
  if publication.1 = 0 ∨ publication.1 = nem then (stations nem).take encodedLen publication.2
  else stations nem

end Emane.Eel
