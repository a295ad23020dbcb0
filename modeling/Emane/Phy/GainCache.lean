import Emane.Lib.Memo
import Emane.Lib.Run
import Emane.Phy.State

set_option autoImplicit false

/-! # The gain cache

`antenna_pair_gains_detailed` remembers the gains of a pair of antennas under a list of 64-bit words:
the two nodes, the patterns and placements of their antennas, and position and orientation of the
nodes, with zeros for a node without a location. The gains also depend on the velocities of the
nodes, which turn the orientations, and on whether a node has a location at all.

The arithmetic on doubles, the trigonometry and the antenna manager are functions of a `Geometry`.
What a query reads is a `Lookup`; `Lookup.gains` is the result without the cache. `Compatible` says
when the result for an earlier lookup is right for a later one of the same key, and the cache cannot
be noticed in runs whose lookups are compatible.
-/

namespace Emane.Phy

open Std Emane.Lib Emane.PluginApi

inductive PhyPathError where
  | propagation
  | gainLocation
  | gainHorizon
  | gainProfile
  | fadeLocation
  | fadeAlgorithm
  | fadeSelection
deriving DecidableEq

/-- North, east and up. -/
abbrev Neu := F64 × F64 × F64

structure Position where
  latitudeDegrees : F64
  longitudeDegrees : F64
  altitudeMeters : F64
deriving DecidableEq

def Location.position (location : Location) : Position :=
  ⟨location.latitudeDegrees, location.longitudeDegrees, location.altitudeMeters⟩

/-- The functions the gains are computed with. `directionAngles` is the end of `antenna_direction`:
the angles and the magnitude of a vector, if it has a direction. The last two are the antenna
manager's. -/
structure Geometry where
  add : F64 → F64 → F64
  sub : F64 → F64 → F64
  neg : F64 → F64
  distanceMeters : Position → Position → F64
  aboveHorizon : F64 → F64 → F64 → Bool
  relativeNeu : Position → Position → Neu
  rotateNeu : Neu → Orientation → Neu
  directionAngles : Neu → Option (F64 × F64 × F64)
  normalizeAzimuth : F64 → F64
  normalizeElevation : F64 → F64
  getProfileInfo : UInt16 → Option Neu
  getProfileGain : UInt16 → F64 → F64 → F64 → F64 → Option F64

namespace Geometry

variable (g : Geometry)

/-- `adjusted_orientation` -/
def adjustedOrientation (location : Location) : Orientation :=
  match location.velocity with
  | none => location.orientation
  | some velocity =>
      { location.orientation with
        yawDegrees := g.normalizeAzimuth
          (g.add location.orientation.yawDegrees velocity.azimuthDegrees)
        pitchDegrees := g.normalizeElevation
          (g.add location.orientation.pitchDegrees velocity.elevationDegrees) }

/-- `antenna_direction` -/
def antennaDirection (near : Location) (nearPlacement : Neu) (far : Location) (farPlacement : Neu) :
    Option (F64 × F64 × F64) :=
  let direction := g.rotateNeu (g.relativeNeu near.position far.position) (g.adjustedOrientation near)
  let nearOrientation := g.adjustedOrientation near
  let farOrientation := g.adjustedOrientation far
  let farPlacement := g.rotateNeu farPlacement
    { yawDegrees := g.sub nearOrientation.yawDegrees farOrientation.yawDegrees
      pitchDegrees := g.sub nearOrientation.pitchDegrees farOrientation.pitchDegrees
      rollDegrees := g.sub nearOrientation.rollDegrees farOrientation.rollDegrees }
  g.directionAngles
    (g.add direction.1 (g.add (g.neg nearPlacement.1) farPlacement.1),
      g.add direction.2.1 (g.add (g.neg nearPlacement.2.1) farPlacement.2.1),
      g.add direction.2.2 (g.add (g.neg nearPlacement.2.2) farPlacement.2.2))

/-- The test `distance > 10.0 && !above_horizon(..)`. -/
def beyondHorizon (near : Position) (nearPlacement : Neu) (far : Position) (farPlacement : Neu) :
    Bool :=
  let distance := g.distanceMeters near far
  F64.lt ⟨0x4024000000000000⟩ distance &&
    !g.aboveHorizon (g.add near.altitudeMeters nearPlacement.2.2)
      (g.add far.altitudeMeters farPlacement.2.2) distance

/-- The closure `profile_placement`. -/
def profilePlacement : AntennaPattern → Option Neu
  | .profile profile => g.getProfileInfo profile.profileId
  | _ => some (⟨0⟩, ⟨0⟩, ⟨0⟩)

/-- The closure `side_gain`. -/
def sideGain (pattern : AntennaPattern) (near : Location) (nearPlacement : Neu) (far : Location)
    (farPlacement : Neu) : Option F64 :=
  match pattern with
  | .idealOmni gainDb => some gainDb
  | .profile profile => do
      let (referenceAzimuth, referenceElevation, _) ←
        g.antennaDirection near nearPlacement far farPlacement
      g.getProfileGain profile.profileId
        (g.normalizeAzimuth (g.sub referenceAzimuth profile.azimuthDegrees))
        (g.normalizeElevation (g.sub referenceElevation profile.elevationDegrees))
        referenceAzimuth referenceElevation
  | .default => none

end Geometry

/-- The closure `fixed`. -/
def fixedGain : AntennaPattern → Option F64
  | .idealOmni gainDb => some gainDb
  | _ => none

/-! ## The code -/

namespace PhyState

/-- `default_antenna_pattern` -/
def defaultAntennaPattern (s : PhyState) (nemId : UInt16) : Option AntennaPattern :=
  if s.fixedAntennaGainEnabled then some (.idealOmni s.fixedAntennaGainDb)
  else (s.antennaProfiles[nemId]?).map fun profile =>
    .profile ⟨profile.profileId, profile.azimuthDegrees, profile.elevationDegrees⟩

/-- The pattern of a node's antenna in place of `Default`. -/
def resolvePattern (s : PhyState) (nemId : UInt16) : AntennaPattern → Option AntennaPattern
  | .default => s.defaultAntennaPattern nemId
  | pattern => some pattern

/-- `update_location` -/
def updateLocation (s : PhyState) (nemId : UInt16) (position : Position)
    (orientation : Option Orientation) (velocity : Option Velocity) : PhyState :=
  let previous := s.locations[nemId]?
  { s with
    locations := s.locations.insert nemId
      { latitudeDegrees := position.latitudeDegrees
        longitudeDegrees := position.longitudeDegrees
        altitudeMeters := position.altitudeMeters
        orientation := (orientation.or (previous.map (·.orientation))).getD Orientation.default
        velocity := velocity.or (previous.bind (·.velocity)) } }

/-- The locations of both nodes. -/
def bothLocations (s : PhyState) (localId source : UInt16) : Option (Location × Location) :=
  (s.locations[localId]?).bind fun near => (s.locations[source]?).map fun far => (near, far)

/-- `antenna_pair_gains_with_placements`, with the antenna manager's gains. -/
def antennaPairGainsWithPlacements (g : Geometry) (s : PhyState) (localId source : UInt16)
    (localPattern remotePattern : AntennaPattern) (localPlacement remotePlacement : Neu) :
    Option (F64 × F64) := do
  let localPattern ← s.resolvePattern localId localPattern
  let remotePattern ← s.resolvePattern source remotePattern
  let locations := s.bothLocations localId source
  if locations.any fun (near, far) =>
      g.beyondHorizon near.position localPlacement far.position remotePlacement then none else
  match fixedGain localPattern, fixedGain remotePattern with
  | some localGain, some remoteGain => some (localGain, remoteGain)
  | _, _ => do
      let (near, far) ← locations
      let localGain ← g.sideGain localPattern near localPlacement far remotePlacement
      let remoteGain ← g.sideGain remotePattern far remotePlacement near localPlacement
      return (localGain, remoteGain)

end PhyState

/-- What a query reads: the nodes, the patterns in place of `Default`, the placements and the
locations. -/
structure Lookup where
  localId : UInt16
  source : UInt16
  localPattern : AntennaPattern
  remotePattern : AntennaPattern
  localPlacement : Neu
  remotePlacement : Neu
  localLocation : Option Location
  remoteLocation : Option Location

/-- The closure `append_pattern`. -/
def patternKey : AntennaPattern → List UInt64
  | .default => [0, 0, 0, 0]
  | .idealOmni gainDb => [1, gainDb.bits, 0, 0]
  | .profile profile =>
      [2, profile.profileId.toUInt64, profile.azimuthDegrees.bits, profile.elevationDegrees.bits]

def placementKey (placement : Neu) : List UInt64 :=
  [placement.1.bits, placement.2.1.bits, placement.2.2.bits]

def locationKey : Option Location → List UInt64
  | some location =>
      [location.latitudeDegrees.bits, location.longitudeDegrees.bits, location.altitudeMeters.bits,
        location.orientation.rollDegrees.bits, location.orientation.pitchDegrees.bits,
        location.orientation.yawDegrees.bits]
  | none => List.replicate 6 0

def isProfile : AntennaPattern → Bool
  | .profile _ => true
  | _ => false

namespace Lookup

/-- The key of a lookup. -/
def key (l : Lookup) : List UInt64 :=
  [l.localId.toUInt64, l.source.toUInt64] ++ patternKey l.localPattern ++
    patternKey l.remotePattern ++ placementKey l.localPlacement ++ placementKey l.remotePlacement ++
    locationKey l.localLocation ++ locationKey l.remoteLocation

def locations (l : Lookup) : Option (Location × Location) :=
  l.localLocation.bind fun near => l.remoteLocation.map fun far => (near, far)

/-- `needs_location` -/
def needsLocation (l : Lookup) : Bool := isProfile l.localPattern || isProfile l.remotePattern

/-- Both nodes have a location, and they do not see each other. -/
def beyondHorizon (g : Geometry) (l : Lookup) : Bool :=
  l.locations.any fun (near, far) =>
    g.beyondHorizon near.position l.localPlacement far.position l.remotePlacement

end Lookup

namespace PhyState

/-- The first part of `antenna_pair_gains_detailed`, up to the key. -/
def lookup (g : Geometry) (s : PhyState) (localId source : UInt16)
    (localPattern remotePattern : AntennaPattern) : Except PhyPathError Lookup := do
  let some localPattern := s.resolvePattern localId localPattern | throw .gainProfile
  let some remotePattern := s.resolvePattern source remotePattern | throw .gainProfile
  let some localPlacement := g.profilePlacement localPattern | throw .gainProfile
  let some remotePlacement := g.profilePlacement remotePattern | throw .gainProfile
  return { localId, source, localPattern, remotePattern, localPlacement, remotePlacement
           localLocation := s.locations[localId]?
           remoteLocation := s.locations[source]? }

/-- `antenna_pair_gains_detailed` -/
def antennaPairGainsDetailed (g : Geometry) (s : PhyState) (localId source : UInt16)
    (localPattern remotePattern : AntennaPattern) :
    Except PhyPathError (F64 × F64 × Bool) × PhyState :=
  match s.lookup g localId source localPattern remotePattern with
  | .error error => (.error error, s)
  | .ok l =>
      match s.gainCache[l.key]? with
      | some (receiveGain, transmitGain) => (.ok (receiveGain, transmitGain, true), s)
      | none =>
          if l.needsLocation && (s.bothLocations localId source).isNone then
            (.error .gainLocation, s)
          else if (s.bothLocations localId source).any fun (near, far) =>
              g.beyondHorizon near.position l.localPlacement far.position l.remotePlacement then
            (.error .gainHorizon, s)
          else
            match s.antennaPairGainsWithPlacements g localId source l.localPattern l.remotePattern
                l.localPlacement l.remotePlacement with
            | none => (.error .gainProfile, s)
            | some (receiveGain, transmitGain) =>
                (.ok (receiveGain, transmitGain, false),
                  { s with gainCache := s.gainCache.insert l.key (receiveGain, transmitGain) })

end PhyState

/-! ## Events -/

/-- An entry of a location event. -/
structure LocationEntry where
  nemId : ℕ
  position : Position
  orientation : Option Orientation
  velocity : Option Velocity

/-- An entry of an antenna profile event. -/
structure ProfileEntry where
  nemId : ℕ
  profileId : ℕ
  azimuthDegrees : F64
  elevationDegrees : F64

/-- The position is finite, its latitude in `-90.0..=90.0` and its longitude in `-180.0..=180.0`. -/
def Position.valid (position : Position) : Bool :=
  position.latitudeDegrees.isFinite && position.longitudeDegrees.isFinite &&
    position.altitudeMeters.isFinite &&
    F64.inRange ⟨0xC056800000000000⟩ ⟨0x4056800000000000⟩ position.latitudeDegrees &&
    F64.inRange ⟨0xC066800000000000⟩ ⟨0x4066800000000000⟩ position.longitudeDegrees

def Velocity.valid (velocity : Velocity) : Bool :=
  velocity.azimuthDegrees.isFinite && velocity.elevationDegrees.isFinite &&
    velocity.magnitudeMetersPerSecond.isFinite && F64.le ⟨0⟩ velocity.magnitudeMetersPerSecond

def Orientation.valid (orientation : Orientation) : Bool :=
  orientation.rollDegrees.isFinite && orientation.pitchDegrees.isFinite &&
    orientation.yawDegrees.isFinite

namespace PhyState

/-- One entry of a location event; a velocity or an orientation that is not valid counts as absent. -/
def handleLocation (s : PhyState) (entry : LocationEntry) : PhyState :=
  match u16TryFrom entry.nemId with
  | none => s
  | some nemId =>
      if entry.position.valid then
        s.updateLocation nemId entry.position (entry.orientation.filter Orientation.valid)
          (entry.velocity.filter Velocity.valid)
      else s

/-- One entry of an antenna profile event. -/
def handleProfile (s : PhyState) (entry : ProfileEntry) : PhyState :=
  match u16TryFrom entry.nemId, u16TryFrom entry.profileId with
  | some nemId, some profileId =>
      if entry.azimuthDegrees.isFinite && entry.elevationDegrees.isFinite then
        { s with
          antennaProfiles := s.antennaProfiles.insert nemId
            ⟨profileId, entry.azimuthDegrees, entry.elevationDegrees⟩ }
      else s
  | _, _ => s

end PhyState

/-- What happens to the layer between and at queries. -/
inductive GainEvent where
  | location (entries : List LocationEntry)
  | antennaProfile (entries : List ProfileEntry)
  | query (localId source : UInt16) (localPattern remotePattern : AntennaPattern)

/-- The state after an event. -/
def gainStep (g : Geometry) (s : PhyState) : GainEvent → PhyState
  | .location entries => entries.foldl PhyState.handleLocation s
  | .antennaProfile entries => entries.foldl PhyState.handleProfile s
  | .query localId source localPattern remotePattern =>
      (s.antennaPairGainsDetailed g localId source localPattern remotePattern).2

/-- The gains, or the error, without the flag that says where they come from. -/
def gainsOf (result : Except PhyPathError (F64 × F64 × Bool)) : Except PhyPathError (F64 × F64) :=
  result.map fun (receiveGain, transmitGain, _) => (receiveGain, transmitGain)

/-- A query returns what it would return if the cache were emptied right before it. -/
def Transparent (g : Geometry) (s : PhyState) : GainEvent → Prop
  | .query localId source localPattern remotePattern =>
      gainsOf (s.antennaPairGainsDetailed g localId source localPattern remotePattern).1 =
        gainsOf (({ s with gainCache := ∅ } : PhyState).antennaPairGainsDetailed g localId source
          localPattern remotePattern).1
  | _ => True

/-! ## The gains of a lookup -/

namespace Lookup

/-- The gains of the two sides. -/
def pairGains (g : Geometry) (l : Lookup) : Option (F64 × F64) :=
  match fixedGain l.localPattern, fixedGain l.remotePattern with
  | some localGain, some remoteGain => some (localGain, remoteGain)
  | _, _ => do
      let (near, far) ← l.locations
      let localGain ← g.sideGain l.localPattern near l.localPlacement far l.remotePlacement
      let remoteGain ← g.sideGain l.remotePattern far l.remotePlacement near l.localPlacement
      return (localGain, remoteGain)

/-- What a query computes when the cache has no entry. -/
def gains (g : Geometry) (l : Lookup) : Except PhyPathError (F64 × F64) :=
  if l.needsLocation && l.locations.isNone then .error .gainLocation
  else if l.beyondHorizon g then .error .gainHorizon
  else
    match l.pairGains g with
    | none => .error .gainProfile
    | some gains => .ok gains

theorem gains_eq_ok {g : Geometry} {l : Lookup} {v : F64 × F64} :
    l.gains g = .ok v ↔
      (l.needsLocation = true → l.locations ≠ none) ∧ l.beyondHorizon g = false ∧
        l.pairGains g = some v := by
  unfold gains
  cases hneeds : l.needsLocation <;> cases hloc : l.locations <;>
    cases hbeyond : l.beyondHorizon g <;> cases hpair : l.pairGains g <;> simp

end Lookup

/-! ## The code computes the gains of its lookups -/

namespace PhyState

theorem resolvePattern_ne_default {s : PhyState} {nemId : UInt16} {pattern resolved : AntennaPattern}
    (h : s.resolvePattern nemId pattern = some resolved) : resolved ≠ .default := by
  rintro rfl
  unfold resolvePattern defaultAntennaPattern at h
  split at h
  · split at h
    · cases h
    · obtain ⟨profile, -, hp⟩ := Option.map_eq_some_iff.mp h
      cases hp
  · next hne =>
      cases h
      exact hne rfl

theorem resolvePattern_self {s : PhyState} {nemId : UInt16} {pattern : AntennaPattern}
    (h : pattern ≠ .default) : s.resolvePattern nemId pattern = some pattern := by
  cases pattern with
  | default => exact absurd rfl h
  | idealOmni gainDb => rfl
  | profile profile => rfl

/-- **What a lookup holds.** -/
theorem lookup_spec {g : Geometry} {s : PhyState} {localId source : UInt16}
    {localPattern remotePattern : AntennaPattern} {l : Lookup}
    (h : s.lookup g localId source localPattern remotePattern = .ok l) :
    l.localPattern ≠ .default ∧ l.remotePattern ≠ .default ∧
      s.bothLocations localId source = l.locations := by
  unfold lookup at h
  split at h
  · next hlocal =>
      split at h
      · next hremote =>
          split at h
          · split at h
            · cases h
              exact ⟨resolvePattern_ne_default hlocal, resolvePattern_ne_default hremote, rfl⟩
            · cases h
          · cases h
      · cases h
  · cases h

/-- With its patterns resolved and the nodes in sight, the inner function gives the pair of gains. -/
theorem antennaPairGainsWithPlacements_eq {g : Geometry} {s : PhyState} {localId source : UInt16}
    {l : Lookup} (hlocal : l.localPattern ≠ .default) (hremote : l.remotePattern ≠ .default)
    (hlocations : s.bothLocations localId source = l.locations)
    (hsight : l.beyondHorizon g = false) :
    s.antennaPairGainsWithPlacements g localId source l.localPattern l.remotePattern
      l.localPlacement l.remotePlacement = l.pairGains g := by
  unfold antennaPairGainsWithPlacements Lookup.pairGains
  unfold Lookup.beyondHorizon at hsight
  rw [resolvePattern_self hlocal, resolvePattern_self hremote, hlocations]
  simp only [Option.bind_eq_bind, Option.bind_some, hsight, Bool.false_eq_true, if_false]

theorem antennaPairGainsDetailed_error {g : Geometry} {s : PhyState} {localId source : UInt16}
    {localPattern remotePattern : AntennaPattern} {error : PhyPathError}
    (h : s.lookup g localId source localPattern remotePattern = .error error) :
    s.antennaPairGainsDetailed g localId source localPattern remotePattern = (.error error, s) := by
  unfold antennaPairGainsDetailed
  rw [h]

/-- **A query is a lookup in a memo table.** -/
theorem antennaPairGainsDetailed_eq {g : Geometry} {s : PhyState} {localId source : UInt16}
    {localPattern remotePattern : AntennaPattern} {l : Lookup}
    (h : s.lookup g localId source localPattern remotePattern = .ok l) :
    s.antennaPairGainsDetailed g localId source localPattern remotePattern =
      ((memo Lookup.key (Lookup.gains g) s.gainCache l).1.map fun (gains, hit) =>
          (gains.1, gains.2, hit),
        { s with gainCache := (memo Lookup.key (Lookup.gains g) s.gainCache l).2 }) := by
  obtain ⟨hlocal, hremote, hlocations⟩ := lookup_spec h
  unfold antennaPairGainsDetailed memo
  rw [h]
  simp only
  cases hcache : s.gainCache[l.key]? with
  | some v => rfl
  | none =>
      simp only
      rw [hlocations]
      unfold Lookup.gains
      split
      · rfl
      · split
        · next hbeyond =>
            rw [if_pos (show l.beyondHorizon g = true from hbeyond)]
            rfl
        · next hsight =>
            have hsight' : l.beyondHorizon g = false := Bool.eq_false_iff.mpr hsight
            rw [antennaPairGainsWithPlacements_eq hlocal hremote hlocations hsight', hsight']
            cases l.pairGains g with
            | none => rfl
            | some v => rfl

end PhyState

/-! ## What the key says -/

theorem length_patternKey (pattern : AntennaPattern) : (patternKey pattern).length = 4 := by
  cases pattern with
  | default => rfl
  | idealOmni gainDb => rfl
  | profile profile => rfl

theorem length_locationKey (location : Option Location) : (locationKey location).length = 6 := by
  cases location with
  | none => rfl
  | some location => rfl

theorem F64.ext_bits {x y : F64} (h : x.bits = y.bits) : x = y := by
  cases x
  cases y
  exact congrArg F64.mk h

theorem patternKey_inj {pattern pattern' : AntennaPattern}
    (h : patternKey pattern = patternKey pattern') : pattern = pattern' := by
  cases pattern with
  | default => cases pattern' <;> simp [patternKey] at h ⊢
  | idealOmni gainDb =>
      cases pattern' <;> simp [patternKey] at h ⊢
      exact F64.ext_bits h
  | profile profile =>
      cases pattern' <;> simp only [patternKey, List.cons.injEq] at h
      · exact absurd h.1 (by decide)
      · exact absurd h.1 (by decide)
      · next profile' =>
          obtain ⟨id, azimuth, elevation⟩ := profile
          obtain ⟨id', azimuth', elevation'⟩ := profile'
          obtain ⟨-, hid, hazimuth, helevation, -⟩ := h
          obtain rfl : id = id' := UInt16.toUInt64_inj.mp hid
          obtain rfl : azimuth = azimuth' := F64.ext_bits hazimuth
          obtain rfl : elevation = elevation' := F64.ext_bits helevation
          rfl

theorem placementKey_inj {placement placement' : Neu}
    (h : placementKey placement = placementKey placement') : placement = placement' := by
  obtain ⟨north, east, up⟩ := placement
  obtain ⟨north', east', up'⟩ := placement'
  simp only [placementKey, List.cons.injEq, and_true] at h
  rw [F64.ext_bits h.1, F64.ext_bits h.2.1, F64.ext_bits h.2.2]

/-- The key of a location gives its position. -/
theorem position_of_locationKey {location location' : Location}
    (h : locationKey (some location) = locationKey (some location')) :
    location.position = location'.position := by
  simp only [locationKey, List.cons.injEq, and_true] at h
  obtain ⟨hlatitude, hlongitude, haltitude, -⟩ := h
  unfold Location.position
  rw [F64.ext_bits hlatitude, F64.ext_bits hlongitude, F64.ext_bits haltitude]

/-- **Lookups of one key** have the same patterns and placements, and the same words for their
locations. -/
theorem Lookup.of_key_eq {e l : Lookup} (h : e.key = l.key) :
    e.localPattern = l.localPattern ∧ e.remotePattern = l.remotePattern ∧
      e.localPlacement = l.localPlacement ∧ e.remotePlacement = l.remotePlacement ∧
      locationKey e.localLocation = locationKey l.localLocation ∧
      locationKey e.remoteLocation = locationKey l.remoteLocation := by
  unfold key at h
  -- all parts have a fixed length, so the list is cut from its end
  obtain ⟨h, hremoteLocation⟩ := List.append_inj' h (by simp only [length_locationKey])
  obtain ⟨h, hlocalLocation⟩ := List.append_inj' h (by simp only [length_locationKey])
  obtain ⟨h, hremotePlacement⟩ := List.append_inj' h rfl
  obtain ⟨h, hlocalPlacement⟩ := List.append_inj' h rfl
  obtain ⟨h, hremotePattern⟩ := List.append_inj' h (by simp only [length_patternKey])
  obtain ⟨-, hlocalPattern⟩ := List.append_inj' h (by simp only [length_patternKey])
  exact ⟨patternKey_inj hlocalPattern, patternKey_inj hremotePattern,
    placementKey_inj hlocalPlacement, placementKey_inj hremotePlacement, hlocalLocation,
    hremoteLocation⟩

/-! ## Compatible lookups -/

/-- The query of a lookup stores an entry when it misses: the nodes have the locations it needs, are
not beyond the horizon, and both patterns have a gain there. -/
def Lookup.Stores (g : Geometry) (l : Lookup) : Prop :=
  (l.needsLocation = true → l.locations ≠ none) ∧ l.beyondHorizon g = false ∧
    (l.pairGains g).isSome = true

instance (g : Geometry) (l : Lookup) : Decidable (l.Stores g) :=
  inferInstanceAs (Decidable (_ ∧ _))

/-- The gains that an earlier lookup stored are right for a later one of the same key: with a profile
among the patterns, the velocities turn both orientations as they did before; without one, a node
that had no location before has not come to lie beyond the horizon. -/
def Compatible (g : Geometry) (earlier later : Lookup) : Prop :=
  earlier.key = later.key → earlier.Stores g →
    if later.needsLocation = true then
      earlier.localLocation.map g.adjustedOrientation = later.localLocation.map g.adjustedOrientation ∧
        earlier.remoteLocation.map g.adjustedOrientation =
          later.remoteLocation.map g.adjustedOrientation
    else earlier.locations = none → later.beyondHorizon g = false

instance (g : Geometry) (earlier later : Lookup) : Decidable (Compatible g earlier later) :=
  inferInstanceAs (Decidable (_ → _ → _))

section

variable {g : Geometry} {e l : Lookup}

/-- A direction depends on the positions and the turned orientations. -/
theorem sideGain_congr {pattern : AntennaPattern} {near near' far far' : Location}
    {nearPlacement farPlacement : Neu} (hnear : near.position = near'.position)
    (hfar : far.position = far'.position)
    (hnearTurn : g.adjustedOrientation near = g.adjustedOrientation near')
    (hfarTurn : g.adjustedOrientation far = g.adjustedOrientation far') :
    g.sideGain pattern near nearPlacement far farPlacement =
      g.sideGain pattern near' nearPlacement far' farPlacement := by
  unfold Geometry.sideGain Geometry.antennaDirection
  rw [hnear, hfar, hnearTurn, hfarTurn]

theorem locations_eq_some {l : Lookup} (h : l.locations ≠ none) :
    ∃ near far, l.localLocation = some near ∧ l.remoteLocation = some far ∧
      l.locations = some (near, far) := by
  obtain ⟨⟨near, far⟩, hloc⟩ := Option.ne_none_iff_exists'.mp h
  have hpair := hloc
  unfold Lookup.locations at hpair
  obtain ⟨near', hnear, hmap⟩ := Option.bind_eq_some_iff.mp hpair
  obtain ⟨far', hfar, hboth⟩ := Option.map_eq_some_iff.mp hmap
  cases hboth
  exact ⟨near, far, hnear, hfar, hloc⟩

theorem locations_of_some {near far : Location} (hnear : l.localLocation = some near)
    (hfar : l.remoteLocation = some far) : l.locations = some (near, far) := by
  unfold Lookup.locations
  rw [hnear, hfar]
  rfl

theorem needsLocation_of_key (h : e.key = l.key) : e.needsLocation = l.needsLocation := by
  obtain ⟨hlocal, hremote, -⟩ := Lookup.of_key_eq h
  unfold Lookup.needsLocation
  rw [hlocal, hremote]

/-- With both nodes located, the horizon is the same for lookups of one key. -/
theorem beyondHorizon_of_key (h : e.key = l.key) (he : e.locations ≠ none) (hl : l.locations ≠ none) :
    e.beyondHorizon g = l.beyondHorizon g := by
  obtain ⟨-, -, hlocalPlacement, hremotePlacement, hlocal, hremote⟩ := Lookup.of_key_eq h
  obtain ⟨near, far, hnear, hfar, hboth⟩ := locations_eq_some he
  obtain ⟨near', far', hnear', hfar', hboth'⟩ := locations_eq_some hl
  rw [hnear, hnear'] at hlocal
  rw [hfar, hfar'] at hremote
  unfold Lookup.beyondHorizon
  rw [hboth, hboth']
  simp only [Option.any_some]
  rw [position_of_locationKey hlocal, position_of_locationKey hremote, hlocalPlacement,
    hremotePlacement]

/-- Without a profile, gains are those of two fixed patterns. -/
theorem fixed_of_pairGains {v : F64 × F64} (hneeds : l.needsLocation = false)
    (h : l.pairGains g = some v) :
    fixedGain l.localPattern = some v.1 ∧ fixedGain l.remotePattern = some v.2 := by
  unfold Lookup.needsLocation at hneeds
  rw [Bool.or_eq_false_iff] at hneeds
  unfold Lookup.pairGains at h
  cases hlocal : l.localPattern <;> cases hremote : l.remotePattern <;>
    simp [hlocal, hremote, isProfile, fixedGain, Geometry.sideGain] at hneeds h ⊢
  exact ⟨congrArg Prod.fst h, congrArg Prod.snd h⟩

theorem pairGains_of_fixed {v : F64 × F64} (hlocal : fixedGain l.localPattern = some v.1)
    (hremote : fixedGain l.remotePattern = some v.2) : l.pairGains g = some v := by
  unfold Lookup.pairGains
  rw [hlocal, hremote]

/-- **Compatible lookups agree**: the gains found for the earlier one are those of the later one. -/
theorem Compatible.agrees (h : Compatible g e l) : Agrees Lookup.key (Lookup.gains g) e l := by
  intro hkey v hv
  obtain ⟨hlocated, hsight, hpair⟩ := Lookup.gains_eq_ok.mp hv
  obtain ⟨hlocalPattern, hremotePattern, hlocalPlacement, hremotePlacement, hlocal, hremote⟩ :=
    Lookup.of_key_eq hkey
  have hneeds := needsLocation_of_key hkey
  have hcompat := h hkey ⟨hlocated, hsight, by rw [hpair]; rfl⟩
  rw [Lookup.gains_eq_ok]
  cases hprofile : l.needsLocation with
  | true =>
      rw [if_pos hprofile] at hcompat
      obtain ⟨hlocalTurn, hremoteTurn⟩ := hcompat
      -- the earlier lookup had both locations, so the later one has them too
      have hboth := hlocated (hneeds.trans hprofile)
      obtain ⟨near, far, hnear, hfar, hpairEq⟩ := locations_eq_some hboth
      rw [hnear, eq_comm, Option.map_some, Option.map_eq_some_iff] at hlocalTurn
      rw [hfar, eq_comm, Option.map_some, Option.map_eq_some_iff] at hremoteTurn
      obtain ⟨near', hnear', hnearTurn⟩ := hlocalTurn
      obtain ⟨far', hfar', hfarTurn⟩ := hremoteTurn
      have hboth' := locations_of_some hnear' hfar'
      have hne' : l.locations ≠ none := by
        rw [hboth']
        exact Option.some_ne_none _
      rw [hnear, hnear'] at hlocal
      rw [hfar, hfar'] at hremote
      refine ⟨fun _ => hne', (beyondHorizon_of_key hkey hboth hne').symm.trans hsight, ?_⟩
      rw [← hpair]
      unfold Lookup.pairGains
      rw [hboth', hpairEq, hlocalPattern, hremotePattern, hlocalPlacement, hremotePlacement]
      simp only [Option.bind_eq_bind, Option.bind_some]
      rw [sideGain_congr (position_of_locationKey hlocal).symm (position_of_locationKey hremote).symm
          hnearTurn hfarTurn,
        sideGain_congr (position_of_locationKey hremote).symm (position_of_locationKey hlocal).symm
          hfarTurn hnearTurn]
  | false =>
      rw [if_neg (by rw [hprofile]; exact Bool.false_ne_true)] at hcompat
      obtain ⟨hfixedLocal, hfixedRemote⟩ := fixed_of_pairGains (hneeds.trans hprofile) hpair
      rw [hlocalPattern] at hfixedLocal
      rw [hremotePattern] at hfixedRemote
      refine ⟨fun htrue => absurd htrue Bool.false_ne_true, ?_,
        pairGains_of_fixed hfixedLocal hfixedRemote⟩
      by_cases he : e.locations = none
      · exact hcompat he
      · by_cases hl : l.locations = none
        · unfold Lookup.beyondHorizon
          rw [hl]
          rfl
        · exact (beyondHorizon_of_key hkey he hl).symm.trans hsight

end

/-! ## Runs -/

/-- The lookups of an event. -/
def eventLookups (g : Geometry) (s : PhyState) : GainEvent → List Lookup
  | .query localId source localPattern remotePattern =>
      (s.lookup g localId source localPattern remotePattern).toOption.toList
  | _ => []

/-- The lookups of a run, oldest first. The cache has no part in them. -/
def runLookups (g : Geometry) : PhyState → List GainEvent → List Lookup
  | _, [] => []
  | s, event :: events => eventLookups g s event ++ runLookups g (gainStep g s event) events

section

variable {g : Geometry}

theorem foldl_gainCache {α : Type} {f : PhyState → α → PhyState}
    (hf : ∀ s a, (f s a).gainCache = s.gainCache) (as : List α) (s : PhyState) :
    (as.foldl f s).gainCache = s.gainCache := by
  induction as generalizing s with
  | nil => rfl
  | cons a as ih => rw [List.foldl_cons, ih, hf]

theorem handleLocation_gainCache (s : PhyState) (entry : LocationEntry) :
    (s.handleLocation entry).gainCache = s.gainCache := by
  unfold PhyState.handleLocation
  split
  · rfl
  · split
    · rfl
    · rfl

theorem handleProfile_gainCache (s : PhyState) (entry : ProfileEntry) :
    (s.handleProfile entry).gainCache = s.gainCache := by
  unfold PhyState.handleProfile
  split
  · split
    · rfl
    · rfl
  · rfl

theorem gainsOf_memo (cache : ExtTreeMap (List UInt64) (F64 × F64)) (l : Lookup) :
    gainsOf ((memo Lookup.key (Lookup.gains g) cache l).1.map fun (gains, hit) =>
      (gains.1, gains.2, hit)) = (memo Lookup.key (Lookup.gains g) cache l).1.map (·.1) := by
  cases (memo Lookup.key (Lookup.gains g) cache l).1 with
  | error e => rfl
  | ok v => rfl

/-- **One event**: with a sound cache and a compatible past, a query is transparent and the cache
stays sound. -/
theorem gainStep_transparent {past : List Lookup} {s : PhyState}
    (h : Sound Lookup.key (Lookup.gains g) past s.gainCache) (event : GainEvent)
    (hcompat : ∀ e ∈ past, ∀ l ∈ eventLookups g s event, Compatible g e l) :
    Transparent g s event ∧
      Sound Lookup.key (Lookup.gains g) ((eventLookups g s event).reverse ++ past)
        (gainStep g s event).gainCache := by
  cases event with
  | location entries =>
      refine ⟨trivial, ?_⟩
      show Sound _ _ past (entries.foldl PhyState.handleLocation s).gainCache
      rw [foldl_gainCache handleLocation_gainCache]
      exact h
  | antennaProfile entries =>
      refine ⟨trivial, ?_⟩
      show Sound _ _ past (entries.foldl PhyState.handleProfile s).gainCache
      rw [foldl_gainCache handleProfile_gainCache]
      exact h
  | query localId source localPattern remotePattern =>
      unfold Transparent gainStep
      simp only
      have hfresh : ({ s with gainCache := ∅ } : PhyState).lookup g localId source localPattern
        remotePattern = s.lookup g localId source localPattern remotePattern := rfl
      have hlookups : eventLookups g s (.query localId source localPattern remotePattern) =
        (s.lookup g localId source localPattern remotePattern).toOption.toList := rfl
      cases hlookup : s.lookup g localId source localPattern remotePattern with
      | error e =>
          rw [hlookup] at hfresh hlookups
          rw [PhyState.antennaPairGainsDetailed_error hlookup,
            PhyState.antennaPairGainsDetailed_error hfresh, hlookups]
          exact ⟨rfl, h⟩
      | ok l =>
          rw [hlookup] at hfresh hlookups
          rw [hlookups] at hcompat ⊢
          rw [PhyState.antennaPairGainsDetailed_eq hlookup, PhyState.antennaPairGainsDetailed_eq hfresh]
          refine ⟨?_, h.memo l⟩
          rw [gainsOf_memo, gainsOf_memo, h.memo_fst fun e he => ?_,
            sound_empty.memo_fst fun e he => absurd he List.not_mem_nil]
          exact (hcompat e he l List.mem_cons_self).agrees

/-- **Runs with compatible lookups** are transparent from any sound cache on. -/
theorem run_transparent :
    ∀ (events : List GainEvent) (s : PhyState) (past : List Lookup),
      Sound Lookup.key (Lookup.gains g) past s.gainCache →
      (∀ e ∈ past, ∀ l ∈ runLookups g s events, Compatible g e l) →
      (runLookups g s events).Pairwise (Compatible g) →
      RunMeets (fun s event => some (gainStep g s event)) (Transparent g) s events := by
  intro events
  induction events with
  | nil =>
      intro s past _ _ _
      trivial
  | cons event events ih =>
      intro s past h hpast hpair
      obtain ⟨-, hrest, hcross⟩ := List.pairwise_append.mp hpair
      obtain ⟨htransparent, hsound⟩ := gainStep_transparent h event fun e he l hl =>
        hpast e he l (List.mem_append_left _ hl)
      refine ⟨htransparent, ?_⟩
      intro s' hs'
      cases hs'
      refine ih _ _ hsound ?_ hrest
      intro e he l hl
      rcases List.mem_append.mp he with he | he
      · exact hcross e (List.mem_reverse.mp he) l hl
      · exact hpast e he l (List.mem_append_right _ hl)

end

/-- **The gain cache cannot be noticed**: in every run of location events, antenna profile events and
queries whose lookups are compatible with all earlier ones, each query returns the gains or the error
it would return with an empty cache. -/
theorem gain_cache_transparent (g : Geometry) {s : PhyState} (hempty : s.gainCache = ∅)
    (events : List GainEvent) (hcompat : (runLookups g s events).Pairwise (Compatible g)) :
    RunMeets (fun s event => some (gainStep g s event)) (Transparent g) s events := by
  apply run_transparent events s [] _ _ hcompat
  · rw [hempty]
    exact sound_empty
  · intro e he
    cases he

/-! ## Two nodes on the equator -/

/-- Latitude, longitude and altitude zero. -/
def zeroPosition : Position := ⟨⟨0⟩, ⟨0⟩, ⟨0⟩⟩

/-- The point on the equator at 90 degrees east. -/
def eastPosition : Position := ⟨⟨0⟩, ⟨0x4056800000000000⟩, ⟨0⟩⟩

/-- The geometry of these two points: they are 9020 km apart, and with altitudes of zero neither sees
beyond its own place. Nothing else is used with fixed gains. -/
def equator : Geometry :=
  { add := fun x y => if x = ⟨0⟩ then y else x
    sub := fun x _ => x
    neg := fun x => x
    distanceMeters := fun p q => if p = q then ⟨0⟩ else ⟨0x41613451fb236b57⟩
    aboveHorizon := fun _ _ _ => false
    relativeNeu := fun _ _ => (⟨0⟩, ⟨0⟩, ⟨0⟩)
    rotateNeu := fun v _ => v
    directionAngles := fun _ => none
    normalizeAzimuth := fun x => x
    normalizeElevation := fun x => x
    getProfileInfo := fun _ => none
    getProfileGain := fun _ _ _ _ _ => none }

def locate (nemId : ℕ) (position : Position) : GainEvent := .location [⟨nemId, position, none, none⟩]

/-- A node is queried before it has a location, then with a location far away, and last with both
nodes at one place. -/
theorem gain_cache_transparent_equator :
    RunMeets (fun s event => some (gainStep equator s event)) (Transparent equator) PhyState.new
      [.query 1 2 .default .default, locate 2 eastPosition, .query 1 2 .default .default,
        locate 1 eastPosition, .query 1 2 .default .default, .query 1 2 .default .default] :=
  gain_cache_transparent equator rfl _ (by decide +kernel)

/-- The first location of a node is latitude, longitude and altitude zero: the query finds the gains
it stored when the node had no location, where without the cache it fails with `gainHorizon`. -/
theorem gain_cache_hides_horizon :
    ¬ RunMeets (fun s event => some (gainStep equator s event)) (Transparent equator) PhyState.new
      [locate 2 eastPosition, .query 1 2 .default .default, locate 1 zeroPosition,
        .query 1 2 .default .default] := by
  rintro ⟨-, h⟩
  obtain ⟨-, h⟩ := h _ rfl
  obtain ⟨-, h⟩ := h _ rfl
  obtain ⟨hquery, -⟩ := h _ rfl
  exact absurd hquery (by unfold Transparent; decide +kernel)

end Emane.Phy
