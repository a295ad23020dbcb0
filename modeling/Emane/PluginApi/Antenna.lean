import Emane.PluginApi.Tables

/-!
# Antennas on the wire

An antenna profile is a fixed-length control; an antenna pattern is a tagged record inside the
transmit properties and the antenna updates. The pattern's encoder appends to the message under
construction and its decoder moves an offset, so the codec is stated at every place of a message
(`AntennaPattern.decode_bytes`), and what stands at the place is `AntennaPattern.bytes`.
-/

set_option autoImplicit false

namespace Emane.PluginApi

open Emane.Lib

/-- `read_u16` -/
def readU16 (data : Bytes) : Cursor UInt16 := readBe UInt16 data

/-- `read_u64` -/
def readU64 (data : Bytes) : Cursor UInt64 := readBe UInt64 data

theorem readU16_eq {data : Bytes} {o : Nat} {x : UInt16} (hdata : data.length < 2 ^ 64)
    (h : StandsAt data o (toBeBytes x)) : readU16 data o = .ok (x, o + 2) := readBe_eq hdata h

theorem readU64_eq {data : Bytes} {o : Nat} {x : UInt64} (hdata : data.length < 2 ^ 64)
    (h : StandsAt data o (toBeBytes x)) : readU64 data o = .ok (x, o + 8) := readBe_eq hdata h

/-! ## Antenna profiles -/

/-- The bits below the sign. -/
def F64.magnitude (x : F64) : UInt64 := x.bits &&& 0x7fffffffffffffff

def F64.isNan (x : F64) : Bool := x.magnitude > 0x7ff0000000000000

/-- The numbers that are no NaN are ordered as their magnitudes with their signs. -/
def F64.signedMagnitude (x : F64) : Int :=
  if x.bits < 0x8000000000000000 then (x.magnitude.toNat : Int) else -(x.magnitude.toNat : Int)

/-- The comparison `x <= y`, false when one of them is a NaN. -/
def F64.le (x y : F64) : Bool :=
  !x.isNan && !y.isNan && decide (x.signedMagnitude ≤ y.signedMagnitude)

/-- The comparison `x < y`, false when one of them is a NaN. -/
def F64.lt (x y : F64) : Bool :=
  !x.isNan && !y.isNan && decide (x.signedMagnitude < y.signedMagnitude)

/-- `(lo..=hi).contains(&x)` -/
def F64.inRange (lo hi x : F64) : Bool := lo.le x && x.le hi

structure TxAntennaProfile where
  profileId : UInt16
  azimuthDegrees : F64
  elevationDegrees : F64
  deriving DecidableEq

/-- The test of `TxAntennaProfile::encode`: a profile, an azimuth in `0.0..=360.0` and an elevation
in `-90.0..=90.0`. -/
def TxAntennaProfile.valid (self : TxAntennaProfile) : Bool :=
  self.profileId != 0 &&
    self.azimuthDegrees.isFinite && F64.inRange ⟨0⟩ ⟨0x4076800000000000⟩ self.azimuthDegrees &&
    self.elevationDegrees.isFinite &&
    F64.inRange ⟨0xC056800000000000⟩ ⟨0x4056800000000000⟩ self.elevationDegrees

/-- `TxAntennaProfile::encode` -/
def TxAntennaProfile.encode (self : TxAntennaProfile) : Option Bytes :=
  if !self.valid then
    none
  else
    some ([propertiesVersion] ++ toBeBytes self.profileId ++ toBeBytes self.azimuthDegrees.bits ++
      toBeBytes self.elevationDegrees.bits)

-- 0.0, -0.0 and 360.0 are in the range of azimuths, the next number after 360.0 is not.
example : F64.inRange ⟨0⟩ ⟨0x4076800000000000⟩ ⟨0⟩ = true ∧
    F64.inRange ⟨0⟩ ⟨0x4076800000000000⟩ ⟨0x8000000000000000⟩ = true ∧
    F64.inRange ⟨0⟩ ⟨0x4076800000000000⟩ ⟨0x4076800000000000⟩ = true ∧
    F64.inRange ⟨0⟩ ⟨0x4076800000000000⟩ ⟨0x4076800000000001⟩ = false := by decide

/-! ## Antenna patterns -/

inductive AntennaPattern
  | default
  | idealOmni (gainDb : F64)
  | profile (profile : TxAntennaProfile)
  deriving DecidableEq

/-- The fields of a pattern on the wire. -/
structure PatternFields where
  kind : UInt8
  gain : F64
  profileId : UInt16
  azimuth : F64
  elevation : F64

def PatternFields.bytes (fields : PatternFields) : Bytes :=
  [fields.kind] ++ toBeBytes fields.gain.bits ++ toBeBytes fields.profileId ++
    toBeBytes fields.azimuth.bits ++ toBeBytes fields.elevation.bits

/-- The first part of `AntennaPattern::decode`. -/
def PatternFields.read (data : Bytes) : Cursor PatternFields := do
  let kind ← readByte data
  let gain := F64.mk (← readU64 data)
  let profileId ← readU16 data
  let azimuth := F64.mk (← readU64 data)
  let elevation := F64.mk (← readU64 data)
  return { kind, gain, profileId, azimuth, elevation }

/-- The fields of a pattern, whether or not it can be encoded. -/
def AntennaPattern.fields : AntennaPattern → PatternFields
  | .default => ⟨0, ⟨0⟩, 0, ⟨0⟩, ⟨0⟩⟩
  | .idealOmni gainDb => ⟨1, gainDb, 0, ⟨0⟩, ⟨0⟩⟩
  | .profile p => ⟨2, ⟨0⟩, p.profileId, p.azimuthDegrees, p.elevationDegrees⟩

/-- The guards of the `match` of `AntennaPattern::encode`. -/
def AntennaPattern.valid : AntennaPattern → Bool
  | .default => true
  | .idealOmni gainDb => gainDb.isFinite
  | .profile p => p.encode.isSome

/-- `AntennaPattern::encode` -/
def AntennaPattern.encode (self : AntennaPattern) (data : Bytes) : Option Bytes :=
  if self.valid then some (data ++ self.fields.bytes) else none

/-- `AntennaPattern::decode` -/
def AntennaPattern.decode (data : Bytes) : Cursor AntennaPattern := do
  let fields ← PatternFields.read data
  if fields.kind = 0 then
    return .default
  else if fields.kind = 1 ∧ fields.gain.isFinite then
    return .idealOmni fields.gain
  else if fields.kind = 2 then
    let profile : TxAntennaProfile :=
      ⟨fields.profileId, fields.azimuth, fields.elevation⟩
    match profile.encode with
    | some _ => return .profile profile
    | none => throw .rejected
  else
    throw .rejected

/-- `AntennaPattern::ENCODED_LEN` -/
@[simp]
theorem PatternFields.length_bytes (fields : PatternFields) : fields.bytes.length = 27 := rfl

theorem PatternFields.read_bytes {fields : PatternFields} {data : Bytes} {o : Nat}
    (hdata : data.length < 2 ^ 64) (h : StandsAt data o fields.bytes) :
    read data o = .ok (fields, o + 27) := by
  simp only [bytes, List.append_assoc, standsAt_append, List.length_singleton,
    BigEndian.length_toBeBytes, width_uint16, width_uint64] at h
  obtain ⟨hkind, hgain, hid, hazimuth, helevation⟩ := h
  unfold read
  rw [cursor_bind_eq (readByte_eq hkind), cursor_bind_eq (readU64_eq hdata hgain),
    cursor_bind_eq (readU16_eq hdata hid), cursor_bind_eq (readU64_eq hdata hazimuth),
    cursor_bind_eq (readU64_eq hdata helevation)]
  rfl

/-- The encoder appends the bytes of a valid pattern and refuses the others. -/
theorem AntennaPattern.encode_eq_some {self : AntennaPattern} {data c : Bytes} :
    self.encode data = some c ↔ self.valid = true ∧ c = data ++ self.fields.bytes := by
  unfold encode
  split
  · next h => simp [h, eq_comm]
  · next h => simp [h]

/-- The decoder finds a valid pattern at every place where its bytes stand. -/
theorem AntennaPattern.decode_bytes {self : AntennaPattern} {data : Bytes} {o : Nat}
    (hdata : data.length < 2 ^ 64) (hvalid : self.valid = true)
    (h : StandsAt data o self.fields.bytes) : decode data o = .ok (self, o + 27) := by
  unfold decode
  rw [cursor_bind_eq (PatternFields.read_bytes hdata h)]
  cases self with
  | default => rfl
  | idealOmni gainDb =>
      have hkind : (idealOmni gainDb).fields.kind ≠ 0 := by
        show (1 : UInt8) ≠ 0
        decide
      have hone : (idealOmni gainDb).fields.kind = 1 ∧ (idealOmni gainDb).fields.gain.isFinite :=
        ⟨rfl, hvalid⟩
      rw [if_neg hkind, if_pos hone]
      rfl
  | profile p =>
      have hkind : (2 : UInt8) ≠ 0 ∧ (2 : UInt8) ≠ 1 := by decide
      obtain ⟨bytes, hbytes⟩ := Option.isSome_iff_exists.mp hvalid
      rw [if_neg (show (profile p).fields.kind ≠ 0 from hkind.1),
        if_neg fun h => hkind.2 h.1, if_pos (show (profile p).fields.kind = 2 from rfl)]
      simp only [fields, hbytes]
      rfl

/-- On any input the decoder stays inside it and returns only valid patterns. -/
theorem AntennaPattern.meets_decode (data : Bytes) (o : Nat) :
    Meets (decode data o) (fun r => r.1.valid = true) := by
  have hfields : Meets (PatternFields.read data o) (fun _ => True) := by
    unfold PatternFields.read readU16 readU64
    refine meets_bind_cursor (meets_readByte data _) fun _ _ _ => ?_
    repeat refine meets_bind_cursor (meets_readBe data _) fun _ _ _ => ?_
    trivial
  refine meets_bind_cursor hfields fun fields o' _ => ?_
  split
  · rfl
  split
  · next hone => exact hone.2
  split
  · dsimp only
    generalize (⟨fields.profileId, fields.azimuth, fields.elevation⟩ : TxAntennaProfile) = p
    cases hencode : p.encode with
    | some _ => exact Option.isSome_iff_exists.mpr ⟨_, hencode⟩
    | none => trivial
  · trivial

theorem AntennaPattern.exact : ExactInPlace encode decode := by
  have hround : ∀ (x : AntennaPattern) (data c : Bytes), x.encode data = some c →
      ∀ post, (c ++ post).length < 2 ^ 64 → decode (c ++ post) data.length = .ok (x, c.length) := by
    intro x data c hc post hpost
    obtain ⟨hvalid, rfl⟩ := encode_eq_some.mp hc
    rw [decode_bytes hpost hvalid (standsAt_mid data _ post), List.length_append,
      PatternFields.length_bytes]
  constructor
  · exact hround
  · exact fun b o => (meets_iff.mp (meets_decode b o)).1
  · intro b o y o' hy data
    have hvalid := (meets_iff.mp (meets_decode b o)).2 _ hy
    have hencode : y.encode data = some _ := encode_eq_some.mpr ⟨hvalid, rfl⟩
    exact ⟨_, hencode, hround y data _ hencode⟩

end Emane.PluginApi
