import Mathlib
import Emane.Ota.Receive

set_option autoImplicit false

/-! # The wire form of headers

The results about the over-the-air manager take the codec of headers as a parameter. Here is one, in the
format that the protocol's description gives: each field is a tag and a number in base 128 or a byte
string with its length, and the required fields are written in their order. The decoder reads the fields
in the order in which they are written. `decode_encode` is the round trip.
-/

namespace Emane.Ota

open Emane.Lib

/-! ## Fields -/

/-- A number in base 128, least significant digit first; all bytes but the last have their top bit
set. -/
def varint (n : ℕ) : Bytes :=
  if n < 128 then [UInt8.ofNat n] else UInt8.ofNat (128 + n % 128) :: varint (n / 128)
termination_by n

def readVarint : Bytes → Option (ℕ × Bytes)
  | [] => none
  | b :: bs =>
      if b.toNat < 128 then some (b.toNat, bs)
      else (readVarint bs).map fun r => (b.toNat - 128 + 128 * r.1, r.2)

/-- A number field. -/
def varintField (tag : UInt8) (n : ℕ) : Bytes := tag :: varint n

/-- A field with a byte string. -/
def bytesField (tag : UInt8) (bytes : Bytes) : Bytes := varintField tag bytes.length ++ bytes

def readVarintField (tag : UInt8) : Bytes → Option (ℕ × Bytes)
  | [] => none
  | b :: bs => if b = tag then readVarint bs else none

def readBytesField (tag : UInt8) (bs : Bytes) : Option (Bytes × Bytes) :=
  (readVarintField tag bs).bind fun r =>
    if r.1 ≤ r.2.length then some (r.2.take r.1, r.2.drop r.1) else none

theorem readVarint_append (n : ℕ) (rest : Bytes) : readVarint (varint n ++ rest) = some (n, rest) := by
  induction n using Nat.strong_induction_on with
  | _ n ih =>
      rw [varint]
      split
      · next hsmall =>
          have hbyte : (UInt8.ofNat n).toNat = n := by
            rw [UInt8.toNat_ofNat']
            omega
          rw [List.singleton_append, readVarint, hbyte, if_pos hsmall]
      · next hbig =>
          have hbyte : (UInt8.ofNat (128 + n % 128)).toNat = 128 + n % 128 := by
            rw [UInt8.toNat_ofNat']
            omega
          rw [List.cons_append, readVarint, hbyte, if_neg (by omega), ih (n / 128) (by omega),
            Option.map_some]
          simp only [Option.some.injEq, Prod.mk.injEq, and_true]
          omega

theorem readVarintField_append (tag : UInt8) (n : ℕ) (rest : Bytes) :
    readVarintField tag (varintField tag n ++ rest) = some (n, rest) := by
  rw [varintField, List.cons_append, readVarintField, if_pos rfl, readVarint_append]

theorem readBytesField_append (tag : UInt8) (bytes rest : Bytes) :
    readBytesField tag (bytesField tag bytes ++ rest) = some (bytes, rest) := by
  rw [readBytesField, bytesField, List.append_assoc, readVarintField_append, Option.bind_some,
    if_pos (by rw [List.length_append]; omega), List.take_left, List.drop_left]

/-! ## Headers -/

namespace PayloadInfo

def encode (info : PayloadInfo) : Bytes :=
  varintField 0x08 info.eventLength.toNat ++ varintField 0x10 info.controlLength.toNat ++
    varintField 0x18 info.dataLength.toNat

def decode (bytes : Bytes) : Option PayloadInfo := do
  let (event, bytes) ← readVarintField 0x08 bytes
  let (control, bytes) ← readVarintField 0x10 bytes
  let (data, _) ← readVarintField 0x18 bytes
  some ⟨UInt32.ofNat event, UInt32.ofNat control, UInt32.ofNat data⟩

theorem decode_encode (info : PayloadInfo) : decode info.encode = some info := by
  have hlast := readVarintField_append 0x18 info.dataLength.toNat []
  rw [List.append_nil] at hlast
  rw [decode, encode, List.append_assoc, readVarintField_append]
  simp only [Option.bind_eq_bind, Option.bind_some]
  rw [readVarintField_append]
  simp only [Option.bind_some]
  rw [hlast]
  simp only [Option.bind_some, UInt32.ofNat_toNat]

end PayloadInfo

namespace OtaHeader

def encode (header : OtaHeader) : Bytes :=
  varintField 0x08 header.source.toNat ++ varintField 0x10 header.destination.toNat ++
    varintField 0x18 header.sequence.toNat ++ bytesField 0x22 header.uuid ++
    header.payloadInfo.elim [] fun info => bytesField 0x2a info.encode

/-- The optional field at the end. -/
def decodePayloadInfo (bytes : Bytes) : Option (Option PayloadInfo) :=
  if bytes = [] then some none
  else (readBytesField 0x2a bytes).bind fun r => (PayloadInfo.decode r.1).map some

def decode (bytes : Bytes) : Option OtaHeader := do
  let (source, bytes) ← readVarintField 0x08 bytes
  let (destination, bytes) ← readVarintField 0x10 bytes
  let (sequence, bytes) ← readVarintField 0x18 bytes
  let (uuid, bytes) ← readBytesField 0x22 bytes
  let payloadInfo ← decodePayloadInfo bytes
  some ⟨UInt32.ofNat source, UInt32.ofNat destination, UInt64.ofNat sequence, uuid, payloadInfo⟩

theorem decodePayloadInfo_encode (info : Option PayloadInfo) :
    decodePayloadInfo (info.elim [] fun info => bytesField 0x2a info.encode) = some info := by
  cases info with
  | none => rfl
  | some info =>
      have hread := readBytesField_append 0x2a info.encode []
      rw [List.append_nil] at hread
      have hne : bytesField 0x2a info.encode ≠ [] := by simp [bytesField, varintField]
      rw [Option.elim_some, decodePayloadInfo, if_neg hne, hread, Option.bind_some,
        PayloadInfo.decode_encode, Option.map_some]

/-- **A header is read back.** -/
theorem decode_encode (header : OtaHeader) : decode header.encode = some header := by
  rw [decode, encode]
  simp only [List.append_assoc, Option.bind_eq_bind, readVarintField_append, readBytesField_append,
    Option.bind_some, decodePayloadInfo_encode, UInt32.ofNat_toNat, UInt64.ofNat_toNat]

end OtaHeader

end Emane.Ota
