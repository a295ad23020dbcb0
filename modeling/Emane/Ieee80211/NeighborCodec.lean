import Mathlib
import Emane.Lib.Bytes
import Emane.Lib.Loop

set_option autoImplicit false

/-! # The one-hop neighbour event

A node tells the others its neighbours in an event: its own id, and an entry for each neighbour. The
numbers are written in base 128, the lowest digit first, each digit but the last with the high bit set.

`readVarint_pushVarint` is the round trip of the numbers and `decode_encode` the one of the event. The
decoder looks at its cursor before each step, so it ends on all bytes (`decodeLoop_ends`).
-/

namespace Emane.Ieee80211

open Emane.Lib

/-! ## Numbers -/

/-- `push_varint` -/
def pushVarint (data : Bytes) (value : UInt64) : Bytes :=
  if 0x80 ≤ value then pushVarint (data ++ [(value.toUInt8 &&& 0x7f) ||| 0x80]) (value >>> 7)
  else data ++ [value.toUInt8]
termination_by value.toNat
decreasing_by
  rename_i hlarge
  have hlarge' : 128 ≤ value.toNat := hlarge
  simp only [UInt64.toNat_shiftRight, UInt64.reduceToNat, Nat.reduceMod,
    Nat.shiftRight_eq_div_pow]
  omega

/-- The loop of `read_varint`, over the indices that are left. -/
def readDigits (data : Bytes) : List ℕ → UInt64 → ℕ → Option (UInt64 × ℕ)
  | [], _, _ => none
  | index :: indices, value, offset => do
      let byte ← data[offset]?
      if index = 9 ∧ 1 < byte then none
      else
        let value := value ||| ((byte &&& 0x7f).toUInt64 <<< UInt64.ofNat (index * 7))
        if byte &&& 0x80 = 0 then some (value, offset + 1)
        else readDigits data indices value (offset + 1)

/-- `read_varint`: the number at the offset, and the offset behind it. -/
def readVarint (data : Bytes) (offset : ℕ) : Option (UInt64 × ℕ) :=
  readDigits data (List.range 10) 0 offset

/-! ## The event -/

/-- The field of a neighbour in `encode_one_hop_neighbors`. -/
def pushNeighbor (data : Bytes) (neighbor : UInt16) : Bytes :=
  let entry := pushVarint [0x08] neighbor.toUInt64
  pushVarint (data ++ [0x12]) (UInt64.ofNat entry.length) ++ entry

/-- `encode_one_hop_neighbors` -/
def encodeOneHopNeighbors (source : UInt16) (neighbors : List UInt16) : Bytes :=
  neighbors.foldl pushNeighbor (pushVarint [0x08] source.toUInt64)

/-- `u16::try_from` -/
def tryU16 (value : UInt64) : Option UInt16 :=
  if value.toNat < 2 ^ 16 then some value.toUInt16 else none

/-- The variables of the loop of `decode_one_hop_neighbors`. -/
structure Decoded where
  offset : ℕ
  source : Option UInt16
  neighbors : Finset UInt16

/-- One turn of the loop. A sum of offset and length that overflows is behind the end of the data as
well. -/
def decodeField (data : Bytes) (s : Decoded) : Option Decoded := do
  let (tag, offset) ← readVarint data s.offset
  if tag = 0x08 then
    let (value, offset) ← readVarint data offset
    let source ← tryU16 value
    some { s with offset := offset, source := some source }
  else if tag = 0x12 then
    let (len, offset) ← readVarint data offset
    let stop := offset + len.toNat
    if data.length < stop then none
    else
      let (entryTag, entryOffset) ← readVarint data offset
      if entryTag ≠ 0x08 then none
      else
        let (value, entryOffset) ← readVarint data entryOffset
        let neighbor ← tryU16 value
        -- the entry's own cursor may have run past its end
        if entryOffset ≠ stop then none
        else some { s with offset := stop, neighbors := insert neighbor s.neighbors }
  else none

/-- The loop's body; `none` is a `return None`. -/
def decodeTurn (data : Bytes) : Option Decoded → Turn (Option Decoded)
  | none => .done none
  | some s =>
      if s.offset < data.length then
        match decodeField data s with
        | none => .done none
        | some s' => .again (some s')
      else .done (some s)

/-- `decode_one_hop_neighbors`; the outer option is `none` if the loop takes more turns than there are
bytes. -/
def decodeOneHopNeighbors (data : Bytes) : Option (Option (UInt16 × Finset UInt16)) :=
  (loop (decodeTurn data) (data.length + 1) (some ⟨0, none, ∅⟩)).map fun decoded =>
    decoded.bind fun s => s.source.map fun source => (source, s.neighbors)

/-! ## Digits -/

/-- `push_varint` writes behind what is there. -/
theorem pushVarint_append (data more : Bytes) (value : UInt64) :
    pushVarint (data ++ more) value = data ++ pushVarint more value := by
  fun_induction pushVarint more value with
  | case1 more value hlarge ih =>
      rw [pushVarint, if_pos hlarge, List.append_assoc, ih]
  | case2 more value hsmall =>
      rw [pushVarint, if_neg hsmall, List.append_assoc]

/-- The bytes of a number. -/
def varint (value : UInt64) : Bytes := pushVarint [] value

theorem pushVarint_eq (data : Bytes) (value : UInt64) :
    pushVarint data value = data ++ varint value := by
  have happend := pushVarint_append data [] value
  rwa [List.append_nil] at happend

theorem varint_small {value : UInt64} (h : value.toNat < 128) : varint value = [value.toUInt8] := by
  have hsmall : ¬ 0x80 ≤ value := not_le_of_gt h
  rw [varint, pushVarint, if_neg hsmall, List.nil_append]

theorem toNat_shiftRight_seven (value : UInt64) : (value >>> 7).toNat = value.toNat / 128 := by
  simp [UInt64.toNat_shiftRight, Nat.shiftRight_eq_div_pow]

/-- The low seven bits of a byte. -/
theorem toNat_and_7f (b : UInt8) : (b &&& 0x7f).toNat = b.toNat % 128 := by
  rw [UInt8.toNat_and]
  exact Nat.and_two_pow_sub_one_eq_mod b.toNat 7

theorem toNat_or_80 {b : UInt8} (h : b.toNat < 128) : (b ||| 0x80).toNat = b.toNat + 128 := by
  have hor := Nat.two_pow_add_eq_or_of_lt (i := 7) h 1
  rw [UInt8.toNat_or, Nat.or_comm]
  simpa [Nat.add_comm] using hor.symm

/-- A number of more than one digit. -/
theorem varint_large {value : UInt64} (h : 128 ≤ value.toNat) :
    ∃ b : UInt8, varint value = b :: varint (value >>> 7) ∧ b.toNat = value.toNat % 128 + 128 := by
  have hlarge : 0x80 ≤ value := h
  refine ⟨(value.toUInt8 &&& 0x7f) ||| 0x80, ?_, ?_⟩
  · rw [varint, pushVarint, if_pos hlarge, List.nil_append, pushVarint_eq, List.singleton_append]
  · rw [toNat_or_80] <;> rw [toNat_and_7f, UInt64.toNat_toUInt8] <;> omega

/-- The high bit of a byte. -/
theorem and_80_eq_zero_iff (b : UInt8) : b &&& 0x80 = 0 ↔ b.toNat < 128 := by
  have hlt := b.toNat_lt
  have hbit : (b &&& 0x80).toNat = (decide (b.toNat / 128 % 2 = 1)).toNat * 128 := by
    rw [UInt8.toNat_and, ← Nat.testBit_eq_decide_div_mod_eq (i := 7)]
    exact Nat.and_two_pow b.toNat 7
  rw [← UInt8.toNat_inj, hbit]
  by_cases hhigh : b.toNat / 128 % 2 = 1
  · simp only [hhigh, decide_true, Bool.toNat_true]
    norm_num
    omega
  · simp only [hhigh, decide_false, Bool.toNat_false]
    norm_num
    omega

/-! ## Reading a number -/

/-- What a digit adds to the value. -/
theorem toNat_or_shiftLeft {acc : UInt64} (digit : UInt8) {index : ℕ} (hindex : index < 10)
    (hacc : acc.toNat < 2 ^ (index * 7)) (hfits : digit.toNat * 2 ^ (index * 7) < 2 ^ 64) :
    (acc ||| (digit.toUInt64 <<< UInt64.ofNat (index * 7))).toNat =
      acc.toNat + digit.toNat * 2 ^ (index * 7) := by
  have hshift : (UInt64.ofNat (index * 7)).toNat % 64 = index * 7 := by
    rw [UInt64.toNat_ofNat_of_lt' (by rw [UInt64.size]; omega)]
    omega
  rw [UInt64.toNat_or, UInt64.toNat_shiftLeft, hshift, UInt8.toNat_toUInt64, Nat.shiftLeft_eq,
    Nat.mod_eq_of_lt hfits, Nat.or_comm, Nat.mul_comm digit.toNat,
    ← Nat.two_pow_add_eq_or_of_lt hacc, Nat.add_comm]

/-- One turn of the loop. -/
theorem readDigits_cons {data : Bytes} {b : UInt8} {rest : Bytes} {index : ℕ} {indices : List ℕ}
    {acc : UInt64} {offset : ℕ} (hdata : StandsAt data offset (b :: rest))
    (hlast : index = 9 → b.toNat ≤ 1) :
    readDigits data (index :: indices) acc offset =
      if b.toNat < 128 then
        some (acc ||| ((b &&& 0x7f).toUInt64 <<< UInt64.ofNat (index * 7)), offset + 1)
      else
        readDigits data indices
          (acc ||| ((b &&& 0x7f).toUInt64 <<< UInt64.ofNat (index * 7))) (offset + 1) := by
  have hbyte : data[offset]? = some b := by
    obtain ⟨post, hpost⟩ := hdata
    rw [← List.head?_drop, ← hpost]
    rfl
  have hguard : ¬ (index = 9 ∧ 1 < b) := fun h => absurd (hlast h.1) (not_le_of_gt h.2)
  rw [readDigits, hbyte]
  simp only [Option.bind_eq_bind, Option.bind_some, if_neg hguard, and_80_eq_zero_iff]

/-- The last digit of a number. -/
theorem readDigits_small {data : Bytes} {index : ℕ} {indices : List ℕ} (hindex : index < 10)
    {acc value : UInt64} {offset : ℕ} (hsmall : value.toNat < 128)
    (hacc : acc.toNat < 2 ^ (index * 7)) (hvalue : value.toNat * 2 ^ (index * 7) < 2 ^ 64)
    (hdata : StandsAt data offset (varint value)) :
    ∃ total, readDigits data (index :: indices) acc offset =
        some (total, offset + (varint value).length) ∧
      total.toNat = acc.toNat + value.toNat * 2 ^ (index * 7) := by
  rw [varint_small hsmall] at hdata ⊢
  have hbyte : value.toUInt8.toNat = value.toNat := by
    rw [UInt64.toNat_toUInt8]
    omega
  have hdigit : (value.toUInt8 &&& 0x7f).toNat = value.toNat := by
    rw [toNat_and_7f, hbyte]
    omega
  have hlast : index = 9 → value.toUInt8.toNat ≤ 1 := by
    rintro rfl
    omega
  rw [readDigits_cons hdata hlast, if_pos (by omega)]
  refine ⟨_, rfl, ?_⟩
  rw [toNat_or_shiftLeft _ hindex hacc (by rwa [hdigit]), hdigit]

/-- **The digits of a number are read back**, from any index on. The value that is read so far is
`acc`, below the place of the next digit, and what is still to be read fits above it. -/
theorem readDigits_varint {data : Bytes} {count index : ℕ} (hcount : index + count = 9)
    {acc value : UInt64} {offset : ℕ} (hacc : acc.toNat < 2 ^ (index * 7))
    (hvalue : value.toNat * 2 ^ (index * 7) < 2 ^ 64)
    (hdata : StandsAt data offset (varint value)) :
    ∃ total, readDigits data (List.range' index (count + 1)) acc offset =
        some (total, offset + (varint value).length) ∧
      total.toNat = acc.toNat + value.toNat * 2 ^ (index * 7) := by
  induction count generalizing index acc value offset with
  | zero =>
      -- there is room for one bit at the last index
      obtain rfl : index = 9 := hcount
      exact readDigits_small (by omega) (by omega) hacc hvalue hdata
  | succ count ih =>
      rw [List.range'_succ]
      by_cases hsmall : value.toNat < 128
      · exact readDigits_small (by omega) hsmall hacc hvalue hdata
      · have hlarge : 128 ≤ value.toNat := not_lt.mp hsmall
        obtain ⟨b, hvarint, hb⟩ := varint_large hlarge
        have hdigit : (b &&& 0x7f).toNat = value.toNat % 128 := by
          rw [toNat_and_7f, hb]
          omega
        have hpow : 2 ^ ((index + 1) * 7) = 128 * 2 ^ (index * 7) := by
          rw [Nat.succ_mul, Nat.pow_add, Nat.mul_comm]
        have hsplit : value.toNat * 2 ^ (index * 7) =
            value.toNat % 128 * 2 ^ (index * 7) + value.toNat / 128 * 2 ^ ((index + 1) * 7) := by
          conv_lhs => rw [← Nat.mod_add_div value.toNat 128]
          rw [hpow]
          ring
        -- the digit goes to its place, and the others fit above it
        have hplace := toNat_or_shiftLeft (b &&& 0x7f) (show index < 10 by omega) hacc
          (by rw [hdigit]; omega)
        rw [hdigit] at hplace
        have hbound : value.toNat % 128 * 2 ^ (index * 7) + 2 ^ (index * 7) ≤
            128 * 2 ^ (index * 7) := by
          rw [← Nat.succ_mul]
          exact Nat.mul_le_mul_right _ (Nat.mod_lt _ (by norm_num))
        rw [hvarint] at hdata ⊢
        have hrest : StandsAt data (offset + 1) (varint (value >>> 7)) :=
          (standsAt_append.mp (show StandsAt data offset ([b] ++ _) from hdata)).2
        rw [readDigits_cons hdata (by omega), if_neg (by omega)]
        obtain ⟨total, hread, htotal⟩ := @ih (index + 1) (by omega)
          (acc ||| ((b &&& 0x7f).toUInt64 <<< UInt64.ofNat (index * 7))) (value >>> 7) (offset + 1)
          (by omega) (by rw [toNat_shiftRight_seven]; omega) hrest
        refine ⟨total, ?_, ?_⟩
        · rw [hread, List.length_cons, Nat.add_assoc, Nat.add_comm 1]
        · rw [htotal, hplace, toNat_shiftRight_seven, hsplit, Nat.add_assoc]

/-- **A number is read back**, at any offset. -/
theorem readVarint_varint {data : Bytes} {offset : ℕ} {value : UInt64}
    (hdata : StandsAt data offset (varint value)) :
    readVarint data offset = some (value, offset + (varint value).length) := by
  have hcount : 0 + 9 = 9 := rfl
  obtain ⟨total, hread, htotal⟩ := readDigits_varint hcount (show (0 : UInt64).toNat < 2 ^ (0 * 7) by
    decide) (by simpa using value.toNat_lt) hdata
  obtain rfl : total = value := UInt64.toNat_inj.mp (by simpa using htotal)
  exact hread

/-- `read_varint` undoes `push_varint`, whatever stands before and behind the number. -/
theorem readVarint_pushVarint (before after : Bytes) (value : UInt64) :
    readVarint (pushVarint before value ++ after) before.length =
      some (value, (pushVarint before value).length) := by
  rw [pushVarint_eq, List.length_append]
  exact readVarint_varint (standsAt_mid ..)

/-- A number that is read has at least one byte, and all its bytes are in the data. -/
theorem readDigits_bounds {data : Bytes} {indices : List ℕ} {acc value : UInt64} {offset next : ℕ}
    (h : readDigits data indices acc offset = some (value, next)) :
    offset < next ∧ next ≤ data.length := by
  induction indices generalizing acc offset with
  | nil => cases h
  | cons index indices ih =>
      rw [readDigits] at h
      obtain ⟨byte, hbyte, h⟩ := Option.bind_eq_some_iff.mp h
      have hinside : offset < data.length := (List.getElem?_eq_some_iff.mp hbyte).1
      split at h
      · cases h
      · dsimp only at h
        split at h
        · cases h
          omega
        · have hbounds := ih h
          omega

theorem readVarint_bounds {data : Bytes} {value : UInt64} {offset next : ℕ}
    (h : readVarint data offset = some (value, next)) : offset < next ∧ next ≤ data.length :=
  readDigits_bounds h

/-! ## Reading the event -/

/-- A turn of the decoder moves its cursor forward, and not out of the data. -/
theorem decodeField_bounds {data : Bytes} {s s' : Decoded} (h : decodeField data s = some s') :
    s.offset < s'.offset ∧ s'.offset ≤ data.length := by
  unfold decodeField at h
  obtain ⟨⟨tag, offset⟩, htag, h⟩ := Option.bind_eq_some_iff.mp h
  have hfirst := readVarint_bounds htag
  dsimp only at h
  split at h
  · obtain ⟨⟨value, next⟩, hvalue, h⟩ := Option.bind_eq_some_iff.mp h
    obtain ⟨source, -, h⟩ := Option.bind_eq_some_iff.mp h
    have hsecond := readVarint_bounds hvalue
    cases h
    exact ⟨hfirst.1.trans hsecond.1, hsecond.2⟩
  · split at h
    · obtain ⟨⟨len, next⟩, hlen, h⟩ := Option.bind_eq_some_iff.mp h
      have hsecond := readVarint_bounds hlen
      dsimp only at h
      split at h
      · cases h
      · obtain ⟨⟨entryTag, entryOffset⟩, -, h⟩ := Option.bind_eq_some_iff.mp h
        dsimp only at h
        split at h
        · cases h
        · obtain ⟨⟨value, entryStop⟩, -, h⟩ := Option.bind_eq_some_iff.mp h
          obtain ⟨neighbor, -, h⟩ := Option.bind_eq_some_iff.mp h
          dsimp only at h
          split at h
          · cases h
          · cases h
            dsimp only
            omega
    · cases h

/-- What a turn of the loop can do. -/
theorem decodeTurn_again {data : Bytes} {r r' : Option Decoded} (h : decodeTurn data r = .again r') :
    ∃ s s', r = some s ∧ r' = some s' ∧ s.offset < data.length ∧ decodeField data s = some s' := by
  cases r with
  | none => cases h
  | some s =>
      rw [decodeTurn] at h
      split at h
      · case isTrue hinside =>
          split at h
          · cases h
          · case h_2 s' hfield =>
              cases h
              exact ⟨s, s', rfl, rfl, hinside, hfield⟩
      · cases h

/-- **The decoder ends** within as many turns as there are bytes, and one to find the end. What it
accepts it has read to the end, and not beyond. -/
theorem decodeLoop_ends (data : Bytes) :
    ∃ r, loop (decodeTurn data) (data.length + 1) (some ⟨0, none, ∅⟩) = some r ∧
      ∀ s ∈ r, s.offset = data.length := by
  refine loop_spec (decodeTurn data) (fun r => r.elim 0 fun s => data.length - s.offset)
    (I := fun r => ∀ s ∈ r, s.offset ≤ data.length) ?_ ?_ ?_ (Nat.lt_succ_self _)
  · intro r r' hinside hturn
    obtain ⟨s, s', rfl, rfl, hlt, hfield⟩ := decodeTurn_again hturn
    have hbounds := decodeField_bounds hfield
    refine ⟨by simpa using hbounds.2, ?_⟩
    simp only [Option.elim_some]
    omega
  · intro r r' hinside hturn s hs
    cases r with
    | none =>
        cases hturn
        cases hs
    | some t =>
        rw [decodeTurn] at hturn
        split at hturn
        · split at hturn
          · cases hturn
            cases hs
          · cases hturn
        · case isFalse hend =>
            cases hturn
            obtain rfl : t = s := Option.some.inj hs
            exact le_antisymm (hinside t rfl) (not_lt.mp hend)
  · rintro s hs
    cases hs
    exact Nat.zero_le _

/-! ## The round trip of the event -/

theorem varint_tag : varint 0x08 = [0x08] ∧ varint 0x12 = [0x12] :=
  ⟨varint_small (by decide), varint_small (by decide)⟩

theorem tryU16_toUInt64 (x : UInt16) : tryU16 x.toUInt64 = some x := by
  have hlt : x.toUInt64.toNat < 2 ^ 16 := by simpa using x.toNat_lt
  rw [tryU16, if_pos hlt]
  simp

theorem length_varint_le {digits : ℕ} {value : UInt64} (h : value.toNat < 128 ^ (digits + 1)) :
    (varint value).length ≤ digits + 1 := by
  induction digits generalizing value with
  | zero => rw [varint_small (by omega), List.length_singleton]
  | succ digits ih =>
      by_cases hsmall : value.toNat < 128
      · rw [varint_small hsmall, List.length_singleton]
        omega
      · obtain ⟨b, hvarint, -⟩ := varint_large (not_lt.mp hsmall)
        rw [hvarint, List.length_cons]
        refine Nat.succ_le_succ (ih ?_)
        rw [toNat_shiftRight_seven]
        exact Nat.div_lt_of_lt_mul (by rwa [Nat.pow_succ, Nat.mul_comm] at h)

/-- The bytes of the source. -/
def sourceBytes (source : UInt16) : Bytes := varint 0x08 ++ varint source.toUInt64

/-- The bytes of a neighbour in its entry. -/
def entryBytes (neighbor : UInt16) : Bytes := varint 0x08 ++ varint neighbor.toUInt64

def neighborBytes (neighbor : UInt16) : Bytes :=
  varint 0x12 ++ varint (UInt64.ofNat (entryBytes neighbor).length) ++ entryBytes neighbor

theorem encodeOneHopNeighbors_eq (source : UInt16) (neighbors : List UInt16) :
    encodeOneHopNeighbors source neighbors =
      sourceBytes source ++ neighbors.flatMap neighborBytes := by
  have hpush (data : Bytes) (neighbor : UInt16) :
      pushNeighbor data neighbor = data ++ neighborBytes neighbor := by
    rw [pushNeighbor, neighborBytes, entryBytes, varint_tag.1, varint_tag.2, pushVarint_eq [0x08],
      pushVarint_eq, List.append_assoc, List.append_assoc, List.append_assoc]
  have hfold (data : Bytes) :
      neighbors.foldl pushNeighbor data = data ++ neighbors.flatMap neighborBytes := by
    induction neighbors generalizing data with
    | nil => simp
    | cons neighbor neighbors ih =>
        rw [List.foldl_cons, ih, hpush, List.flatMap_cons, List.append_assoc]
  rw [encodeOneHopNeighbors, hfold, sourceBytes, varint_tag.1, pushVarint_eq]

theorem decodeField_source {data : Bytes} {s : Decoded} {source : UInt16}
    (hdata : StandsAt data s.offset (sourceBytes source)) :
    decodeField data s =
      some { s with offset := s.offset + (sourceBytes source).length, source := some source } := by
  obtain ⟨htag, hvalue⟩ := standsAt_append.mp hdata
  rw [decodeField, readVarint_varint htag]
  dsimp only [Option.bind_eq_bind, Option.bind_some]
  rw [if_pos rfl, readVarint_varint hvalue, Option.bind_some, tryU16_toUInt64, Option.bind_some,
    sourceBytes, List.length_append, Nat.add_assoc]

theorem decodeField_neighbor {data : Bytes} {s : Decoded} {neighbor : UInt16}
    (hdata : StandsAt data s.offset (neighborBytes neighbor)) :
    decodeField data s =
      some { s with
        offset := s.offset + (neighborBytes neighbor).length
        neighbors := insert neighbor s.neighbors } := by
  obtain ⟨hhead, hentry⟩ := standsAt_append.mp hdata
  obtain ⟨htag, hlen⟩ := standsAt_append.mp hhead
  obtain ⟨hentryTag, hvalue⟩ := standsAt_append.mp hentry
  have hfits := hentry.fits (by rw [entryBytes, varint_tag.1]; exact List.cons_ne_nil _ _)
  -- the length of an entry is a number of one digit
  have hshort : (varint neighbor.toUInt64).length ≤ 3 :=
    length_varint_le (by simpa using neighbor.toNat_lt.trans (by norm_num))
  have hlength : (UInt64.ofNat (entryBytes neighbor).length).toNat =
      (entryBytes neighbor).length := by
    refine UInt64.toNat_ofNat_of_lt' ?_
    rw [entryBytes, varint_tag.1, List.length_append, List.length_singleton, UInt64.size]
    omega
  rw [decodeField, readVarint_varint htag]
  dsimp only [Option.bind_eq_bind, Option.bind_some]
  rw [if_neg (by decide), if_pos rfl, readVarint_varint hlen, Option.bind_some]
  dsimp only
  rw [hlength]
  rw [List.length_append, ← Nat.add_assoc] at hfits hentryTag hvalue
  rw [if_neg (not_lt.mpr hfits), readVarint_varint hentryTag, Option.bind_some]
  dsimp only
  rw [if_neg (not_not.mpr rfl), readVarint_varint hvalue, Option.bind_some, tryU16_toUInt64,
    Option.bind_some, if_neg, neighborBytes, List.length_append, List.length_append]
  · simp only [Nat.add_assoc]
  · rw [not_not, entryBytes, List.length_append, Nat.add_assoc]

/-- A field is read in one turn. -/
theorem loop_decodeField {data : Bytes} {s s' : Decoded} (hinside : s.offset < data.length)
    (hfield : decodeField data s = some s') (turns : ℕ) :
    loop (decodeTurn data) (turns + 1) (some s) = loop (decodeTurn data) turns (some s') := by
  rw [loop, decodeTurn, if_pos hinside, hfield]

/-- The entries that are left are read one after the other. -/
theorem loop_neighbors {data : Bytes} (neighbors : List UInt16) {s : Decoded} {turns : ℕ}
    (hturns : (neighbors.flatMap neighborBytes).length < turns)
    (hdata : StandsAt data s.offset (neighbors.flatMap neighborBytes))
    (hend : s.offset + (neighbors.flatMap neighborBytes).length = data.length) :
    loop (decodeTurn data) turns (some s) =
      some (some { s with
        offset := data.length
        neighbors := s.neighbors ∪ neighbors.toFinset }) := by
  induction neighbors generalizing s turns with
  | nil =>
      obtain ⟨turns, rfl⟩ := Nat.exists_eq_succ_of_ne_zero (Nat.ne_of_gt hturns)
      have hoffset : s.offset = data.length := hend
      rw [loop, decodeTurn, if_neg (not_lt.mpr hoffset.ge), ← hoffset]
      simp
  | cons neighbor neighbors ih =>
      rw [List.flatMap_cons, List.length_append] at hturns hend
      rw [List.flatMap_cons] at hdata
      obtain ⟨hneighbor, hrest⟩ := standsAt_append.mp hdata
      have hpos : 0 < (neighborBytes neighbor).length := by simp [neighborBytes, varint_tag.2]
      obtain ⟨turns, rfl⟩ := Nat.exists_eq_succ_of_ne_zero (show turns ≠ 0 by omega)
      rw [loop_decodeField (by omega) (decodeField_neighbor hneighbor),
        ih (by omega) hrest (by dsimp only; omega), List.toFinset_cons, Finset.insert_union,
        Finset.union_insert]

/-- **The event is read back**, with the neighbours as a set. -/
theorem decode_encode (source : UInt16) (neighbors : List UInt16) :
    decodeOneHopNeighbors (encodeOneHopNeighbors source neighbors) =
      some (some (source, neighbors.toFinset)) := by
  have hbytes := encodeOneHopNeighbors_eq source neighbors
  have hdata : StandsAt (encodeOneHopNeighbors source neighbors) 0
      (sourceBytes source ++ neighbors.flatMap neighborBytes) := by
    rw [← hbytes]
    exact standsAt_self _
  obtain ⟨hsource, hneighbors⟩ := standsAt_append.mp hdata
  have hlength := congrArg List.length hbytes
  rw [List.length_append] at hlength
  have hpos : 0 < (sourceBytes source).length := by simp [sourceBytes, varint_tag.1]
  rw [decodeOneHopNeighbors, loop_decodeField (by dsimp only; omega) (decodeField_source hsource),
    loop_neighbors neighbors (by omega) hneighbors (by dsimp only; omega)]
  simp

/-! ## The codec -/

/-- **The codec of the one-hop neighbour event.**

* What is encoded is decoded, up to the order and the number of the neighbours.
* A number is read back at every offset.
* The decoder ends on all bytes. Its numbers and its fields are inside the data, and what it accepts it
  has read to the end.
* An accepted event can be encoded again, with its neighbours in any order, and is decoded to the same. -/
theorem oneHopNeighbors_codec :
    (∀ source neighbors, decodeOneHopNeighbors (encodeOneHopNeighbors source neighbors) =
      some (some (source, neighbors.toFinset))) ∧
    (∀ before after value, readVarint (pushVarint before value ++ after) before.length =
      some (value, (pushVarint before value).length)) ∧
    (∀ data,
      (∃ r, loop (decodeTurn data) (data.length + 1) (some ⟨0, none, ∅⟩) = some r ∧
        ∀ s ∈ r, s.offset = data.length) ∧
      (∀ offset value next, readVarint data offset = some (value, next) →
        offset < next ∧ next ≤ data.length) ∧
      (∀ s s', decodeField data s = some s' →
        s.offset < s'.offset ∧ s'.offset ≤ data.length) ∧
      ∀ source neighbors, decodeOneHopNeighbors data = some (some (source, neighbors)) →
        ∀ again : List UInt16, again.toFinset = neighbors →
          decodeOneHopNeighbors (encodeOneHopNeighbors source again) =
            some (some (source, neighbors))) := by
  refine ⟨decode_encode, readVarint_pushVarint, fun data => ⟨decodeLoop_ends data,
    fun _ _ _ => readVarint_bounds, fun _ _ => decodeField_bounds, ?_⟩⟩
  rintro source neighbors - again rfl
  exact decode_encode source again

end Emane.Ieee80211
