import Mathlib

/-!
# Byte strings

Big-endian numbers of a fixed number of bytes, and the statement that a byte string stands
at an offset of another one (`StandsAt`). A decoder that walks through its input meets the
fields one after the other; `standsAt_append` is the rule that hands each field its place.
-/

set_option autoImplicit false

namespace Emane.Lib

/-- A byte string. -/
abbrev Bytes := List UInt8

/-! ## Big-endian numbers -/

/-- The last `width` base-256 digits of `n`, most significant first. -/
def toBe : Nat → Nat → Bytes
  | 0, _ => []
  | width + 1, n => UInt8.ofNat (n / 256 ^ width) :: toBe width n

/-- The number a byte string spells, most significant byte first. -/
def ofBe : Bytes → Nat
  | [] => 0
  | b :: bs => b.toNat * 256 ^ bs.length + ofBe bs

@[simp]
theorem length_toBe (width n : Nat) : (toBe width n).length = width := by
  induction width with
  | zero => rfl
  | succ width ih => simp [toBe, ih]

/-- Reading the digits back gives the number up to the width. -/
theorem ofBe_toBe (width n : Nat) : ofBe (toBe width n) = n % 256 ^ width := by
  induction width with
  | zero => simp [toBe, ofBe, Nat.mod_one]
  | succ width ih =>
      have hdigit : (UInt8.ofNat (n / 256 ^ width)).toNat = n / 256 ^ width % 256 := by
        simp
      rw [toBe, ofBe, length_toBe, ih, hdigit, Nat.pow_succ, Nat.mod_mul, Nat.add_comm, Nat.mul_comm]

theorem ofBe_lt (bs : Bytes) : ofBe bs < 256 ^ bs.length := by
  induction bs with
  | nil => exact Nat.one_pos
  | cons b bs ih =>
      have hb : b.toNat ≤ 255 := Nat.le_of_lt_succ b.toNat_lt
      have hmul : b.toNat * 256 ^ bs.length ≤ 255 * 256 ^ bs.length := Nat.mul_le_mul_right _ hb
      rw [ofBe, List.length_cons, Nat.pow_succ]
      omega

/-- A multiple of what the digits can hold does not count. -/
theorem toBe_add_mul (width n m : Nat) : toBe width (m * 256 ^ width + n) = toBe width n := by
  induction width generalizing m with
  | zero => rfl
  | succ width ih =>
      have hpow : m * 256 ^ (width + 1) = m * 256 * 256 ^ width := by
        rw [Nat.pow_succ, Nat.mul_assoc, Nat.mul_comm (256 ^ width)]
      have hdigit : UInt8.ofNat ((m * 256 * 256 ^ width + n) / 256 ^ width) =
          UInt8.ofNat (n / 256 ^ width) := by
        rw [Nat.add_comm, Nat.add_mul_div_right _ _ (Nat.pow_pos (by decide))]
        apply UInt8.toNat.inj
        simp
      rw [toBe, toBe, hpow, ih, hdigit]

/-- Writing a byte string's number gives the byte string back. -/
theorem toBe_ofBe (bs : Bytes) : toBe bs.length (ofBe bs) = bs := by
  induction bs with
  | nil => rfl
  | cons b bs ih =>
      have hdigit : (b.toNat * 256 ^ bs.length + ofBe bs) / 256 ^ bs.length = b.toNat := by
        rw [Nat.add_comm, Nat.add_mul_div_right _ _ (Nat.pow_pos (by decide)),
          Nat.div_eq_of_lt (ofBe_lt bs), Nat.zero_add]
      rw [List.length_cons, toBe, ofBe, hdigit, toBe_add_mul, ih, UInt8.ofNat_toNat]
/-- A type of numbers that are written big-endian in a fixed, positive number of bytes. -/
class BigEndian (α : Type) where
  /-- the number of bytes -/
  width : Nat
  toBeBytes : α → Bytes
  fromBeBytes : Bytes → α
  width_pos : 0 < width
  length_toBeBytes : ∀ x, (toBeBytes x).length = width
  fromBeBytes_toBeBytes : ∀ x, fromBeBytes (toBeBytes x) = x

export BigEndian (toBeBytes fromBeBytes)

attribute [simp] BigEndian.length_toBeBytes BigEndian.fromBeBytes_toBeBytes

instance : BigEndian UInt16 where
  width := 2
  toBeBytes x := toBe 2 x.toNat
  fromBeBytes bs := UInt16.ofNat (ofBe bs)
  width_pos := by decide
  length_toBeBytes x := length_toBe 2 x.toNat
  fromBeBytes_toBeBytes x := by
    rw [ofBe_toBe, Nat.mod_eq_of_lt (show x.toNat < 256 ^ 2 from x.toNat_lt), UInt16.ofNat_toNat]

instance : BigEndian UInt32 where
  width := 4
  toBeBytes x := toBe 4 x.toNat
  fromBeBytes bs := UInt32.ofNat (ofBe bs)
  width_pos := by decide
  length_toBeBytes x := length_toBe 4 x.toNat
  fromBeBytes_toBeBytes x := by
    rw [ofBe_toBe, Nat.mod_eq_of_lt (show x.toNat < 256 ^ 4 from x.toNat_lt), UInt32.ofNat_toNat]

instance : BigEndian UInt64 where
  width := 8
  toBeBytes x := toBe 8 x.toNat
  fromBeBytes bs := UInt64.ofNat (ofBe bs)
  width_pos := by decide
  length_toBeBytes x := length_toBe 8 x.toNat
  fromBeBytes_toBeBytes x := by
    rw [ofBe_toBe, Nat.mod_eq_of_lt (show x.toNat < 256 ^ 8 from x.toNat_lt), UInt64.ofNat_toNat]

/-- Every string of the right length is the number it is read as. -/
class BigEndianExact (α : Type) [BigEndian α] : Prop where
  toBeBytes_fromBeBytes : ∀ bs : Bytes, bs.length = BigEndian.width α →
    toBeBytes (fromBeBytes bs : α) = bs

instance : BigEndianExact UInt16 where
  toBeBytes_fromBeBytes bs h := by
    have hlt : ofBe bs < 2 ^ 16 := Nat.lt_of_lt_of_eq (ofBe_lt bs) (congrArg (256 ^ ·) h)
    change toBe 2 (UInt16.ofNat (ofBe bs)).toNat = bs
    rw [UInt16.toNat_ofNat', Nat.mod_eq_of_lt hlt]
    exact (congrArg (toBe · (ofBe bs)) h).symm.trans (toBe_ofBe bs)

instance : BigEndianExact UInt32 where
  toBeBytes_fromBeBytes bs h := by
    have hlt : ofBe bs < 2 ^ 32 := Nat.lt_of_lt_of_eq (ofBe_lt bs) (congrArg (256 ^ ·) h)
    change toBe 4 (UInt32.ofNat (ofBe bs)).toNat = bs
    rw [UInt32.toNat_ofNat', Nat.mod_eq_of_lt hlt]
    exact (congrArg (toBe · (ofBe bs)) h).symm.trans (toBe_ofBe bs)

instance : BigEndianExact UInt64 where
  toBeBytes_fromBeBytes bs h := by
    have hlt : ofBe bs < 2 ^ 64 := Nat.lt_of_lt_of_eq (ofBe_lt bs) (congrArg (256 ^ ·) h)
    change toBe 8 (UInt64.ofNat (ofBe bs)).toNat = bs
    rw [UInt64.toNat_ofNat', Nat.mod_eq_of_lt hlt]
    exact (congrArg (toBe · (ofBe bs)) h).symm.trans (toBe_ofBe bs)

@[simp] theorem width_uint16 : BigEndian.width UInt16 = 2 := rfl
@[simp] theorem width_uint32 : BigEndian.width UInt32 = 4 := rfl
@[simp] theorem width_uint64 : BigEndian.width UInt64 = 8 := rfl

/-! ## A byte string at an offset -/

/-- `bs` stands in `data` from offset `o` on. -/
def StandsAt (data : Bytes) (o : Nat) (bs : Bytes) : Prop := bs <+: data.drop o

/-- A byte string stands at the start of itself. -/
theorem standsAt_self (data : Bytes) : StandsAt data 0 data := by
  simp [StandsAt]

/-- What is written after `as` stands at its length. -/
theorem standsAt_mid (as bs post : Bytes) : StandsAt (as ++ bs ++ post) as.length bs := by
  simp [StandsAt, List.append_assoc]

/-- **Two fields in a row**: the second one stands where the first one ends. -/
theorem standsAt_append {data : Bytes} {o : Nat} {as bs : Bytes} :
    StandsAt data o (as ++ bs) ↔ StandsAt data o as ∧ StandsAt data (o + as.length) bs := by
  unfold StandsAt
  constructor
  · rintro ⟨post, hpost⟩
    have hdrop : data.drop (o + as.length) = bs ++ post := by
      rw [← List.drop_drop, ← hpost, List.append_assoc, List.drop_left]
    exact ⟨⟨bs ++ post, by rw [← List.append_assoc, hpost]⟩, ⟨post, hdrop.symm⟩⟩
  · rintro ⟨⟨rest, hrest⟩, ⟨post, hpost⟩⟩
    have hdrop : data.drop (o + as.length) = rest := by
      rw [← List.drop_drop, ← hrest, List.drop_left]
    exact ⟨post, by rw [List.append_assoc, hpost, hdrop, hrest]⟩

/-- A nonempty string that stands at an offset fits into the data. -/
theorem StandsAt.fits {data : Bytes} {o : Nat} {bs : Bytes} (h : StandsAt data o bs)
    (hne : bs ≠ []) : o + bs.length ≤ data.length := by
  have hlen := h.length_le
  have hpos : 0 < bs.length := List.length_pos_iff.mpr hne
  rw [List.length_drop] at hlen
  omega

/-- The range of the data in which a string stands is that string. -/
theorem StandsAt.extract {data : Bytes} {o : Nat} {bs : Bytes} (h : StandsAt data o bs) :
    data.extract o (o + bs.length) = bs := by
  obtain ⟨post, hpost⟩ := h
  rw [List.extract_eq_take_drop, Nat.add_sub_cancel_left, ← hpost, List.take_left]

/-- A string of the whole length that stands at the start is the data. -/
theorem StandsAt.eq {data bs : Bytes} (h : StandsAt data 0 bs) (hlength : bs.length = data.length) :
    bs = data := List.IsPrefix.eq_of_length h hlength

/-- The range of the data stands where it begins. -/
theorem standsAt_extract (data : Bytes) (lo hi : Nat) : StandsAt data lo (data.extract lo hi) := by
  rw [List.extract_eq_take_drop]
  exact List.take_prefix ..

/-- What stands in a part of the data stands in the data. -/
theorem StandsAt.inside {data bs cs : Bytes} {o k : Nat} (h : StandsAt data o bs)
    (hin : StandsAt bs k cs) : StandsAt data (o + k) cs := by
  obtain ⟨post, hpost⟩ := h
  obtain ⟨rest, hrest⟩ := hin
  have hdrop : data.drop (o + k) = cs ++ (rest ++ post.drop (k - bs.length)) := by
    rw [← List.drop_drop, ← hpost, List.drop_append, ← hrest, List.append_assoc]
  exact ⟨_, hdrop.symm⟩

end Emane.Lib
