import Mathlib
import Emane.Lib.Bytes
import Emane.Lib.Run

set_option autoImplicit false

/-! # Slices with reasons

A parser that tests its input before it slices it. A test that fails ends the parse with a reason
(`refused`), a slice outside the data ends the program (`panicked`). For each primitive there are the
condition under which it succeeds, which is that a field stands in the data, and the condition under
which it does not panic.
-/

namespace Emane.Lib

/-- How a parse ends without a value. -/
inductive Stop (ρ : Type*)
  | panicked
  | refused (reason : ρ)
  deriving DecidableEq

section

variable {ρ : Type} {data : Bytes}

/-- `data[lo..hi]` -/
def slice (data : Bytes) (lo hi : ℕ) : Except (Stop ρ) Bytes :=
  if ¬ (lo ≤ hi ∧ hi ≤ data.length) then .error .panicked else .ok (data.extract lo hi)

/-- `data[i]` -/
def byteAt (data : Bytes) (i : ℕ) : Except (Stop ρ) UInt8 :=
  match data[i]? with
  | none => .error .panicked
  | some b => .ok b

/-- The number of the bytes at `o`, which are indexed. -/
def numberAt (α : Type) [BigEndian α] (data : Bytes) (o : ℕ) : Except (Stop ρ) α := do
  let bs ← slice data o (o + BigEndian.width α)
  .ok (fromBeBytes bs)

/-- A slice is what stands at its place. -/
theorem slice_eq_ok_iff {lo hi : ℕ} {bs : Bytes} :
    (slice data lo hi : Except (Stop ρ) Bytes) = .ok bs ↔
      lo ≤ hi ∧ hi ≤ data.length ∧ StandsAt data lo bs ∧ lo + bs.length = hi := by
  unfold slice
  rw [guard_eq_ok_iff, not_not, Except.ok.injEq]
  constructor
  · rintro ⟨⟨hle, hfits⟩, rfl⟩
    refine ⟨hle, hfits, standsAt_extract data lo hi, ?_⟩
    rw [List.extract_eq_take_drop, List.length_take, List.length_drop]
    omega
  · rintro ⟨hle, hfits, hstands, rfl⟩
    exact ⟨⟨hle, hfits⟩, hstands.extract⟩

theorem slice_avoids {lo hi : ℕ} (hle : lo ≤ hi) (hfits : hi ≤ data.length) :
    Avoids (.panicked : Stop ρ) (fun bs => bs.length = hi - lo) (slice data lo hi) := by
  unfold slice
  rw [if_neg (not_not.mpr ⟨hle, hfits⟩)]
  change (data.extract lo hi).length = hi - lo
  rw [List.extract_eq_take_drop, List.length_take, List.length_drop]
  omega

/-- A byte is what stands at its place. -/
theorem byteAt_eq_ok_iff {i : ℕ} {b : UInt8} :
    (byteAt data i : Except (Stop ρ) UInt8) = .ok b ↔ StandsAt data i [b] := by
  unfold byteAt StandsAt
  rw [List.singleton_prefix_iff_head?_eq_some, List.head?_drop]
  cases data[i]? with
  | none => simp
  | some b' => simp

theorem byteAt_avoids {i : ℕ} (h : i < data.length) :
    Avoids (.panicked : Stop ρ) (fun _ => True) (byteAt data i) := by
  unfold byteAt
  rw [List.getElem?_eq_getElem h]
  trivial

variable {α : Type} [BigEndian α]

/-- A number is what stands at its place. -/
theorem numberAt_eq_ok_iff [BigEndianExact α] {o : ℕ} {x : α} :
    (numberAt α data o : Except (Stop ρ) α) = .ok x ↔ StandsAt data o (toBeBytes x) := by
  unfold numberAt
  rw [bind_eq_ok_iff]
  constructor
  · rintro ⟨bs, hbs, hx⟩
    obtain ⟨-, -, hstands, hlength⟩ := slice_eq_ok_iff.mp hbs
    cases hx
    rw [BigEndianExact.toBeBytes_fromBeBytes bs (by omega)]
    exact hstands
  · intro h
    have hne : toBeBytes x ≠ [] := by
      rw [← List.length_pos_iff, BigEndian.length_toBeBytes]
      exact BigEndian.width_pos
    have hfits := h.fits hne
    refine ⟨toBeBytes x, slice_eq_ok_iff.mpr ⟨by omega, ?_, h, ?_⟩, ?_⟩
    · rwa [BigEndian.length_toBeBytes] at hfits
    · rw [BigEndian.length_toBeBytes]
    · rw [BigEndian.fromBeBytes_toBeBytes]

/-- Some number stands wherever there is room for one. -/
theorem exists_standsAt [BigEndianExact α] {o : ℕ} (h : o + BigEndian.width α ≤ data.length) :
    ∃ x : α, StandsAt data o (toBeBytes x) := by
  refine ⟨fromBeBytes (data.extract o (o + BigEndian.width α)), ?_⟩
  rw [BigEndianExact.toBeBytes_fromBeBytes]
  · exact standsAt_extract ..
  · rw [List.extract_eq_take_drop, List.length_take, List.length_drop]
    omega

theorem numberAt_avoids {o : ℕ} (h : o + BigEndian.width α ≤ data.length) :
    Avoids (.panicked : Stop ρ) (fun _ => True) (numberAt α data o) :=
  (slice_avoids (Nat.le_add_right ..) h).bind fun _ _ => trivial

/-- A test before the next step. -/
theorem Avoids.guard {β : Type} {c : Prop} [Decidable c] {reason : ρ} {k : Except (Stop ρ) β}
    {Q : β → Prop} (hk : ¬ c → Avoids .panicked Q k) :
    Avoids .panicked Q (if c then .error (.refused reason) else k) := by
  split
  · exact fun heq => by cases heq
  · next hc => exact hk hc

end

end Emane.Lib
