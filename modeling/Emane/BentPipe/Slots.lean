import Mathlib
import Emane.Lib.Numerals
import Emane.Lib.Residues
import Emane.Lib.Saturating
import Emane.Lib.SortedUnion
import Emane.BentPipe.Discipline

set_option autoImplicit false

/-! # The next slot of a BentPipe transponder

A transponder's slots are given as text: numbers and ranges, which `parseSlots` sorts. `start` refuses
a slot that is not below the number of slots of a frame. From both follows that the search of
`next_slot`, which takes the first slot that fits, finds the least one (`nextSlot_isLeast`).

`nextSlotI64` is `next_slot` with the arithmetic of signed 64-bit numbers; where nothing overflows it
is the `nextSlot` of `drive`.
-/

namespace Emane.BentPipe

open Emane.Lib

/-! ## The slots of a configuration -/

/-- A number, or a range up to its second number. -/
def parseItem (item : List Char) : Option (List ℕ) :=
  if '-' ∈ item then do
    let first ← parseUnsigned 16 (item.takeWhile (· != '-'))
    let last ← parseUnsigned 16 (item.dropWhile (· != '-')).tail
    if first > last then none else some (List.range' first (last + 1 - first))
  else (parseUnsigned 16 item).map fun slot => [slot]

/-- `parse_slots` -/
def parseSlots (value : String) : Option (List ℕ) :=
  if value = "na" then some []
  else ((value.toList.splitOn ';').mapM parseItem).map fun items => sortDedup items.flatten

example : parseSlots "4;1-2;2" = some [1, 2, 4] := by decide +kernel

/-- The slots of an accepted text stand in increasing order. -/
theorem parseSlots_pairwise {value : String} {slots : List ℕ} (h : parseSlots value = some slots) :
    slots.Pairwise (· < ·) := by
  unfold parseSlots at h
  split at h
  · cases h
    exact List.Pairwise.nil
  · obtain ⟨items, -, rfl⟩ := Option.map_eq_some_iff.mp h
    exact pairwise_sortDedup _

/-! ## The search -/

/-- A result that is a signed 64-bit number; anything else is an overflow. -/
def checkI64 (x : ℤ) : Option ℤ := if I64.min ≤ x ∧ x ≤ I64.max then some x else none

theorem checkI64_eq_some {x y : ℤ} : checkI64 x = some y ↔ (I64.min ≤ x ∧ x ≤ I64.max) ∧ x = y := by
  rw [checkI64, Option.ite_none_right_eq_some, Option.some_inj]

/-- `next_slot` in signed 64-bit numbers; `none` where the conversion of the slot size or an operation
overflows. The place in the frame is below a 16-bit number, so its conversion changes nothing. -/
def nextSlotI64 (t : FullTransponder) (now : ℤ) : Option ℤ :=
  match t.transmitSlots with
  | [] => some now
  | first :: rest =>
      if t.transmitSlotsPerFrame = 0 ∨ t.transmitSlotSizeUs = 0 then some now
      else do
        let size ← checkI64 t.transmitSlotSizeUs
        let absoluteSlot := now / size
        let current := (absoluteSlot % (t.transmitSlotsPerFrame : ℤ)).toNat
        match (first :: rest).find? fun slot =>
            current < slot || (slot == current && now.tmod size == 0) with
        | some slot =>
            let reached ← checkI64 (absoluteSlot + slot)
            let target ← checkI64 (reached - current)
            checkI64 (target * size)
        | none =>
            let following ← checkI64 (absoluteSlot + t.transmitSlotsPerFrame)
            let frame ← checkI64 (following - current)
            let target ← checkI64 (frame + first)
            checkI64 (target * size)

section

variable {t : FullTransponder}

/-- Without overflow the search gives the `nextSlot` of `drive`. -/
theorem nextSlotI64_eq {now time : ℤ} (h : nextSlotI64 t now = some time) : nextSlot t now = time := by
  unfold nextSlotI64 at h
  unfold nextSlot
  cases hslots : t.transmitSlots with
  | nil =>
      rw [hslots] at h
      exact Option.some_inj.mp h
  | cons first rest =>
      rw [hslots] at h
      dsimp only at h ⊢
      by_cases hzero : t.transmitSlotsPerFrame = 0 ∨ t.transmitSlotSizeUs = 0
      · rw [if_pos hzero] at h ⊢
        exact Option.some_inj.mp h
      · rw [if_neg hzero] at h ⊢
        obtain ⟨size, hsize, h⟩ := Option.bind_eq_some_iff.mp h
        obtain ⟨-, rfl⟩ := checkI64_eq_some.mp hsize
        generalize List.find? _ (first :: rest) = found at h ⊢
        cases found with
        | some slot =>
            obtain ⟨_, hreached, h⟩ := Option.bind_eq_some_iff.mp h
            obtain ⟨_, htarget, h⟩ := Option.bind_eq_some_iff.mp h
            obtain ⟨-, rfl⟩ := checkI64_eq_some.mp hreached
            obtain ⟨-, rfl⟩ := checkI64_eq_some.mp htarget
            exact (checkI64_eq_some.mp h).2
        | none =>
            obtain ⟨_, hfollowing, h⟩ := Option.bind_eq_some_iff.mp h
            obtain ⟨_, hframe, h⟩ := Option.bind_eq_some_iff.mp h
            obtain ⟨_, htarget, h⟩ := Option.bind_eq_some_iff.mp h
            obtain ⟨-, rfl⟩ := checkI64_eq_some.mp hfollowing
            obtain ⟨-, rfl⟩ := checkI64_eq_some.mp hframe
            obtain ⟨-, rfl⟩ := checkI64_eq_some.mp htarget
            exact (checkI64_eq_some.mp h).2

theorem checkI64_of_nonneg {x : ℤ} (hnonneg : 0 ≤ x) (hle : x ≤ I64.max) : checkI64 x = some x :=
  checkI64_eq_some.mpr ⟨⟨le_trans (by decide) hnonneg, hle⟩, rfl⟩

/-- Nothing overflows while the next two frames end in time. -/
theorem nextSlotI64_ne_none (hslotted : t.slotted = true)
    (hframe : ∀ slot ∈ t.transmitSlots, slot < t.transmitSlotsPerFrame) {now : ℤ} (hnow : 0 ≤ now)
    (hfits : now + 2 * t.transmitSlotsPerFrame * t.transmitSlotSizeUs ≤ I64.max) :
    nextSlotI64 t now ≠ none := by
  obtain ⟨hsize, hperFrame, hne⟩ := FullTransponder.slotted_iff.mp hslotted
  have hsizePos : (0 : ℤ) < t.transmitSlotSizeUs := by omega
  have hperFramePos : (0 : ℤ) < t.transmitSlotsPerFrame := by omega
  have habsolute : 0 ≤ now / (t.transmitSlotSizeUs : ℤ) := Int.ediv_nonneg hnow hsizePos.le
  have hbefore := Int.ediv_mul_le now hsizePos.ne'
  -- the start of a slot of the next two frames
  have hstart : ∀ n : ℤ, n ≤ 2 * t.transmitSlotsPerFrame →
      (now / (t.transmitSlotSizeUs : ℤ) + n) * t.transmitSlotSizeUs ≤ I64.max := by
    intro n hle
    have hmul := mul_le_mul_of_nonneg_right hle hsizePos.le
    calc (now / (t.transmitSlotSizeUs : ℤ) + n) * t.transmitSlotSizeUs
        = now / (t.transmitSlotSizeUs : ℤ) * t.transmitSlotSizeUs + n * t.transmitSlotSizeUs := by
          ring
      _ ≤ I64.max := by linarith
  have hsizeLe : (t.transmitSlotSizeUs : ℤ) ≤ I64.max := by nlinarith
  unfold nextSlotI64
  split
  next hnil => exact absurd hnil hne
  next first rest hcons =>
  have hfirst := hframe first (hcons ▸ List.mem_cons_self)
  rw [if_neg (by omega), checkI64_of_nonneg hsizePos.le hsizeLe, ← hcons, Option.bind_eq_bind,
    Option.bind_some]
  dsimp only
  generalize hcurrent : (now / (t.transmitSlotSizeUs : ℤ) % (t.transmitSlotsPerFrame : ℤ)).toNat =
    current
  have hplace : (current : ℤ) = now / (t.transmitSlotSizeUs : ℤ) % (t.transmitSlotsPerFrame : ℤ) := by
    rw [← hcurrent, Int.toNat_of_nonneg (Int.emod_nonneg _ hperFramePos.ne')]
  have hframes := Int.ediv_nonneg habsolute hperFramePos.le
  have hcurrentLe : (current : ℤ) ≤ now / (t.transmitSlotSizeUs : ℤ) := by
    have := Int.mul_ediv_add_emod (now / (t.transmitSlotSizeUs : ℤ)) t.transmitSlotsPerFrame
    nlinarith
  -- what is computed stands between zero and such a start
  have hnumber : ∀ n : ℤ, -current ≤ n → n ≤ 2 * t.transmitSlotsPerFrame →
      checkI64 (now / (t.transmitSlotSizeUs : ℤ) + n) =
        some (now / (t.transmitSlotSizeUs : ℤ) + n) := fun n hn hle =>
    checkI64_of_nonneg (by omega)
      ((le_mul_of_one_le_right (by omega) hsizePos).trans (hstart n hle))
  have htarget : ∀ n : ℤ, -current ≤ n → n ≤ 2 * t.transmitSlotsPerFrame →
      checkI64 ((now / (t.transmitSlotSizeUs : ℤ) + n) * t.transmitSlotSizeUs) =
        some ((now / (t.transmitSlotSizeUs : ℤ) + n) * t.transmitSlotSizeUs) := fun n hn hle =>
    checkI64_of_nonneg (mul_nonneg (by omega) hsizePos.le) (hstart n hle)
  split
  next slot hfind =>
    have hslot := hframe slot (List.mem_of_find?_eq_some hfind)
    simp only [add_sub_assoc, hnumber slot (by omega) (by omega),
      hnumber (slot - current) (by omega) (by omega), htarget (slot - current) (by omega) (by omega),
      Option.bind_some, ne_eq, reduceCtorEq, not_false_eq_true]
  next hfind =>
    simp only [add_sub_assoc, add_assoc,
      hnumber t.transmitSlotsPerFrame (by omega) (by omega),
      hnumber (t.transmitSlotsPerFrame - current) (by omega) (by omega),
      hnumber (t.transmitSlotsPerFrame - current + first) (by omega) (by omega),
      htarget (t.transmitSlotsPerFrame - current + first) (by omega) (by omega),
      Option.bind_some, ne_eq, reduceCtorEq, not_false_eq_true]

/-- The first slot number whose slot does not begin before `now`. -/
def firstSlotFrom (size now : ℤ) : ℤ := if now.tmod size = 0 then now / size else now / size + 1

theorem firstSlotFrom_le_iff {size now : ℤ} (hsize : 0 < size) (k : ℤ) :
    firstSlotFrom size now ≤ k ↔ now ≤ k * size := by
  have hnow := Int.mul_ediv_add_emod now size
  have hrest := Int.emod_lt_of_pos now hsize
  unfold firstSlotFrom
  split
  next hstart =>
    have hdvd : size ∣ now := Int.dvd_of_tmod_eq_zero hstart
    calc now / size ≤ k ↔ now / size * size ≤ k * size := (mul_le_mul_iff_left₀ hsize).symm
      _ ↔ now ≤ k * size := by rw [Int.ediv_mul_cancel hdvd]
  next hstart =>
    have hdvd : ¬ size ∣ now := fun h => hstart (Int.tmod_eq_zero_of_dvd h)
    calc now / size + 1 ≤ k ↔ now / size < k := Int.add_one_le_iff
      _ ↔ now < k * size := Int.ediv_lt_iff_lt_mul hsize
      _ ↔ now ≤ k * size := by
          rw [lt_iff_le_and_ne]
          exact and_iff_left fun heq => hdvd (heq ▸ Int.dvd_mul_left ..)

/-- **The search finds the least slot** of an increasing list of slots of the frame. -/
theorem nextSlot_isLeast_of_pairwise (hslotted : t.slotted = true)
    (hsorted : t.transmitSlots.Pairwise (· < ·))
    (hframe : ∀ slot ∈ t.transmitSlots, slot < t.transmitSlotsPerFrame) (now : ℤ) :
    IsLeast {time | now ≤ time ∧ (t.transmitSlotSizeUs : ℤ) ∣ time ∧
      time / t.transmitSlotSizeUs ∈ onResidues t.transmitSlotsPerFrame t.transmitSlots}
      (nextSlot t now) := by
  obtain ⟨hsize, hperFrame, hne⟩ := FullTransponder.slotted_iff.mp hslotted
  have hsizePos : (0 : ℤ) < t.transmitSlotSizeUs := by omega
  have hperFramePos : (0 : ℤ) < t.transmitSlotsPerFrame := by omega
  unfold nextSlot
  split
  next hnil => exact absurd hnil hne
  next first rest hcons =>
  rw [if_neg (by omega), ← hcons]
  dsimp only
  generalize hcurrent : (now / (t.transmitSlotSizeUs : ℤ) % (t.transmitSlotsPerFrame : ℤ)).toNat =
    current
  have hplace : (current : ℤ) = now / (t.transmitSlotSizeUs : ℤ) % (t.transmitSlotsPerFrame : ℤ) := by
    rw [← hcurrent, Int.toNat_of_nonneg (Int.emod_nonneg _ hperFramePos.ne')]
  have hlt : (current : ℤ) < t.transmitSlotsPerFrame := hplace ▸ Int.emod_lt_of_pos _ hperFramePos
  have hperiod : (t.transmitSlotsPerFrame : ℤ) ∣ now / (t.transmitSlotSizeUs : ℤ) - current :=
    hplace ▸ Int.dvd_self_sub_emod
  -- the test of the search says that the slot does not begin before `now`
  have htest : ∀ slot : ℕ, (decide (current < slot) ||
      (slot == current && now.tmod t.transmitSlotSizeUs == 0)) = true ↔
      firstSlotFrom t.transmitSlotSizeUs now ≤
        now / (t.transmitSlotSizeUs : ℤ) - current + slot := by
    intro slot
    unfold firstSlotFrom
    simp only [Bool.or_eq_true, Bool.and_eq_true, decide_eq_true_eq, beq_iff_eq]
    split <;> omega
  have hbegin : now / (t.transmitSlotSizeUs : ℤ) - current ≤
      firstSlotFrom t.transmitSlotSizeUs now := by
    unfold firstSlotFrom
    split <;> omega
  split
  next slot hfind =>
    have hhit := List.find?_some hfind
    have hmem := List.mem_of_find?_eq_some hfind
    have hleast := isLeast_same_period hperiod hbegin hmem (hframe slot hmem)
      ((htest slot).mp hhit) fun s hs hle => find?_le hfind hsorted hs ((htest s).mpr hle)
    rw [show now / (t.transmitSlotSizeUs : ℤ) + slot - current =
      now / (t.transmitSlotSizeUs : ℤ) - current + slot by ring]
    exact isLeast_multiple hsizePos (firstSlotFrom_le_iff hsizePos) hleast
  next hfind =>
    have hover : ∀ s ∈ t.transmitSlots, now / (t.transmitSlotSizeUs : ℤ) - current + s <
        firstSlotFrom t.transmitSlotSizeUs now := by
      intro s hs
      by_contra hnot
      exact List.find?_eq_none.mp hfind s hs ((htest s).mpr (not_lt.mp hnot))
    have hfirst : first ∈ t.transmitSlots := hcons ▸ List.mem_cons_self
    have hfirstLe : ∀ s ∈ t.transmitSlots, first ≤ s := by
      intro s hs
      rw [hcons, List.pairwise_cons] at hsorted
      rcases List.mem_cons.mp (hcons ▸ hs) with rfl | hs
      · exact le_rfl
      · exact (hsorted.1 s hs).le
    have hend : firstSlotFrom t.transmitSlotSizeUs now ≤
        now / (t.transmitSlotSizeUs : ℤ) - current + t.transmitSlotsPerFrame := by
      unfold firstSlotFrom
      split <;> omega
    have hleast := isLeast_next_period hperiod hbegin hend hfirst (hframe first hfirst) hfirstLe hover
    rw [show now / (t.transmitSlotSizeUs : ℤ) + t.transmitSlotsPerFrame - current + first =
      now / (t.transmitSlotSizeUs : ℤ) - current + t.transmitSlotsPerFrame + first by ring]
    exact isLeast_multiple hsizePos (firstSlotFrom_le_iff hsizePos) hleast

/-- An accepted transponder has slots of the frame only, and all that slots need if it has a slot
size. -/
theorem FullTransponder.acceptable_slots {antennas : List UInt16} (h : t.acceptable antennas = true)
    (hsize : 0 < t.transmitSlotSizeUs) :
    t.slotted = true ∧ ∀ slot ∈ t.transmitSlots, slot < t.transmitSlotsPerFrame := by
  simp only [acceptable, Bool.and_eq_true, List.all_eq_true, decide_eq_true_eq] at h
  obtain ⟨⟨-, hslots⟩, hframe⟩ := h
  refine ⟨?_, hframe⟩
  simpa [hsize.ne'] using hslots

end

end Emane.BentPipe
