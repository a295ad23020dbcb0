import Mathlib
import Emane.Lib.ChangeLog
import Emane.PluginApi.Antenna

set_option autoImplicit false

/-! # Compressed spectrum windows

A spectrum window is passed on as the bins at which its value changes, or as the bins at which the row
of its sub-bands changes. Both lose nothing that the comparison of numbers can tell
(`spectrumCompress_lossless`, `spectrumSubBandCompress_lossless`): the two zeros are one number, so a
negative zero may come back as a positive one.
-/

namespace Emane.Spectrum

open Emane.Lib
open Emane.PluginApi (F64)

/-! ## Comparison -/

/-- `x == y`, false when one of them is a NaN. -/
def eqF64 (x y : F64) : Bool :=
  !x.isNan && !y.isNan && decide (x.signedMagnitude = y.signedMagnitude)

def zero : F64 := ⟨0⟩

def negZero : F64 := ⟨0x8000000000000000⟩

/-! ## Compression -/

/-- `EmaneRsSpectrumCompressedEntry` -/
abbrev CompressedEntry := Change F64

/-- `EmaneRsSpectrumSubBandCompressedEntry` -/
abbrev SubBandCompressedEntry := Change (List F64)

/-- The entries and the previous value. -/
structure CompressState where
  ret : List CompressedEntry
  dPrevious : F64

/-- The loop body of `emane_rs_spectrum_compress`. -/
def compressBin (s : CompressState) (bin : F64 × ℕ) : CompressState :=
  let (entry, i) := bin
  if !eqF64 s.dPrevious entry || (s.ret.isEmpty && !eqF64 entry zero) then
    ⟨s.ret ++ [⟨i, entry⟩], entry⟩
  else s

/-- `emane_rs_spectrum_compress` -/
def spectrumCompress (window : List F64) : List CompressedEntry :=
  (window.zipIdx.foldl compressBin ⟨[], zero⟩).ret

structure SubBandState where
  ret : List SubBandCompressedEntry
  dPrevious : List F64
  bWrite : Bool
  i : ℕ
  subBandBinIndex : ℕ

/-- The loop body of `emane_rs_spectrum_sub_band_compress`; `none` where an index is out of range. -/
def compressSubBandBin (subBandBinCount : ℕ) (s : SubBandState) (entry : F64) : Option SubBandState := do
  let previous ← s.dPrevious[s.subBandBinIndex]?
  let s :=
    if !eqF64 previous entry || (s.ret.isEmpty && !eqF64 entry zero) then
      { s with bWrite := true, dPrevious := s.dPrevious.set s.subBandBinIndex entry }
    else s
  let s := { s with subBandBinIndex := s.subBandBinIndex + 1 }
  if s.subBandBinIndex = subBandBinCount then
    let s := { s with subBandBinIndex := 0 }
    let s := if s.bWrite then { s with ret := s.ret ++ [⟨s.i, s.dPrevious⟩], bWrite := false } else s
    some { s with i := s.i + 1 }
  else some s

/-- `emane_rs_spectrum_sub_band_compress` -/
def spectrumSubBandCompress (window : List F64) (subBandBinCount : ℕ) :
    Option (List SubBandCompressedEntry) :=
  (window.foldlM (compressSubBandBin subBandBinCount)
    ⟨[], List.replicate subBandBinCount zero, false, 0, 0⟩).map SubBandState.ret

/-! ## Expansion -/

/-- The window of so many bins. -/
def expand (entries : List CompressedEntry) (bins : ℕ) : List F64 :=
  (List.range bins).map (valueAt entries zero)

/-- The window of so many rows. -/
def expandSubBands (entries : List SubBandCompressedEntry) (subBandBinCount rows : ℕ) : List F64 :=
  (List.range rows).flatMap (valueAt entries (List.replicate subBandBinCount zero))

/-- The windows have the same numbers. -/
abbrev SameWindow : List F64 → List F64 → Prop := List.Forall₂ fun x y => eqF64 x y = true

/-! ## Numbers -/

theorem eqF64_refl {x : F64} (h : x.isNan = false) : eqF64 x x = true := by simp [eqF64, h]

theorem eqF64_comm (x y : F64) : eqF64 x y = eqF64 y x := by
  unfold eqF64
  rw [Bool.and_comm (!x.isNan), decide_eq_decide.mpr eq_comm]

theorem eqF64_trans {x y z : F64} (hxy : eqF64 x y = true) (hyz : eqF64 y z = true) : eqF64 x z = true := by
  simp only [eqF64, Bool.and_eq_true, decide_eq_true_eq] at hxy hyz ⊢
  exact ⟨⟨hxy.1.1, hyz.1.2⟩, hxy.2.trans hyz.2⟩

theorem magnitude_toNat (x : F64) : x.magnitude.toNat = x.bits.toNat % 2 ^ 63 := by
  rw [F64.magnitude, UInt64.toNat_and]
  exact Nat.and_two_pow_sub_one_eq_mod x.bits.toNat 63

/-- Equal numbers are the same number, or zeros with different signs. -/
theorem eq_of_eqF64 {x y : F64} (h : eqF64 x y = true) (hx : x ≠ negZero) (hy : y ≠ negZero) : x = y := by
  simp only [eqF64, Bool.and_eq_true, decide_eq_true_eq] at h
  have heq := h.2
  have hne : ∀ {z : F64}, z ≠ negZero → z.bits.toNat ≠ 2 ^ 63 := by
    intro z hz hbits
    apply hz
    rw [negZero, F64.mk.injEq, ← UInt64.toNat_inj, hbits]
    rfl
  have hxne := hne hx
  have hyne := hne hy
  have hxlt := x.bits.toNat_lt
  have hylt := y.bits.toNat_lt
  have hsign : ∀ z : F64, z.bits < 0x8000000000000000 ↔ z.bits.toNat < 2 ^ 63 := fun z => UInt64.lt_iff_toNat_lt
  have hbits : x.bits.toNat = y.bits.toNat := by
    unfold F64.signedMagnitude at heq
    simp only [hsign, magnitude_toNat] at heq
    split at heq <;> split at heq <;> omega
  rw [F64.mk.injEq, ← UInt64.toNat_inj, hbits]

theorem sameWindow_trans {a b c : List F64} (hab : SameWindow a b) (hbc : SameWindow b c) : SameWindow a c := by
  induction hab generalizing c with
  | nil => exact hbc
  | cons hxy _ ih =>
      cases hbc with
      | cons hyz hbc => exact .cons (eqF64_trans hxy hyz) (ih hbc)

theorem eq_of_sameWindow {a b : List F64} (h : SameWindow a b) (ha : negZero ∉ a) (hb : negZero ∉ b) :
    a = b := by
  induction h with
  | nil => rfl
  | cons hxy _ ih =>
      simp only [List.mem_cons, not_or] at ha hb
      rw [eq_of_eqF64 hxy (Ne.symm ha.1) (Ne.symm hb.1), ih ha.2 hb.2]

/-! ## Single bins -/

/-- The loop after the bins of `seen`. -/
structure CompressInv (seen : List F64) (s : CompressState) : Prop where
  logs : Logs zero (fun x y => eqF64 x y = true) seen s.ret
  previous : s.dPrevious = lastValue s.ret zero
  values : ∀ entry ∈ s.ret, entry.value ∈ seen

/-- With the previous value of the log, the second test of the loops adds nothing. -/
theorem differs_iff {α : Type} {ret : List α} {previous entry : F64} (h : ret = [] → previous = zero) :
    (!eqF64 previous entry || (ret.isEmpty && !eqF64 entry zero)) = !eqF64 previous entry := by
  cases ret with
  | nil => simp [h rfl, eqF64_comm entry zero]
  | cons a ret => simp

theorem CompressInv.step {seen : List F64} {s : CompressState} (h : CompressInv seen s) {entry : F64}
    (hnan : entry.isNan = false) : CompressInv (seen ++ [entry]) (compressBin s (entry, seen.length)) := by
  have hempty : s.ret = [] → s.dPrevious = zero := by
    intro hnil
    rw [h.previous, hnil, lastValue_nil]
  unfold compressBin
  dsimp only
  rw [differs_iff hempty]
  cases hsame : eqF64 s.dPrevious entry with
  | true =>
      refine ⟨h.logs.keep (h.previous ▸ hsame), h.previous, ?_⟩
      intro change hchange
      exact List.mem_append_left _ (h.values change hchange)
  | false =>
      refine ⟨h.logs.record (eqF64_refl hnan) ?_, lastValue_concat.symm, ?_⟩
      · rw [← h.previous, hsame]
        simp
      · intro change hchange
        rcases List.mem_append.mp hchange with hchange | hchange
        · exact List.mem_append_left _ (h.values change hchange)
        · rw [List.mem_singleton.mp hchange]
          simp

theorem compress_inv {window : List F64} (hnan : ∀ x ∈ window, x.isNan = false) :
    CompressInv window (window.zipIdx.foldl compressBin ⟨[], zero⟩) := by
  induction window using List.reverseRecOn with
  | nil => exact ⟨.nil, rfl, by simp⟩
  | append_singleton seen entry ih =>
      rw [List.zipIdx_append, List.foldl_append]
      simpa using (ih fun x hx => hnan x (by simp [hx])).step (hnan entry (by simp))

/-! ## Rows of sub-bands -/

/-- The row before with the columns that changed replaced, as far as the new row is read. -/
def merge : List F64 → List F64 → List F64
  | previous :: last, entry :: part => (if eqF64 previous entry then previous else entry) :: merge last part
  | last, _ => last

/-- A column of the new row has changed. -/
def changed : List F64 → List F64 → Bool
  | previous :: last, entry :: part => !eqF64 previous entry || changed last part
  | _, _ => false

section

variable {last part : List F64} {entry previous : F64}

@[simp] theorem merge_nil (last : List F64) : merge last [] = last := by cases last <;> rfl

@[simp] theorem changed_nil (last : List F64) : changed last [] = false := by cases last <;> rfl

/-- The columns that are not read yet are those of the row before. -/
theorem getElem?_merge (last part : List F64) : (merge last part)[part.length]? = last[part.length]? := by
  induction part generalizing last with
  | nil => simp
  | cons entry part ih =>
      cases last with
      | nil => rfl
      | cons previous last => simpa [merge] using ih last

theorem length_merge (last part : List F64) : (merge last part).length = last.length := by
  induction part generalizing last with
  | nil => simp
  | cons entry part ih =>
      cases last with
      | nil => rfl
      | cons previous last => simp [merge, ih last]

theorem merge_concat (h : last[part.length]? = some previous) : merge last (part ++ [entry]) =
    if eqF64 previous entry then merge last part else (merge last part).set part.length entry := by
  induction part generalizing last with
  | nil =>
      cases last with
      | nil => cases h
      | cons first last =>
          cases Option.some.inj h
          simp only [List.nil_append, merge, merge_nil, List.length_nil, List.set_cons_zero]
          split <;> rfl
  | cons first part ih =>
      cases last with
      | nil => cases h
      | cons a last =>
          rw [List.length_cons, List.getElem?_cons_succ] at h
          simp only [List.cons_append, merge, ih h, List.length_cons, List.set_cons_succ]
          cases eqF64 previous entry <;> rfl

theorem changed_concat (h : last[part.length]? = some previous) :
    changed last (part ++ [entry]) = (changed last part || !eqF64 previous entry) := by
  induction part generalizing last with
  | nil =>
      cases last with
      | nil => cases h
      | cons first last =>
          cases Option.some.inj h
          simp [changed]
  | cons first part ih =>
      cases last with
      | nil => cases h
      | cons a last =>
          rw [List.length_cons, List.getElem?_cons_succ] at h
          simp only [List.cons_append, changed, ih h, Bool.or_assoc]

/-- A row without a changed column is the same as the one before. -/
theorem changed_eq_false_iff (h : part.length = last.length) : changed last part = false ↔ SameWindow last part := by
  induction part generalizing last with
  | nil =>
      obtain rfl := List.eq_nil_of_length_eq_zero h.symm
      simp
  | cons entry part ih =>
      cases last with
      | nil => cases h
      | cons previous last =>
          rw [changed, Bool.or_eq_false_iff, Bool.not_eq_false', ih (Nat.succ.inj h)]
          constructor
          · rintro ⟨hentry, hrest⟩
            exact .cons hentry hrest
          · rintro (_ | ⟨hentry, hrest⟩)
            exact ⟨hentry, hrest⟩

theorem merge_eq_self (h : changed last part = false) : merge last part = last := by
  induction part generalizing last with
  | nil => exact merge_nil last
  | cons entry part ih =>
      cases last with
      | nil => rfl
      | cons previous last =>
          rw [changed, Bool.or_eq_false_iff, Bool.not_eq_false'] at h
          rw [merge, if_pos h.1, ih h.2]

/-- A row that is read to its end is the same as the row that is written for it. -/
theorem sameWindow_merge (h : part.length = last.length) (hnan : ∀ x ∈ part, x.isNan = false) :
    SameWindow (merge last part) part := by
  induction part generalizing last with
  | nil =>
      obtain rfl := List.eq_nil_of_length_eq_zero h.symm
      exact .nil
  | cons entry part ih =>
      cases last with
      | nil => cases h
      | cons previous last =>
          refine .cons ?_ (ih (Nat.succ.inj h) fun x hx => hnan x (by simp [hx]))
          split
          · assumption
          · exact eqF64_refl (hnan entry (by simp))

theorem mem_merge {x : F64} (h : x ∈ merge last part) : x ∈ last ∨ x ∈ part := by
  induction part generalizing last with
  | nil => exact .inl (merge_nil last ▸ h)
  | cons entry part ih =>
      cases last with
      | nil => exact .inl h
      | cons previous last =>
          rcases List.mem_cons.mp h with rfl | h
          · split <;> simp
          · rcases ih h with h | h <;> simp [h]

end

/-- The loop after the rows `rows` and a part of the next one. -/
structure SubBandInv (n : ℕ) (rows : List (List F64)) (part : List F64) (s : SubBandState) : Prop where
  logs : Logs (List.replicate n zero) SameWindow rows s.ret
  length_last : (lastValue s.ret (List.replicate n zero)).length = n
  length_row : ∀ row ∈ rows, row.length = n
  part_lt : part.length < n
  index : s.subBandBinIndex = part.length
  row : s.i = rows.length
  previous : s.dPrevious = merge (lastValue s.ret (List.replicate n zero)) part
  write : s.bWrite = changed (lastValue s.ret (List.replicate n zero)) part
  values : ∀ change ∈ s.ret, ∀ x ∈ change.value, x = zero ∨ x ∈ rows.flatten ++ part

theorem SubBandInv.start {n : ℕ} (hn : 1 ≤ n) :
    SubBandInv n [] [] ⟨[], List.replicate n zero, false, 0, 0⟩ where
  logs := .nil
  length_last := by simp
  length_row := by simp
  part_lt := hn
  index := rfl
  row := rfl
  previous := by simp
  write := by simp
  values := by simp

/-- The update of the row before is the merge with one more column. -/
theorem SubBandInv.update {n : ℕ} {rows : List (List F64)} {part : List F64} {s : SubBandState}
    (h : SubBandInv n rows part s) (entry : F64) :
    ∃ previous, s.dPrevious[s.subBandBinIndex]? = some previous ∧
      (if !eqF64 previous entry || (s.ret.isEmpty && !eqF64 entry zero) then
        { s with bWrite := true, dPrevious := s.dPrevious.set s.subBandBinIndex entry } else s) =
        { s with
          bWrite := changed (lastValue s.ret (List.replicate n zero)) (part ++ [entry])
          dPrevious := merge (lastValue s.ret (List.replicate n zero)) (part ++ [entry]) } := by
  have hlt : part.length < (lastValue s.ret (List.replicate n zero)).length := by
    rw [h.length_last]
    exact h.part_lt
  have hprevious := List.getElem?_eq_getElem hlt
  refine ⟨_, by rw [h.previous, h.index, getElem?_merge, hprevious], ?_⟩
  have hempty : s.ret = [] → (lastValue s.ret (List.replicate n zero))[part.length] = zero := by
    intro hnil
    simp [hnil]
  rw [differs_iff hempty, changed_concat hprevious, merge_concat hprevious, ← h.previous, ← h.write]
  cases eqF64 (lastValue s.ret (List.replicate n zero))[part.length] entry with
  | true => simp
  | false => simp [h.index]

theorem SubBandInv.step {n : ℕ} {rows : List (List F64)} {part : List F64} {s : SubBandState}
    (h : SubBandInv n rows part s) {entry : F64} (hnan : ∀ x ∈ part ++ [entry], x.isNan = false) :
    ∃ s', compressSubBandBin n s entry = some s' ∧ ∃ rows' part',
      rows'.flatten ++ part' = rows.flatten ++ part ++ [entry] ∧ SubBandInv n rows' part' s' := by
  obtain ⟨previous, hprevious, hupdate⟩ := h.update entry
  unfold compressSubBandBin
  rw [hprevious, Option.bind_eq_bind, Option.bind_some]
  dsimp only
  rw [hupdate]
  dsimp only
  have hlast := h.length_last
  have hvalues : ∀ x ∈ lastValue s.ret (List.replicate n zero), x = zero ∨ x ∈ rows.flatten ++ part := by
    intro x hx
    cases hlog : s.ret.getLast? with
    | none =>
        rw [lastValue, hlog] at hx
        exact .inl (List.eq_of_mem_replicate hx)
    | some change =>
        rw [lastValue, hlog] at hx
        exact h.values change (List.mem_of_getLast? hlog) x hx
  generalize hdef : lastValue s.ret (List.replicate n zero) = last at hlast hvalues ⊢
  split
  · next hfull =>
      -- the row is complete
      rw [h.index] at hfull
      have hlength : (part ++ [entry]).length = last.length := by
        rw [hlast, ← hfull, List.length_append, List.length_singleton]
      have hflat : (rows ++ [part ++ [entry]]).flatten ++ [] = rows.flatten ++ part ++ [entry] := by simp
      have hrow : ∀ row ∈ rows ++ [part ++ [entry]], row.length = n := by
        intro row hrow
        rcases List.mem_append.mp hrow with hrow | hrow
        · exact h.length_row row hrow
        · rw [List.mem_singleton.mp hrow, hlength, hlast]
      have hpos : ([] : List F64).length < n := by
        rw [← hfull]
        exact Nat.succ_pos _
      cases hchanged : changed last (part ++ [entry]) with
      | true =>
          have hsame := sameWindow_merge hlength hnan
          have hdiffers : ¬ SameWindow (lastValue s.ret (List.replicate n zero)) (merge last (part ++ [entry])) := by
            rw [hdef]
            intro hmerge
            have hrow := (changed_eq_false_iff hlength).mpr (sameWindow_trans hmerge hsame)
            rw [hchanged] at hrow
            cases hrow
          refine ⟨_, rfl, rows ++ [part ++ [entry]], [], hflat, ?_⟩
          constructor
          · simpa [h.row] using h.logs.record hsame hdiffers
          · simpa [length_merge] using hlast
          · exact hrow
          · exact hpos
          · rfl
          · simp [h.row]
          · simp
          · simp
          · intro change hchange x hx
            simp only [if_true, List.mem_append, List.mem_singleton] at hchange
            rcases hchange with hchange | rfl
            · exact (h.values change hchange x hx).imp_right fun hmem => by
                rw [hflat]
                exact List.mem_append_left _ hmem
            · rcases mem_merge hx with hx | hx
              · exact (hvalues x hx).imp_right fun hmem => by
                  rw [hflat]
                  exact List.mem_append_left _ hmem
              · right
                rw [hflat, List.append_assoc]
                exact List.mem_append_right _ hx
      | false =>
          refine ⟨_, rfl, rows ++ [part ++ [entry]], [], hflat, ?_⟩
          constructor
          · exact h.logs.keep (hdef ▸ (changed_eq_false_iff hlength).mp hchanged)
          · exact hdef ▸ hlast
          · exact hrow
          · exact hpos
          · rfl
          · simp [h.row]
          · simp [hdef, merge_eq_self hchanged]
          · simp
          · intro change hchange x hx
            exact (h.values change hchange x hx).imp_right fun hmem => by
              rw [hflat]
              exact List.mem_append_left _ hmem
  · next hmore =>
      rw [h.index] at hmore
      refine ⟨_, rfl, rows, part ++ [entry], by rw [List.append_assoc], ?_⟩
      constructor
      · exact h.logs
      · exact hdef ▸ hlast
      · exact h.length_row
      · have := h.part_lt
        rw [List.length_append, List.length_singleton]
        omega
      · simp [h.index]
      · exact h.row
      · rw [hdef]
      · rw [hdef]
      · intro change hchange x hx
        exact (h.values change hchange x hx).imp_right fun hmem => by
          rw [← List.append_assoc]
          exact List.mem_append_left _ hmem

theorem subBand_inv {n : ℕ} (hn : 1 ≤ n) {window : List F64} (hnan : ∀ x ∈ window, x.isNan = false) :
    ∃ s, window.foldlM (compressSubBandBin n) ⟨[], List.replicate n zero, false, 0, 0⟩ = some s ∧
      ∃ rows part, rows.flatten ++ part = window ∧ SubBandInv n rows part s := by
  induction window using List.reverseRecOn with
  | nil => exact ⟨_, rfl, [], [], rfl, .start hn⟩
  | append_singleton seen entry ih =>
      obtain ⟨s, hrun, rows, part, rfl, hinv⟩ := ih fun x hx => hnan x (by simp [hx])
      have hpart : ∀ x ∈ part ++ [entry], x.isNan = false := fun x hx => hnan x (by simp_all)
      obtain ⟨s', hstep, rows', part', hflat, hinv'⟩ := hinv.step hpart
      refine ⟨s', ?_, rows', part', hflat, hinv'⟩
      rw [List.foldlM_append, hrun]
      simpa using hstep

/-! ## Nothing is lost -/

/-- The entries of a window give it back; without a negative zero, exactly. -/
structure Lossless (expanded window : List F64) : Prop where
  same : SameWindow expanded window
  eq : negZero ∉ window → expanded = window

theorem Lossless.of_values {expanded window : List F64} (hsame : SameWindow expanded window)
    (hvalues : ∀ x ∈ expanded, x = zero ∨ x ∈ window) : Lossless expanded window where
  same := hsame
  eq := by
    intro hwindow
    refine eq_of_sameWindow hsame ?_ hwindow
    intro hmem
    rcases hvalues negZero hmem with hzero | hmem
    · cases hzero
    · exact hwindow hmem

theorem lossless_compress {window : List F64} (hnan : ∀ x ∈ window, x.isNan = false) :
    Lossless (expand (spectrumCompress window) window.length) window := by
  have hinv := compress_inv hnan
  refine .of_values hinv.logs.forall₂ ?_
  intro x hx
  obtain ⟨i, -, rfl⟩ := List.mem_map.mp hx
  exact valueAt_of_all (P := fun x => x = zero ∨ x ∈ window) (.inl rfl)
    (fun change hchange => .inr (hinv.values change hchange)) i

theorem lossless_subBandCompress {window : List F64} (hnan : ∀ x ∈ window, x.isNan = false) {n : ℕ}
    (hn : 1 ≤ n) (hrows : n ∣ window.length) : ∃ entries, spectrumSubBandCompress window n = some entries ∧
      Lossless (expandSubBands entries n (window.length / n)) window ∧
        entries.IsChain fun first second => ¬ SameWindow first.value second.value := by
  obtain ⟨s, hrun, rows, part, hflat, hinv⟩ := subBand_inv hn hnan
  have hlength : window.length = n * rows.length + part.length := by
    have hsum : rows.flatten.length = n * rows.length := by
      rw [List.length_flatten, List.map_congr_left hinv.length_row, List.map_const', List.sum_replicate,
        smul_eq_mul, Nat.mul_comm]
    rw [← hflat, List.length_append, hsum]
  have hnil : part = [] := by
    rw [hlength, Nat.dvd_add_right (Nat.dvd_mul_right ..)] at hrows
    exact List.eq_nil_of_length_eq_zero (Nat.eq_zero_of_dvd_of_lt hrows hinv.part_lt)
  subst hnil
  rw [List.append_nil] at hflat
  subst hflat
  have hcount : rows.flatten.length / n = rows.length := by
    rw [hlength, List.length_nil, Nat.add_zero, Nat.mul_div_cancel_left _ hn]
  refine ⟨s.ret, by rw [spectrumSubBandCompress, hrun, Option.map_some], ?_, hinv.logs.distinct⟩
  rw [hcount, expandSubBands, List.flatMap_def]
  refine .of_values (List.rel_flatten hinv.logs.forall₂) ?_
  intro x hx
  obtain ⟨row, hrow, hx⟩ := List.mem_flatten.mp hx
  obtain ⟨i, -, rfl⟩ := List.mem_map.mp hrow
  refine valueAt_of_all (P := fun row => ∀ x ∈ row, x = zero ∨ x ∈ rows.flatten) ?_ ?_ i x hx
  · intro x hx
    exact .inl (List.eq_of_mem_replicate hx)
  · intro change hchange x hx
    simpa using hinv.values change hchange x hx

/-- **Compression is lossless**, bin by bin and row by row, and repeats no value. -/
theorem compression_lossless {window : List F64} (hnan : ∀ x ∈ window, x.isNan = false) :
    (Lossless (expand (spectrumCompress window) window.length) window ∧
      (spectrumCompress window).IsChain fun first second => eqF64 first.value second.value = false) ∧
    ∀ n, 1 ≤ n → n ∣ window.length → ∃ entries, spectrumSubBandCompress window n = some entries ∧
      Lossless (expandSubBands entries n (window.length / n)) window ∧
        entries.IsChain fun first second => ¬ SameWindow first.value second.value := by
  refine ⟨⟨lossless_compress hnan, ?_⟩, fun n hn hrows => lossless_subBandCompress hnan hn hrows⟩
  exact (compress_inv hnan).logs.distinct.imp fun _ _ h => Bool.eq_false_iff.mpr h

/-- Two rows of two columns, of which one changes. -/
theorem compression_lossless_rows :
    Lossless (expand (spectrumCompress [zero, ⟨1⟩, zero, ⟨2⟩]) 4) [zero, ⟨1⟩, zero, ⟨2⟩] ∧
      spectrumSubBandCompress [zero, ⟨1⟩, zero, ⟨2⟩] 2 = some [⟨0, [zero, ⟨1⟩]⟩, ⟨1, [zero, ⟨2⟩]⟩] ∧
      Lossless (expandSubBands [⟨0, [zero, ⟨1⟩]⟩, ⟨1, [zero, ⟨2⟩]⟩] 2 2) [zero, ⟨1⟩, zero, ⟨2⟩] := by
  obtain ⟨⟨hsingle, -⟩, hrows⟩ := compression_lossless (show ∀ x ∈ [zero, ⟨1⟩, zero, ⟨2⟩], x.isNan = false by decide)
  obtain ⟨entries, hentries, hlossless, -⟩ := hrows 2 (by decide) (by decide)
  have hrun : spectrumSubBandCompress [zero, ⟨1⟩, zero, ⟨2⟩] 2 =
      some [⟨0, [zero, ⟨1⟩]⟩, ⟨1, [zero, ⟨2⟩]⟩] := by decide +kernel
  obtain rfl := Option.some.inj (hentries.symm.trans hrun)
  exact ⟨hsingle, hrun, hlossless⟩

end Emane.Spectrum
