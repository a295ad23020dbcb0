import Emane.Lib.Run
import Emane.Noise.Refinement

set_option autoImplicit false

/-! # Energy credited to one transmitter

`update` starts a reception past the end-of-reception bins stored for its transmitters, so that no
bin is credited twice to the same NEM and antenna. The stored bin is overwritten by every call, also
by one that records nothing, so it can fall; `NotBelowStored` says that a call does not lower it.
Along runs of such calls the stored bin bounds every credited interval (`Bounded`), and the
intervals of one NEM and antenna are disjoint.
-/

namespace Emane.Noise

open Emane.Lib

namespace NoiseRecorder

/-- The calls of a run that record bins, with the intervals that `update` has recorded for them, oldest
first. A panic ends the run. -/
def credited (r : NoiseRecorder) : List UpdateCall → List (UpdateCall × ℤ × ℤ)
  | [] => []
  | c :: calls =>
      match r.updateBins c with
      | some (r', bins) => bins.toList.map (c, ·) ++ r'.credited calls
      | none => []

/-- The intervals credited to a NEM on an antenna. -/
def creditedTo (nem antenna : ℕ) (credits : List (UpdateCall × ℤ × ℤ)) : List (ℤ × ℤ) :=
  (credits.filter fun x => decide (nem ∈ x.1.transmitters ∧ x.1.txAntennaIndex = antenna)).map (·.2)

/-- No end-of-reception bin stored for a transmitter of the call is above the call's own. -/
def NotBelowStored (r : NoiseRecorder) (c : UpdateCall) : Prop :=
  ∀ nem ∈ c.transmitters, ∀ e ∈ r.eorBinOf nem c.txAntennaIndex, e ≤ c.eorBin r.binSizeMicroseconds

instance (r : NoiseRecorder) (c : UpdateCall) : Decidable (r.NotBelowStored c) :=
  inferInstanceAs (Decidable (∀ nem ∈ c.transmitters, ∀ e ∈ r.eorBinOf nem c.txAntennaIndex,
    e ≤ c.eorBin r.binSizeMicroseconds))

/-! ## What a step does to the stored bins -/

/-- A completed step stores the call's end-of-reception bin for its transmitters and changes
nothing else of the store. -/
theorem eorBinOf_step {r r' : NoiseRecorder} {c : UpdateCall} (h : r.step c = some r')
    (hmore : c.isMore = false) (nem antenna : ℕ) :
    r'.binSizeMicroseconds = r.binSizeMicroseconds ∧
      r'.eorBinOf nem antenna =
        if nem ∈ c.transmitters ∧ c.txAntennaIndex = antenna then
          some (c.eorBin r.binSizeMicroseconds)
        else r.eorBinOf nem antenna := by
  rw [step] at h
  obtain ⟨⟨r₃, sor, eor⟩, hupd, rfl⟩ := Option.map_eq_some_iff.mp h
  obtain ⟨r₁, first, count, r₂, hmap, hrecord, rfl, -, -⟩ := update_cases hupd
  obtain ⟨map, rfl⟩ := mapSubBands_frame hmap
  have hframe : r₂.binSizeMicroseconds = r.binSizeMicroseconds ∧
      r₂.nemAntennaIndexEorBinMap = r.nemAntennaIndexEorBinMap := by
    rcases hrecord with ⟨-, hrecord⟩ | ⟨-, rfl⟩
    · obtain ⟨w, minStart, maxEnd, rfl⟩ := record_frame hrecord
      exact ⟨rfl, rfl⟩
    · exact ⟨rfl, rfl⟩
  simp only [storeEorBins, hmore, Bool.false_eq_true, if_false, eorBinOf, foldl_insertEorBin,
    hframe.1, hframe.2, and_self]

/-- The adjusted start is past every bin stored for a transmitter of the call. -/
theorem lt_effectiveStartBin {r : NoiseRecorder} {c : UpdateCall} {nem : ℕ} {e : ℤ}
    (hnem : nem ∈ c.transmitters) (he : r.eorBinOf nem c.txAntennaIndex = some e) :
    e < r.effectiveStartBin c := by
  have hstored : r.storedMaxEorBin c.transmitters c.txAntennaIndex
      = (c.transmitters.filterMap (r.eorBinOf · c.txAntennaIndex)).foldl max 0 :=
    foldl_stored (fun t => r.eorBinOf t c.txAntennaIndex) c.transmitters 0
  have hle : e ≤ r.storedMaxEorBin c.transmitters c.txAntennaIndex := by
    rw [hstored]
    exact le_foldl_max_of_mem _ 0 (List.mem_filterMap.mpr ⟨nem, hnem, he⟩)
  simp only [effectiveStartBin]
  split <;> omega

/-! ## Runs -/

/-- Everything credited so far to a NEM and antenna ends at or before the stored bin. -/
def Bounded (r : NoiseRecorder) (nem antenna : ℕ) (past : List (ℤ × ℤ)) : Prop :=
  ∀ x ∈ past, ∃ e, r.eorBinOf nem antenna = some e ∧ x.2 ≤ e

theorem creditedTo_cons (nem antenna : ℕ) (c : UpdateCall) (o : Option (ℤ × ℤ))
    (credits : List (UpdateCall × ℤ × ℤ)) :
    creditedTo nem antenna (o.toList.map (c, ·) ++ credits)
      = (if nem ∈ c.transmitters ∧ c.txAntennaIndex = antenna then o.toList else [])
        ++ creditedTo nem antenna credits := by
  cases o with
  | none => simp [creditedTo]
  | some x =>
      by_cases h : nem ∈ c.transmitters ∧ c.txAntennaIndex = antenna <;> simp [creditedTo, h]

/-- **The step**: what a call credits starts after everything credited before, and the stored bin
still bounds it all. -/
theorem Bounded.step {r r' : NoiseRecorder} {c : UpdateCall} {nem antenna : ℕ}
    {past : List (ℤ × ℤ)} (h : r.Bounded nem antenna past) (hmore : c.isMore = false)
    (hcond : r.NotBelowStored c) (hstep : r.step c = some r') :
    (∀ x ∈ past, ∀ y ∈ (if nem ∈ c.transmitters ∧ c.txAntennaIndex = antenna then
        (r.recordedBins c).toList else []), x.2 < y.1) ∧
      r'.Bounded nem antenna (past ++ (if nem ∈ c.transmitters ∧ c.txAntennaIndex = antenna then
        (r.recordedBins c).toList else [])) := by
  obtain ⟨-, heor⟩ := eorBinOf_step hstep hmore nem antenna
  by_cases hmem : nem ∈ c.transmitters ∧ c.txAntennaIndex = antenna
  · rw [if_pos hmem] at heor ⊢
    obtain ⟨hnem, rfl⟩ := hmem
    refine ⟨?_, ?_⟩
    · intro x hx y hy
      obtain ⟨e, he, hxe⟩ := h x hx
      have hlt := lt_effectiveStartBin hnem he
      simp only [recordedBins] at hy
      split at hy
      · simp only [Option.toList_some, List.mem_singleton] at hy
        subst hy
        exact lt_of_le_of_lt hxe hlt
      · simp at hy
    · intro x hx
      refine ⟨_, heor, ?_⟩
      rcases List.mem_append.mp hx with hx | hx
      · obtain ⟨e, he, hxe⟩ := h x hx
        exact le_trans hxe (hcond nem hnem e (Option.mem_def.mpr he))
      · simp only [recordedBins] at hx
        split at hx
        · simp only [Option.toList_some, List.mem_singleton] at hx
          rw [hx]
        · simp at hx
  · rw [if_neg hmem] at heor ⊢
    refine ⟨by simp, ?_⟩
    rw [List.append_nil]
    intro x hx
    rw [heor]
    exact h x hx

theorem pairwise_credited (nem antenna : ℕ) :
    ∀ (calls : List UpdateCall) (r : NoiseRecorder) (past : List (ℤ × ℤ)),
      r.Bounded nem antenna past → past.Pairwise (fun x y => x.2 < y.1) →
      (∀ c ∈ calls, c.isMore = false) → RunMeets NoiseRecorder.step NotBelowStored r calls →
      (past ++ creditedTo nem antenna (r.credited calls)).Pairwise (fun x y => x.2 < y.1) := by
  intro calls
  induction calls with
  | nil =>
      intro r past _ hpast _ _
      simpa [credited, creditedTo] using hpast
  | cons c calls ih =>
      intro r past hbound hpast hmore hmeets
      obtain ⟨hcond, hrest⟩ := hmeets
      rw [credited]
      cases hupdate : r.updateBins c with
      | none => simpa [creditedTo] using hpast
      | some x =>
          obtain ⟨r', bins⟩ := x
          obtain ⟨hstep, rfl⟩ := updateBins_spec hupdate
          obtain ⟨hlt, hbound'⟩ := hbound.step (hmore c (by simp)) hcond hstep
          simp only [creditedTo_cons, ← List.append_assoc]
          refine ih r' _ hbound' ?_ (fun c' hc' => hmore c' (by simp [hc'])) (hrest r' hstep)
          refine List.pairwise_append.mpr ⟨hpast, ?_, hlt⟩
          split
          · cases r.recordedBins c <;> simp
          · exact List.Pairwise.nil

end NoiseRecorder

/-- **No bin is credited twice to a NEM and antenna** in a run in which no call stores an
end-of-reception bin below one already stored for its transmitters: the recorded intervals follow
each other, so they are pairwise disjoint. -/
theorem credited_pairwise_disjoint (bin maxOffset maxPropagation maxDuration : ℤ)
    (frequencyHz bandwidthHz bandwidthBinSizeHz : ℕ) (calls : List UpdateCall)
    (hmore : ∀ c ∈ calls, c.isMore = false)
    (hstored : RunMeets NoiseRecorder.step NoiseRecorder.NotBelowStored
      (NoiseRecorder.new bin maxOffset maxPropagation maxDuration frequencyHz bandwidthHz
        bandwidthBinSizeHz) calls) (nem antenna : ℕ) :
    (NoiseRecorder.creditedTo nem antenna ((NoiseRecorder.new bin maxOffset maxPropagation
      maxDuration frequencyHz bandwidthHz bandwidthBinSizeHz).credited calls)).Pairwise
        (fun x y => Disjoint (Set.Icc x.1 x.2) (Set.Icc y.1 y.2)) := by
  have h := NoiseRecorder.pairwise_credited nem antenna calls _ []
    (fun x hx => absurd hx (by simp)) List.Pairwise.nil hmore hstored
  refine List.Pairwise.imp ?_ (by simpa using h)
  intro x y hxy
  rw [Set.disjoint_left]
  intro k hx hy
  exact absurd (le_trans hy.1 hx.2) (not_le.mpr hxy)

/-- Three receptions of one NEM, each starting where the last one ended. -/
theorem credited_pairwise_disjoint_chain :
    (NoiseRecorder.creditedTo 1 0 ((NoiseRecorder.new 10 10 10 100 1000 100 0).credited
        [receptionAt 1000 40 1 1 950 1050, receptionAt 1020 40 1 1 950 1050,
          receptionAt 1060 20 1 1 950 1050])) = [(100, 103), (104, 105), (106, 107)] ∧
    (NoiseRecorder.creditedTo 1 0 ((NoiseRecorder.new 10 10 10 100 1000 100 0).credited
        [receptionAt 1000 40 1 1 950 1050, receptionAt 1020 40 1 1 950 1050,
          receptionAt 1060 20 1 1 950 1050])).Pairwise
      (fun x y => Disjoint (Set.Icc x.1 x.2) (Set.Icc y.1 y.2)) :=
  ⟨by decide +kernel, credited_pairwise_disjoint 10 10 10 100 1000 100 0 _ (by decide)
    (by decide +kernel) 1 0⟩

/-- One NEM transmits in bins `100..109`, then in `102..103`, then in `104..108`. The second
reception records nothing but lowers the stored bin to `103`, and the third one is credited for
bins the first one already has. -/
theorem credited_twice :
    NoiseRecorder.creditedTo 1 0 ((NoiseRecorder.new 10 10 10 100 1000 100 0).credited
      [receptionAt 1000 100 1 1 950 1050, receptionAt 1020 20 1 1 950 1050,
        receptionAt 1040 50 1 1 950 1050]) = [(100, 109), (104, 108)] ∧
    ¬ Disjoint (Set.Icc (100 : ℤ) 109) (Set.Icc 104 108) := by
  refine ⟨by decide +kernel, ?_⟩
  rw [Set.not_disjoint_iff]
  exact ⟨104, by constructor <;> decide, by constructor <;> decide⟩

end Emane.Noise
