import Mathlib
import Emane.Eel.Delivery
import Emane.Eel.Records

set_option autoImplicit false

/-! # What the receivers have seen

The caches of a loader as stores, and for each loader the relation between its caches, the changes so far
and the tables: the receivers have `seen` what is not in `deltaCache`. Entering a change keeps it, and so
does a publication, after which everything was seen.
-/

namespace Emane.Eel

open Emane.Lib
open Emane.Phy (Position Orientation Velocity Location)
open Emane.PluginApi (F32 F64)
open Std (ExtTreeMap TransOrd LawfulEqOrd)

/-! ## Caches as stores -/

/-- A map as a store. -/
def stored {α β : Type} [Ord α] [TransOrd α] (t : ExtTreeMap α β) : α → Option β := fun a => t[a]?

/-- A map of maps as a store. -/
def storedAt {β : Type} (t : ExtTreeMap UInt16 (ExtTreeMap UInt16 β)) : UInt16 × UInt16 → Option β :=
  fun k => getAt? t k.1 k.2

/-- The pathlosses at frequencies as a store. -/
def storedEx (cache : PathlossExCache) : UInt16 × UInt16 × UInt64 → Option F32 := fun k =>
  (cache[k.1]?).bind fun sources => getAt? sources k.2.1 k.2.2

theorem stored_insert {α β : Type} [Ord α] [TransOrd α] [LawfulEqOrd α] [DecidableEq α]
    (t : ExtTreeMap α β) (a : α) (b : β) : stored (t.insert a b) = overlay (single a b) (stored t) := by
  funext k
  unfold stored overlay single
  rw [ExtTreeMap.getElem?_insert]
  simp only [LawfulEqOrd.compare_eq_iff_eq]
  split_ifs <;> rfl

theorem storedAt_updateCache (cache : ExtTreeMap UInt16 (ExtTreeMap UInt16 PathlossEntry)) (dst src : UInt16)
    (forward reverse : F32) : storedAt (PathlossLoader.updateCache cache dst src forward reverse) =
      overlay (fun k => directed dst src (⟨forward, reverse⟩ : PathlossEntry) ⟨reverse, forward⟩ k.1 k.2)
        (storedAt cache) := by
  funext k
  unfold storedAt overlay directed PathlossLoader.updateCache
  rw [getAt?_insertAt, getAt?_insertAt]
  dsimp only
  split_ifs <;> rfl

theorem storedEx_insertValue (cache : PathlossExCache) (dst src : UInt16) (frequencyHz : UInt64)
    (value : F32) (k : UInt16 × UInt16 × UInt64) :
    storedEx (PathlossExLoader.insertValue cache dst src frequencyHz value) k =
      if dst = k.1 ∧ src = k.2.1 ∧ frequencyHz = k.2.2 then some value else storedEx cache k := by
  obtain ⟨receiver, source, f⟩ := k
  unfold storedEx PathlossExLoader.insertValue
  rw [ExtTreeMap.getElem?_insert]
  simp only [LawfulEqOrd.compare_eq_iff_eq]
  by_cases hdst : dst = receiver
  · subst hdst
    rw [if_pos rfl, Option.bind_some, getAt?_insertAt]
    -- a receiver that is new has no pathlosses
    cases hget : cache[dst]? with
    | none => simp [getAt?]
    | some sources => simp
  · rw [if_neg hdst, if_neg fun h => hdst h.1]

theorem storedEx_updateCache (cache : PathlossExCache) (dst src : UInt16) (frequencyHz : UInt64)
    (forward reverse : F32) :
    storedEx (PathlossExLoader.updateCache cache dst src frequencyHz forward reverse) =
      overlay (fun k => if k.2.2 = frequencyHz then directed dst src forward reverse k.1 k.2.1 else none)
        (storedEx cache) := by
  funext k
  unfold PathlossExLoader.updateCache overlay directed
  rw [storedEx_insertValue, storedEx_insertValue]
  dsimp only
  by_cases hf : k.2.2 = frequencyHz
  · rw [if_pos hf]
    simp only [hf, and_true]
    split_ifs <;> rfl
  · rw [if_neg hf, if_neg fun h => hf h.2.2.symm, if_neg fun h => hf h.2.2.symm, Option.none_or]

/-! ## Locations -/

/-- The entry of a NEM, by what was entered last. -/
def LocationEntry.ofLatest (position : Option Position) (orientation : Option Orientation)
    (velocity : Option Velocity) : Option LocationEntry :=
  if position.isSome ∨ orientation.isSome ∨ velocity.isSome then
    some ⟨position.isSome, position.getD default.position, orientation.isSome,
      orientation.getD default.orientation, velocity.isSome, velocity.getD default.velocity⟩
  else none

theorem LocationEntry.ofLatest_or (position : Option Position) (orientation : Option Orientation)
    (velocity : Option Velocity) (reading : Reading) :
    ofLatest (reading.position?.or position) (reading.orientation?.or orientation)
        (reading.velocity?.or velocity) =
      some (((ofLatest position orientation velocity).getD default).set reading) := by
  cases reading <;> cases position <;> cases orientation <;> cases velocity <;> rfl

/-- The location of an entry is that of a position exactly if there is a position. -/
theorem LocationEntry.ofLatest_map_location (position : Option Position) (orientation : Option Orientation)
    (velocity : Option Velocity) :
    (ofLatest position orientation velocity).map location = position.map (fun position =>
        { latitudeDegrees := position.latitudeDegrees
          longitudeDegrees := position.longitudeDegrees
          altitudeMeters := position.altitudeMeters
          velocity := velocity
          orientation := orientation.getD Orientation.default }) ↔
      (orientation.isSome ∨ velocity.isSome → position.isSome) := by
  cases position with
  | none => cases orientation <;> cases velocity <;> simp [ofLatest]
  | some position => cases orientation <;> cases velocity <;> simp [ofLatest, location, merge]

variable {rs : List Change} {receivers : UInt16 → Receiver}

/-- The receivers have seen the entries that are not new. -/
structure LocationSeen (rs : List Change) (loader : LocationLoader) (receivers : UInt16 → Receiver)
    (seen : UInt16 → Option LocationEntry) : Prop where
  tracks : Tracks (stored loader.cache) (stored loader.deltaCache) seen
  before : ∀ n old, seen n = some old → ∃ entry, stored loader.cache n = some entry ∧ old.Before entry
  valid : ∀ n entry, stored loader.cache n = some entry → entry.Valid
  entry : ∀ n, stored loader.cache n = LocationEntry.ofLatest (latest Change.position? rs n)
    (latest Change.orientation? rs n) (latest Change.velocity? rs n)
  table : ∀ r n, (receivers r).phy.locations[n]? = (seen n).map LocationEntry.location

namespace LocationSeen

variable {loader : LocationLoader} {seen : UInt16 → Option LocationEntry}

theorem valid_set {entry : LocationEntry} (h : entry.Valid) {reading : Reading} (hreading : reading.valid) :
    (entry.set reading).Valid := by
  cases reading with
  | position => exact ⟨hreading, h.orientation, h.velocity⟩
  | orientation => exact ⟨h.position, hreading, h.velocity⟩
  | velocity => exact ⟨h.position, h.orientation, hreading⟩

/-- A change for another loader. -/
theorem skip (h : LocationSeen rs loader receivers seen) {change : Change} (hchange : change.kind ≠ .location) :
    LocationSeen (rs ++ [change]) loader receivers seen := by
  have hreading : ∀ n, change.reading? n = none := by
    intro n
    cases change with
    | place => exact absurd rfl hchange
    | pathloss => rfl
    | pathlossEx => rfl
  refine { h with entry := fun n => ?_ }
  rw [h.entry n, latest_concat_of_none, latest_concat_of_none, latest_concat_of_none] <;>
    simp [Change.position?, Change.orientation?, Change.velocity?, hreading]

theorem enter (h : LocationSeen rs loader receivers seen) {change : Change} (hchange : change.Admissible) :
    LocationSeen (rs ++ [change]) (loader.enter change) receivers seen := by
  cases hkind : change with
  | place nem reading =>
      subst hkind
      let entry := (loader.cache[nem]?.getD .default).set reading
      have hcache : stored (loader.enter (.place nem reading)).cache =
          overlay (single nem entry) (stored loader.cache) := stored_insert loader.cache nem entry
      have hdelta : stored (loader.enter (.place nem reading)).deltaCache =
          overlay (single nem entry) (stored loader.deltaCache) := stored_insert loader.deltaCache nem entry
      have hvalid : entry.Valid := by
        refine valid_set ?_ hchange
        cases hget : loader.cache[nem]? with
        | none => exact LocationEntry.valid_default
        | some old => exact h.valid nem old hget
      have hother : ∀ n, nem ≠ n →
          overlay (single nem entry) (stored loader.cache) n = stored loader.cache n :=
        fun n hn => overlay_eq_right (if_neg hn)
      have hself : overlay (single nem entry) (stored loader.cache) nem = some entry := by
        rw [overlay, single, if_pos rfl, Option.some_or]
      refine ⟨?_, ?_, ?_, ?_, h.table⟩
      · rw [hcache, hdelta]
        exact h.tracks.enter _
      · intro n old hold
        obtain ⟨current, hcurrent, hbefore⟩ := h.before n old hold
        rw [hcache]
        by_cases hn : nem = n
        · subst hn
          refine ⟨entry, hself, ?_⟩
          have hentry : entry = current.set reading := by
            change (Option.getD (stored loader.cache nem) .default).set reading = _
            rw [hcurrent, Option.getD_some]
          exact hentry ▸ hbefore.set reading
        · exact ⟨current, (hother n hn).trans hcurrent, hbefore⟩
      · intro n e he
        rw [hcache] at he
        by_cases hn : nem = n
        · subst hn
          rw [hself, Option.some_inj] at he
          exact he ▸ hvalid
        · exact h.valid n e ((hother n hn).symm.trans he)
      · intro n
        rw [hcache]
        by_cases hn : nem = n
        · subst hn
          have hreading : (Change.place nem reading).reading? nem = some reading := if_pos rfl
          rw [hself, latest_concat, latest_concat, latest_concat]
          simp only [overlay, Change.position?, Change.orientation?, Change.velocity?, hreading,
            Option.bind_some]
          rw [LocationEntry.ofLatest_or, ← h.entry nem]
          rfl
        · have hreading : (Change.place nem reading).reading? n = none := if_neg hn
          rw [hother n hn, h.entry n]
          rw [latest_concat_of_none, latest_concat_of_none, latest_concat_of_none] <;>
            simp [Change.position?, Change.orientation?, Change.velocity?, hreading]
  | pathloss => exact h.skip (by simp [Change.kind])
  | pathlossEx => exact h.skip (by simp [Change.kind])

end LocationSeen

theorem LocationLoader.events_of_idle {loader : LocationLoader} (h : loader.deltaCache = ∅) (mode : Mode) :
    loader.events mode = ([], loader) := by
  rw [events, if_pos (ExtTreeMap.isEmpty_iff.mpr h)]

theorem LocationLoader.events_idle (loader : LocationLoader) (mode : Mode) :
    (loader.events mode).2.deltaCache = ∅ := by
  unfold events
  split_ifs with hempty
  · exact ExtTreeMap.isEmpty_iff.mp hempty
  · rfl

/-- **A publication of locations**: everything was seen. -/
theorem LocationSeen.publish {loader : LocationLoader} {seen : UInt16 → Option LocationEntry}
    (h : LocationSeen rs loader receivers seen) {encodedLen : Event → ℕ} {mode : Mode}
    (hfits : Fits encodedLen (loader.events mode).1) :
    (∃ seen', LocationSeen rs (loader.events mode).2
      ((loader.events mode).1.foldl (deliver encodedLen) receivers) seen') ∧
      ∀ r, ((loader.events mode).1.foldl (deliver encodedLen) receivers r).pathloss =
        (receivers r).pathloss := by
  by_cases hempty : loader.deltaCache.isEmpty = true
  · rw [LocationLoader.events_of_idle (ExtTreeMap.isEmpty_iff.mp hempty)]
    exact ⟨⟨seen, h⟩, fun _ => rfl⟩
  unfold LocationLoader.events at hfits ⊢
  rw [if_neg hempty] at hfits ⊢
  dsimp only at hfits ⊢
  have hpick := h.tracks.overlay_pick mode
  have hsent : ∀ n entry, mode.pick (stored loader.deltaCache) (stored loader.cache) n = some entry →
      stored loader.cache n = some entry := fun _ _ => h.tracks.of_pick mode
  rw [← Mode.apply_pick] at hpick hsent
  generalize mode.pick loader.deltaCache loader.cache = cache at hpick hsent hfits
  have hdelivered := fun r => @deliver_locations encodedLen _
    (fun n entry hentry => h.valid n entry (hsent n entry hentry)) receivers r hfits
  refine ⟨⟨stored loader.cache, ⟨Tracks.cleared _, ?_, h.valid, h.entry, ?_⟩⟩, fun r => (hdelivered r).2⟩
  · exact fun n old hold => ⟨old, hold, .refl old⟩
  · intro r n
    rw [(hdelivered r).1 n, h.table r n]
    change (stored cache n).elim _ _ = _
    cases hentry : stored cache n with
    | none => rw [← hpick, overlay, hentry, Option.none_or, Option.elim_none]
    | some entry =>
        rw [hsent n entry hentry, Option.elim_some, Option.map_some]
        cases hseen : seen n with
        | none => rfl
        | some old =>
            -- what the receiver has came from an older entry of the NEM
            obtain ⟨current, hcurrent, hbefore⟩ := h.before n old hseen
            rw [hsent n entry hentry, Option.some_inj] at hcurrent
            subst hcurrent
            rw [Option.map_some, hbefore.merge_eq]

/-! ## Pathlosses -/

theorem notMem_insert {β : Type} {t : ExtTreeMap UInt16 β} {a b : UInt16} {v : β} (ha : a ∉ t)
    (hne : b ≠ a) : a ∉ t.insert b v := by
  rw [ExtTreeMap.mem_insert, LawfulEqOrd.compare_eq_iff_eq, not_or]
  exact ⟨hne, ha⟩

theorem forall_toList_ne {β : Type} {t : ExtTreeMap UInt16 β} {a : UInt16} (h : a ∉ t) :
    ∀ e ∈ t.toList, e.1 ≠ a := by
  rintro ⟨b, v⟩ hmem rfl
  refine h (ExtTreeMap.mem_iff_isSome_getElem?.mpr ?_)
  rw [ExtTreeMap.mem_toList_iff_getElem?_eq_some.mp hmem, Option.isSome_some]

theorem eq_or_eq_of_directed {α : Type} {dst src receiver source : UInt16} {forward reverse value : α}
    (h : directed dst src forward reverse receiver source = some value) :
    value = forward ∨ value = reverse := by
  unfold directed at h
  split_ifs at h
  · exact .inr (Option.some.inj h).symm
  · exact .inl (Option.some.inj h).symm

/-- The receivers have seen the pathlosses that are not new. -/
structure PathlossSeen (rs : List Change) (loader : PathlossLoader) (receivers : UInt16 → Receiver)
    (seen : UInt16 × UInt16 → Option PathlossEntry) : Prop where
  follows : Follows (storedAt loader.cache) (storedAt loader.deltaCache) seen
    (fun entry => entry.forward.toF64) fun k => (receivers k.1).pathlossDb k.2 0
  finite : ∀ k entry, storedAt loader.cache k = some entry → entry.forward.isFinite = true
  zero : 0 ∉ loader.cache ∧ 0 ∉ loader.deltaCache
  entry : ∀ k : UInt16 × UInt16, latest Change.pathlossDb? rs (k.1, k.2, 0) =
    (storedAt loader.cache k).map PathlossEntry.forward

namespace PathlossSeen

variable {loader : PathlossLoader} {seen : UInt16 × UInt16 → Option PathlossEntry}

/-- A change for another loader. -/
theorem skip (h : PathlossSeen rs loader receivers seen) {change : Change}
    (hchange : ∀ receiver source, change.pathlossDb? (receiver, source, 0) = none) :
    PathlossSeen (rs ++ [change]) loader receivers seen :=
  { h with entry := fun k => (latest_concat_of_none (hchange k.1 k.2)).trans (h.entry k) }

theorem enter (h : PathlossSeen rs loader receivers seen) {change : Change} (hchange : change.Admissible)
    (haddress : change.Addressable) :
    PathlossSeen (rs ++ [change]) (loader.enter change) receivers seen := by
  cases hkind : change with
  | pathloss dst src forward reverse =>
      subst hkind
      obtain ⟨hdst, hsrc⟩ := haddress
      obtain ⟨hforward, hreverse⟩ := hchange
      have hcache := storedAt_updateCache loader.cache dst src forward reverse
      have hdelta := storedAt_updateCache loader.deltaCache dst src forward reverse
      have hzero : ∀ cache, 0 ∉ cache → 0 ∉ PathlossLoader.updateCache cache dst src forward reverse :=
        fun cache h => notMem_insert (notMem_insert h hdst) hsrc
      refine ⟨?_, ?_, ⟨hzero _ h.zero.1, hzero _ h.zero.2⟩, ?_⟩
      · unfold PathlossLoader.enter
        dsimp only
        rw [hcache, hdelta]
        exact h.follows.enter _
      · intro k entry hentry
        unfold PathlossLoader.enter at hentry
        dsimp only at hentry
        rw [hcache, overlay, Option.or_eq_some_iff] at hentry
        rcases hentry with hnew | ⟨-, hold⟩
        · rcases eq_or_eq_of_directed hnew with rfl | rfl
          · exact hforward
          · exact hreverse
        · exact h.finite k entry hold
      · intro k
        unfold PathlossLoader.enter
        dsimp only
        rw [hcache, overlay, Option.map_or, directed_map, latest_concat, overlay, h.entry k]
        rfl
  | place => exact h.skip fun _ _ => rfl
  | pathlossEx dst src frequencyHz forward reverse =>
      subst hkind
      exact h.skip fun _ _ => if_neg hchange.1.symm

end PathlossSeen

theorem PathlossLoader.events_of_idle {loader : PathlossLoader} (h : loader.deltaCache = ∅) (mode : Mode) :
    loader.events mode = ([], loader) := by
  rw [events, if_pos (ExtTreeMap.isEmpty_iff.mpr h)]

theorem PathlossLoader.events_idle (loader : PathlossLoader) (mode : Mode) :
    (loader.events mode).2.deltaCache = ∅ := by
  unfold events
  split_ifs with hempty
  · exact ExtTreeMap.isEmpty_iff.mp hempty
  · rfl

theorem storedAt_empty {β : Type} : storedAt (∅ : ExtTreeMap UInt16 (ExtTreeMap UInt16 β)) = fun _ => none := by
  funext k
  rw [storedAt, getAt?, ExtTreeMap.getElem?_empty, Option.bind_none]

/-- **A publication of pathlosses**: everything was seen. -/
theorem PathlossSeen.publish {loader : PathlossLoader} {seen : UInt16 × UInt16 → Option PathlossEntry}
    (h : PathlossSeen rs loader receivers seen) {encodedLen : Event → ℕ} {mode : Mode}
    (hfits : Fits encodedLen (loader.events mode).1) :
    (∃ seen', PathlossSeen rs (loader.events mode).2
      ((loader.events mode).1.foldl (deliver encodedLen) receivers) seen') ∧
      ∀ r, ((loader.events mode).1.foldl (deliver encodedLen) receivers r).phy = (receivers r).phy ∧
        ∀ source f, f ≠ 0 →
          ((loader.events mode).1.foldl (deliver encodedLen) receivers r).pathlossDb source f =
            (receivers r).pathlossDb source f := by
  by_cases hempty : loader.deltaCache.isEmpty = true
  · rw [PathlossLoader.events_of_idle (ExtTreeMap.isEmpty_iff.mp hempty)]
    exact ⟨⟨seen, h⟩, fun _ => ⟨rfl, fun _ _ _ => rfl⟩⟩
  unfold PathlossLoader.events at hfits ⊢
  rw [if_neg hempty] at hfits ⊢
  dsimp only at hfits ⊢
  have hsent : ∀ k entry, mode.pick (storedAt loader.deltaCache) (storedAt loader.cache) k = some entry →
      storedAt loader.cache k = some entry := fun _ _ => h.follows.tracks.of_pick mode
  have hpublish := fun table' => @Follows.publish _ _ _ _ _ _ _ _ table' h.follows mode
  have hzero : 0 ∉ mode.pick loader.deltaCache loader.cache := by
    cases mode with
    | delta => exact h.zero.2
    | full => exact h.zero.1
  rw [← Mode.apply_pick] at hsent hpublish
  generalize mode.pick loader.deltaCache loader.cache = cache at hsent hpublish hzero hfits
  have hdelivered := deliver_pathlosses (forall_toList_ne hzero)
    (fun dst source entry hentry => h.finite (dst, source) entry (hsent (dst, source) entry hentry))
    receivers hfits
  refine ⟨⟨storedAt loader.cache, ⟨?_, h.finite, ⟨h.zero.1, ExtTreeMap.not_mem_empty⟩, h.entry⟩⟩,
    fun r => ⟨(hdelivered r).1, ?_⟩⟩
  · rw [storedAt_empty]
    exact hpublish _ fun k => ((hdelivered k.1).2 k.2 0).trans (if_pos rfl)
  · exact fun source f hf => ((hdelivered r).2 source f).trans (if_neg hf)

/-! ## Pathlosses at frequencies -/

/-- The receivers have seen the pathlosses at frequencies that are not new. -/
structure PathlossExSeen (rs : List Change) (loader : PathlossExLoader) (receivers : UInt16 → Receiver)
    (seen : UInt16 × UInt16 × UInt64 → Option F32) : Prop where
  follows : Follows (storedEx loader.cache) (storedEx loader.deltaCache) seen F32.toF64 fun k =>
    if k.2.2 = 0 then none else (receivers k.1).pathlossDb k.2.1 k.2.2
  finite : ∀ k value, storedEx loader.cache k = some value → value.isFinite = true
  frequency : ∀ k value, storedEx loader.cache k = some value → k.2.2 ≠ 0
  zero : 0 ∉ loader.cache ∧ 0 ∉ loader.deltaCache
  entry : ∀ k : UInt16 × UInt16 × UInt64, k.2.2 ≠ 0 →
    latest Change.pathlossDb? rs k = storedEx loader.cache k

namespace PathlossExSeen

variable {loader : PathlossExLoader} {seen : UInt16 × UInt16 × UInt64 → Option F32}

/-- A change for another loader. -/
theorem skip (h : PathlossExSeen rs loader receivers seen) {change : Change}
    (hchange : ∀ k : UInt16 × UInt16 × UInt64, k.2.2 ≠ 0 → change.pathlossDb? k = none) :
    PathlossExSeen (rs ++ [change]) loader receivers seen :=
  { h with entry := fun k hk => (latest_concat_of_none (hchange k hk)).trans (h.entry k hk) }

theorem enter (h : PathlossExSeen rs loader receivers seen) {change : Change} (hchange : change.Admissible)
    (haddress : change.Addressable) :
    PathlossExSeen (rs ++ [change]) (loader.enter change) receivers seen := by
  cases hkind : change with
  | pathlossEx dst src frequencyHz forward reverse =>
      subst hkind
      obtain ⟨hdst, hsrc⟩ := haddress
      obtain ⟨hfrequency, hforward, hreverse⟩ := hchange
      have hcache := storedEx_updateCache loader.cache dst src frequencyHz forward reverse
      have hdelta := storedEx_updateCache loader.deltaCache dst src frequencyHz forward reverse
      have hzero : ∀ cache, 0 ∉ cache →
          0 ∉ PathlossExLoader.updateCache cache dst src frequencyHz forward reverse :=
        fun cache h => notMem_insert (notMem_insert h hdst) hsrc
      have hnew : ∀ k value,
          storedEx (PathlossExLoader.updateCache loader.cache dst src frequencyHz forward reverse) k =
            some value →
          (k.2.2 ≠ 0 ∧ value.isFinite = true) ∨ storedEx loader.cache k = some value := by
        intro k value hvalue
        rw [hcache, overlay, Option.or_eq_some_iff] at hvalue
        rcases hvalue with hvalue | ⟨-, hold⟩
        · split_ifs at hvalue with hf
          refine .inl ⟨hf ▸ hfrequency, ?_⟩
          rcases eq_or_eq_of_directed hvalue with rfl | rfl
          · exact hforward
          · exact hreverse
        · exact .inr hold
      refine ⟨?_, ?_, ?_, ⟨hzero _ h.zero.1, hzero _ h.zero.2⟩, ?_⟩
      · unfold PathlossExLoader.enter
        dsimp only
        rw [hcache, hdelta]
        exact h.follows.enter _
      · exact fun k value hvalue => (hnew k value hvalue).elim And.right (h.finite k value)
      · exact fun k value hvalue => (hnew k value hvalue).elim And.left (h.frequency k value)
      · intro k hk
        unfold PathlossExLoader.enter
        dsimp only
        rw [hcache, latest_concat, overlay, overlay, h.entry k hk]
        rfl
  | place => exact h.skip fun _ _ => rfl
  | pathloss dst src forward reverse => exact h.skip fun k hk => if_neg hk

end PathlossExSeen

theorem PathlossExLoader.events_of_idle {loader : PathlossExLoader} (h : loader.deltaCache = ∅)
    (mode : Mode) : loader.events mode = ([], loader) := by
  rw [events, if_pos (ExtTreeMap.isEmpty_iff.mpr h)]

theorem PathlossExLoader.events_idle (loader : PathlossExLoader) (mode : Mode) :
    (loader.events mode).2.deltaCache = ∅ := by
  unfold events
  split_ifs with hempty
  · exact ExtTreeMap.isEmpty_iff.mp hempty
  · rfl

theorem storedEx_empty : storedEx ∅ = fun _ => none := by
  funext k
  rw [storedEx, ExtTreeMap.getElem?_empty, Option.bind_none]

/-- **A publication of pathlosses at frequencies**: everything was seen. -/
theorem PathlossExSeen.publish {loader : PathlossExLoader} {seen : UInt16 × UInt16 × UInt64 → Option F32}
    (h : PathlossExSeen rs loader receivers seen) {encodedLen : Event → ℕ} {mode : Mode}
    (hfits : Fits encodedLen (loader.events mode).1) :
    (∃ seen', PathlossExSeen rs (loader.events mode).2
      ((loader.events mode).1.foldl (deliver encodedLen) receivers) seen') ∧
      ∀ r, ((loader.events mode).1.foldl (deliver encodedLen) receivers r).phy = (receivers r).phy ∧
        ∀ source, ((loader.events mode).1.foldl (deliver encodedLen) receivers r).pathlossDb source 0 =
          (receivers r).pathlossDb source 0 := by
  by_cases hempty : loader.deltaCache.isEmpty = true
  · rw [PathlossExLoader.events_of_idle (ExtTreeMap.isEmpty_iff.mp hempty)]
    exact ⟨⟨seen, h⟩, fun _ => ⟨rfl, fun _ => rfl⟩⟩
  unfold PathlossExLoader.events at hfits ⊢
  rw [if_neg hempty] at hfits ⊢
  dsimp only at hfits ⊢
  have hsent : ∀ k value, mode.pick (storedEx loader.deltaCache) (storedEx loader.cache) k = some value →
      storedEx loader.cache k = some value := fun _ _ => h.follows.tracks.of_pick mode
  have hpublish := fun table' => @Follows.publish _ _ _ _ _ _ _ _ table' h.follows mode
  have hzero : 0 ∉ mode.pick loader.deltaCache loader.cache := by
    cases mode with
    | delta => exact h.zero.2
    | full => exact h.zero.1
  rw [← Mode.apply_pick] at hsent hpublish
  generalize mode.pick loader.deltaCache loader.cache = cache at hsent hpublish hzero hfits
  have hdelivered := deliver_pathlossesEx (forall_toList_ne hzero)
    (fun dst source f value hvalue => h.finite (dst, source, f) value (hsent (dst, source, f) value hvalue))
    receivers hfits
  -- nothing is sent at frequency zero, where the other pathlosses stand
  have hnone : ∀ k, k.2.2 = 0 → storedEx cache k = none := by
    intro k hk
    cases hvalue : storedEx cache k with
    | none => rfl
    | some value => exact absurd hk (h.frequency k value (hsent k value hvalue))
  refine ⟨⟨storedEx loader.cache,
    ⟨?_, h.finite, h.frequency, ⟨h.zero.1, ExtTreeMap.not_mem_empty⟩, h.entry⟩⟩,
    fun r => ⟨(hdelivered r).1, fun source => ?_⟩⟩
  · rw [storedEx_empty]
    refine hpublish _ fun k => ?_
    by_cases hk : k.2.2 = 0
    · rw [if_pos hk, if_pos hk, hnone k hk, Option.map_none, Option.none_or]
    · rw [if_neg hk, if_neg hk]
      exact (hdelivered k.1).2 k.2.1 k.2.2
  · have hk := hnone (r, source, 0) rfl
    rw [storedEx] at hk
    rw [(hdelivered r).2 source 0, hk, Option.map_none, Option.none_or]

end Emane.Eel
