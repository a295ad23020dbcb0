import Mathlib
import Emane.Eel.Selections

set_option autoImplicit false

/-! # What the NEMs have seen of the selections

For the loaders for antenna profiles, fading models and comm effects, the relation between their caches, the
statements so far and the tables of the NEMs. Loaders with entries by receiver and transmitter have it in
common (`PairSeen`).
-/

namespace Emane.Eel

open Emane.Lib
open Emane.CommEffect (CommEffectMessage Profile Profiles)
open Emane.Phy (AntennaProfileSelection FadingMode ProfileEntry PhyState)
open Emane.PluginApi (F32 F64 u16TryFrom)
open Std (ExtTreeMap ExtTreeSet LawfulEqOrd)

/-! ## What a statement says -/

namespace Statement

def change? : Statement → Option Change
  | change c => some c
  | _ => none

def profile? : Statement → UInt16 → Option ProfileEntry
  | profile nem entry => single nem entry
  | _ => fun _ => none

def fading? : Statement → UInt16 × UInt16 → Option ℤ
  | fading target tx model => single (target, tx) model
  | _ => fun _ => none

def effect? : Statement → UInt16 × UInt16 → Option CommEffectMessage
  | commEffect dst src effect => single (dst, src) effect
  | _ => fun _ => none

/-- The values are what the NEMs take, and the NEMs are single ones. -/
def Admissible : Statement → Prop
  | change c => c.Admissible ∧ c.Addressable
  | profile _ entry => entry.azimuthDegrees.isFinite = true ∧ entry.elevationDegrees.isFinite = true
  | fading target _ _ => target ≠ 0
  | commEffect dst src effect => dst ≠ 0 ∧ src ≠ 0 ∧ (Profile.fromMessage effect).isSome = true

instance : (s : Statement) → Decidable s.Admissible
  | change c => inferInstanceAs (Decidable (c.Admissible ∧ c.Addressable))
  | profile _ entry => inferInstanceAs (Decidable
      (entry.azimuthDegrees.isFinite = true ∧ entry.elevationDegrees.isFinite = true))
  | fading target _ _ => inferInstanceAs (Decidable (target ≠ 0))
  | commEffect dst src effect => inferInstanceAs (Decidable
      (dst ≠ 0 ∧ src ≠ 0 ∧ (Profile.fromMessage effect).isSome = true))

/-- The loaders enter the numbers of the NEMs as they are, and known models. -/
def Formed : Statement → Prop
  | change _ => True
  | profile nem entry => entry.nemId = nem.toNat ∧ entry.profileId < 65536
  | fading _ _ model => (fadingMode model).isSome = true
  | commEffect _ src effect => effect.nemId = src.toNat

end Statement

/-! ## What the events make of the tables -/

/-- The selection that an entry stands for. -/
def selection (entry : ProfileEntry) : AntennaProfileSelection :=
  ⟨UInt16.ofNat entry.profileId, entry.azimuthDegrees, entry.elevationDegrees⟩

/-- One entry of an antenna profile event. -/
theorem handleProfile_eq (s : PhyState) {nem : UInt16} {entry : ProfileEntry}
    (hformed : (Statement.profile nem entry).Formed) (h : (Statement.profile nem entry).Admissible) :
    s.handleProfile entry =
      { s with antennaProfiles := s.antennaProfiles.insert nem (selection entry) } := by
  obtain ⟨hnem, hprofile⟩ := hformed
  unfold PhyState.handleProfile
  rw [hnem, u16TryFrom_toNat, PluginApi.u16TryFrom_some_iff.mpr ⟨hprofile, rfl⟩]
  dsimp only
  rw [h.1, h.2]
  rfl

/-- **What an antenna profile event makes of the table**; it leaves the locations alone. -/
theorem foldl_handleProfile (cache : ExtTreeMap UInt16 ProfileEntry)
    (h : ∀ (nem : UInt16) (entry : ProfileEntry), cache[nem]? = some entry →
      (Statement.profile nem entry).Formed ∧ (Statement.profile nem entry).Admissible) (s : PhyState) :
    (∀ n : UInt16, ((cache.toList.map Prod.snd).foldl PhyState.handleProfile s).antennaProfiles[n]? =
      ((cache[n]?).map selection).or s.antennaProfiles[n]?) ∧
    ((cache.toList.map Prod.snd).foldl PhyState.handleProfile s).locations = s.locations := by
  rw [List.foldl_map]
  have hstep : ∀ (s : PhyState), ∀ e ∈ cache.toList, s.handleProfile e.2 =
      { s with antennaProfiles := s.antennaProfiles.insert e.1 (selection e.2) } := by
    intro s e he
    obtain ⟨hformed, hadmissible⟩ := h e.1 e.2 (ExtTreeMap.mem_toList_iff_getElem?_eq_some.mp he)
    exact handleProfile_eq s hformed hadmissible
  constructor
  · intro n
    have hview := view_foldl_toList (fun (s : PhyState) n => s.antennaProfiles[n]?)
      (fun entry _ => some (selection entry))
      (fun (s : PhyState) (e : UInt16 × ProfileEntry) => s.handleProfile e.2) cache ?_ s n
    · rw [hview]
      cases cache[n]? <;> rfl
    · intro s e he a
      rw [hstep s e he, ExtTreeMap.getElem?_insert]
      simp only [LawfulEqOrd.compare_eq_iff_eq]
  · generalize cache.toList = entries at hstep
    induction entries generalizing s with
    | nil => rfl
    | cons e entries ih =>
        rw [List.foldl_cons, ih _ fun s e he => hstep s e (List.mem_cons_of_mem _ he),
          hstep s e List.mem_cons_self]

/-- **What a fading selection event makes of the table.** -/
theorem foldl_handleFading (entries : ExtTreeMap UInt16 ℤ)
    (h : ∀ (tx : UInt16) (model : ℤ), entries[tx]? = some model → (fadingMode model).isSome = true)
    (s : ExtTreeMap UInt16 FadingMode × ExtTreeSet UInt16) (tx : UInt16) :
    ((FadingSelectionLoader.items entries).foldl handleFading s).1[tx]? =
      ((entries[tx]?).bind fadingMode).or s.1[tx]? := by
  rw [FadingSelectionLoader.items, List.foldl_map]
  have hview := view_foldl_toList (fun (s : ExtTreeMap UInt16 FadingMode × ExtTreeSet UInt16) n => s.1[n]?)
    (fun model previous => (fadingMode model).or previous)
    (fun s (e : UInt16 × ℤ) => handleFading s (e.1.toNat, e.2)) entries ?_ s tx
  · rw [hview]
    cases entries[tx]? <;> rfl
  · intro s e he a
    obtain ⟨mode, hmode⟩ :=
      Option.isSome_iff_exists.mp (h e.1 e.2 (ExtTreeMap.mem_toList_iff_getElem?_eq_some.mp he))
    unfold handleFading
    dsimp only
    rw [u16TryFrom_toNat, hmode]
    dsimp only
    rw [ExtTreeMap.getElem?_insert]
    simp only [LawfulEqOrd.compare_eq_iff_eq, Option.some_or]

/-- **What a comm effect event makes of the profiles**, if it has no effect out of range. -/
theorem event_items (entries : ExtTreeMap UInt16 CommEffectMessage) (p : Profiles)
    (h : ∀ (src : UInt16) (effect : CommEffectMessage), entries[src]? = some effect →
      effect.nemId = src.toNat ∧ src ≠ 0 ∧ (Profile.fromMessage effect).isSome = true) :
    (p.event (CommEffectLoader.items entries)).defaultConnectivity = false ∧
    ∀ src : UInt16, (p.event (CommEffectLoader.items entries)).profiles[src]? =
      ((entries[src]?).bind Profile.fromMessage).or p.profiles[src]? := by
  have hget : ∀ e ∈ entries.toList,
      e.2.nemId = e.1.toNat ∧ e.1 ≠ 0 ∧ (Profile.fromMessage e.2).isSome = true :=
    fun e he => h e.1 e.2 (ExtTreeMap.mem_toList_iff_getElem?_eq_some.mp he)
  have htaken : ¬ ((CommEffectLoader.items entries).any fun message =>
      (Profile.fromMessage message).isNone) = true := by
    rw [List.any_eq_true]
    rintro ⟨effect, hmem, hnone⟩
    obtain ⟨e, he, rfl⟩ := List.mem_map.mp hmem
    rw [Option.isNone_iff_eq_none] at hnone
    have hsome := (hget e he).2.2
    rw [hnone] at hsome
    exact absurd hsome (by simp)
  unfold Profiles.event
  rw [if_neg htaken]
  refine ⟨rfl, fun src => ?_⟩
  dsimp only
  rw [CommEffectLoader.items, List.foldl_map]
  have hview := view_foldl_toList (fun (profiles : ExtTreeMap UInt16 Profile) n => profiles[n]?)
    (fun effect previous => (Profile.fromMessage effect).or previous)
    (fun profiles (e : UInt16 × CommEffectMessage) => Profiles.insertEffect profiles e.2) entries ?_
    p.profiles src
  · rw [hview]
    cases entries[src]? <;> rfl
  · intro profiles e he a
    obtain ⟨hnem, hzero, hsome⟩ := hget e he
    obtain ⟨profile, hprofile⟩ := Option.isSome_iff_exists.mp hsome
    have hne : e.2.nemId ≠ 0 := by
      rw [hnem]
      exact fun h0 => hzero (UInt16.toNat_inj.mp h0)
    unfold Profiles.insertEffect
    rw [if_neg hne, hprofile]
    dsimp only
    rw [ExtTreeMap.getElem?_insert, hnem, UInt16.ofNat_toNat]
    simp only [LawfulEqOrd.compare_eq_iff_eq, Option.some_or]

/-! ## Loaders with entries by receiver and transmitter -/

theorem storedAt_insertAt {β : Type} (t : ExtTreeMap UInt16 (ExtTreeMap UInt16 β)) (dst src : UInt16)
    (value : β) : storedAt (insertAt t dst src value) = overlay (single (dst, src) value) (storedAt t) := by
  funext k
  unfold storedAt overlay single
  rw [getAt?_insertAt]
  simp only [Prod.ext_iff]
  split_ifs <;> rfl

theorem notMem_insertAt {β : Type} {t : ExtTreeMap UInt16 (ExtTreeMap UInt16 β)} {dst src : UInt16} {value : β}
    (h : (0 : UInt16) ∉ t) (hdst : dst ≠ 0) : (0 : UInt16) ∉ insertAt t dst src value :=
  notMem_insert h hdst

/-- The NEMs have seen the entries that are not new. `table` has for a receiver and a transmitter what
`view` makes of the entry, and `value?` is what a statement says about them. -/
structure PairSeen {β ω : Type} (value? : Statement → UInt16 × UInt16 → Option β)
    (Good : UInt16 → β → Prop) (view : β → Option ω) (rs : List Statement) (loader : PairLoader β)
    (table : UInt16 → UInt16 → Option ω) (seen : UInt16 × UInt16 → Option β) : Prop where
  follows : Follows (storedAt loader.cache) (storedAt loader.deltaCache) seen view
    fun k => (table k.1 k.2).map some
  good : ∀ k value, storedAt loader.cache k = some value → Good k.2 value
  zero : 0 ∉ loader.cache ∧ 0 ∉ loader.deltaCache
  entry : latest value? rs = storedAt loader.cache

namespace PairSeen

variable {β ω : Type} {value? : Statement → UInt16 × UInt16 → Option β} {Good : UInt16 → β → Prop}
  {view : β → Option ω} {rs : List Statement} {loader : PairLoader β}
  {table table' : UInt16 → UInt16 → Option ω} {seen : UInt16 × UInt16 → Option β}

/-- A statement for another loader. -/
theorem skip (h : PairSeen value? Good view rs loader table seen) {s : Statement}
    (hs : value? s = fun _ => none) : PairSeen value? Good view (rs ++ [s]) loader table seen := by
  refine { h with entry := ?_ }
  rw [latest_concat, hs, ← h.entry]
  rfl

theorem insert (h : PairSeen value? Good view rs loader table seen) {s : Statement} {dst src : UInt16}
    {value : β} (hs : value? s = single (dst, src) value) (hdst : dst ≠ 0) (hgood : Good src value) :
    PairSeen value? Good view (rs ++ [s]) (loader.insert dst src value) table seen := by
  refine ⟨?_, ?_, ⟨notMem_insertAt h.zero.1 hdst, notMem_insertAt h.zero.2 hdst⟩, ?_⟩
  · unfold PairLoader.insert
    dsimp only
    rw [storedAt_insertAt, storedAt_insertAt]
    exact h.follows.enter _
  · intro k v hv
    unfold PairLoader.insert at hv
    dsimp only at hv
    rw [storedAt_insertAt, overlay, Option.or_eq_some_iff] at hv
    rcases hv with hnew | ⟨-, hold⟩
    · unfold single at hnew
      split_ifs at hnew with hk
      rw [← Option.some.inj hnew, ← hk]
      exact hgood
    · exact h.good k v hold
  · unfold PairLoader.insert
    dsimp only
    rw [storedAt_insertAt, latest_concat, hs, h.entry]

/-- The tables of the NEMs did not change. -/
theorem congr (h : PairSeen value? Good view rs loader table seen) (htable : ∀ r n, table' r n = table r n) :
    PairSeen value? Good view rs loader table' seen :=
  { h with follows := ⟨h.follows.tracks, fun k => (congrArg (Option.map some) (htable k.1 k.2)).trans
      (h.follows.table_eq k)⟩ }

/-- **A publication**: what was chosen lies over the tables, and everything was seen. -/
theorem publish (h : PairSeen value? Good view rs loader table seen) (mode : Mode)
    (hgood : ∀ value n, Good n value → (view value).isSome = true)
    (htable : ∀ r n, table' r n =
      ((getAt? (mode.pick loader.deltaCache loader.cache) r n).bind view).or (table r n)) :
    PairSeen value? Good view rs { loader with deltaCache := ∅ } table' (storedAt loader.cache) := by
  have hsent : ∀ k value, mode.pick (storedAt loader.deltaCache) (storedAt loader.cache) k = some value →
      storedAt loader.cache k = some value := fun _ _ => h.follows.tracks.of_pick mode
  have hpublish := fun table' => @Follows.publish _ _ _ _ _ _ _ _ table' h.follows mode
  rw [← Mode.apply_pick] at hsent hpublish
  refine ⟨?_, h.good, ⟨h.zero.1, ExtTreeMap.not_mem_empty⟩, h.entry⟩
  dsimp only
  rw [storedAt_empty]
  refine hpublish _ fun k => ?_
  rw [htable k.1 k.2]
  have hget : getAt? (mode.pick loader.deltaCache loader.cache) k.1 k.2 =
      storedAt (mode.pick loader.deltaCache loader.cache) k := rfl
  rw [hget]
  cases hvalue : storedAt (mode.pick loader.deltaCache loader.cache) k with
  | none => rfl
  | some value =>
      obtain ⟨w, hw⟩ := Option.isSome_iff_exists.mp (hgood value k.2 (h.good k value (hsent k value hvalue)))
      rw [Option.bind_some, Option.map_some, hw]
      rfl

/-- If nothing is new then the tables have everything. -/
theorem current (h : PairSeen value? Good view rs loader table seen) (hidle : loader.deltaCache = ∅)
    (r n : UInt16) : table r n = (latest value? rs (r, n)).bind view := by
  have hdelta := (congrArg storedAt hidle).trans storedAt_empty
  have hcurrent := h.follows.current hdelta (r, n)
  dsimp only at hcurrent
  rw [h.entry]
  cases hvalue : storedAt loader.cache (r, n) with
  | none =>
      rw [hvalue, Option.map_none, Option.map_eq_none_iff] at hcurrent
      rw [hcurrent, Option.bind_none]
  | some value =>
      rw [hvalue, Option.map_some] at hcurrent
      obtain ⟨w, hw, hview⟩ := Option.map_eq_some_iff.mp hcurrent
      rw [hw, Option.bind_some, ← hview]

end PairSeen

end Emane.Eel
