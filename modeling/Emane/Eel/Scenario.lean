import Mathlib
import Emane.Eel.Desk

set_option autoImplicit false

/-! # Scenarios

The generator with the NEMs as a system. After a publication the tables of each NEM, and the profiles of its
comm effect layer, are those of the records up to the time of the publication, whatever the modes of the
loaders (`scenario_shown`).
-/

namespace Emane.Eel

open Emane.Lib
open Emane.CommEffect (CommEffectMessage Profile Profiles)
open Emane.Phy (AntennaProfileSelection FadingMode ProfileEntry PhyState)
open Emane.PluginApi (F32 F64)
open Std (ExtTreeMap ExtTreeSet)

/-! ## What the publications of one loader reach -/

section

variable {encodedLen : Announcement → ℕ} {stations : UInt16 → Station}

/-- The publications are short enough for the receivers. -/
def ShortEnough (encodedLen : Announcement → ℕ) (publications : List Publication) : Prop :=
  ∀ publication ∈ publications, encodedLen publication.2 ≤ maxEventLength

theorem take_of_short {s : Station} {announcement : Announcement}
    (h : encodedLen announcement ≤ maxEventLength) : s.take encodedLen announcement = s.handle announcement := by
  unfold Station.take
  cases announcement with
  | commEffects => rfl
  | tables => exact if_neg (not_lt.mpr h)
  | antennaProfiles => exact if_neg (not_lt.mpr h)
  | fadingSelections => exact if_neg (not_lt.mpr h)

theorem take_tables (s : Station) (event : Event) : s.take encodedLen (.tables event) =
    { s with receiver := builtinEvent (fun event => encodedLen (.tables event)) s.receiver event } := by
  simp only [Station.take, builtinEvent]
  split_ifs <;> rfl

/-- The messages for locations and pathlosses go to the receivers. -/
theorem foldl_broadcast_tables (messages : List Message) (stations : UInt16 → Station) :
    (messages.map NativeLoader.ofMessage).foldl (broadcast encodedLen) stations = fun r =>
      { stations r with
        receiver := messages.foldl (deliver fun event => encodedLen (.tables event))
          (fun r => (stations r).receiver) r } := by
  induction messages generalizing stations with
  | nil => rfl
  | cons message messages ih =>
      rw [List.map_cons, List.foldl_cons, List.foldl_cons, ih]
      have hstep : ∀ r, broadcast encodedLen stations (NativeLoader.ofMessage message) r =
          { stations r with
            receiver := deliver (fun event => encodedLen (.tables event)) (fun r => (stations r).receiver)
              message r } := by
        intro r
        simp only [broadcast, NativeLoader.ofMessage, take_tables, deliver]
        split_ifs <;> rfl
      funext r
      simp only [hstep]

theorem handle_antennaProfiles (r : Receiver) (event : Event) :
    (r.handle event).phy.antennaProfiles = r.phy.antennaProfiles := by
  cases event with
  | pathloss => rfl
  | pathlossEx => rfl
  | location locations =>
      unfold Receiver.handle
      dsimp only
      generalize r.phy = s
      induction locations generalizing s with
      | nil => rfl
      | cons location locations ih =>
          rw [List.foldl_cons, ih]
          unfold PhyState.handleLocation
          split
          · rfl
          · split_ifs <;> rfl

theorem deliver_antennaProfiles {encodedLen : Event → ℕ} (messages : List Message)
    (receivers : UInt16 → Receiver) (r : UInt16) :
    (messages.foldl (deliver encodedLen) receivers r).phy.antennaProfiles =
      (receivers r).phy.antennaProfiles := by
  induction messages generalizing receivers with
  | nil => rfl
  | cons message messages ih =>
      rw [List.foldl_cons, ih]
      unfold deliver builtinEvent
      split_ifs
      · rfl
      · exact handle_antennaProfiles _ _
      · rfl

/-- **Publications for single NEMs**: each gets the one that is for it. -/
theorem foldl_broadcast {β : Type} (t : ExtTreeMap UInt16 β) {message : UInt16 × β → Option Publication}
    {f : β → Station → Station} (hzero : (0 : UInt16) ∉ t)
    (hnone : ∀ e ∈ t.toList, message e = none → ∀ s, f e.2 s = s)
    (hsome : ∀ e ∈ t.toList, ∀ m, message e = some m →
      m.1 = e.1 ∧ ∀ s : Station, s.take encodedLen m.2 = f e.2 s)
    (stations : UInt16 → Station) (nem : UInt16) :
    (t.toList.filterMap message).foldl (broadcast encodedLen) stations nem =
      (t[nem]?).elim (stations nem) fun b => f b (stations nem) := by
  rw [List.foldl_filterMap]
  refine view_foldl_toList (fun stations nem => stations nem) f _ t ?_ stations nem
  intro stations e he a
  cases hmessage : message e with
  | none =>
      dsimp only
      rw [hnone e he hmessage, ite_self]
  | some m =>
      obtain ⟨htarget, htake⟩ := hsome e he m hmessage
      dsimp only
      rw [broadcast, htake, htarget]
      by_cases ha : e.1 = a
      · rw [if_pos (Or.inr ha), if_pos ha]
      · rw [if_neg (not_or.mpr ⟨forall_toList_ne hzero e he, ha⟩), if_neg ha]

/-- **Fading models** reach the tables for fading, and nothing else. -/
theorem fading_published (cache : ExtTreeMap UInt16 (ExtTreeMap UInt16 ℤ)) (hzero : (0 : UInt16) ∉ cache)
    (hmodel : ∀ r tx model, getAt? cache r tx = some model → (fadingMode model).isSome = true)
    (hshort : ShortEnough encodedLen (cache.toList.filterMap FadingSelectionLoader.message))
    (stations : UInt16 → Station) (r : UInt16) :
    let after := (cache.toList.filterMap FadingSelectionLoader.message).foldl (broadcast encodedLen) stations
    (after r).receiver = (stations r).receiver ∧ (after r).shim = (stations r).shim ∧
      ∀ tx : UInt16, (after r).fadingSelections[tx]? =
        ((getAt? cache r tx).bind fadingMode).or (stations r).fadingSelections[tx]? := by
  intro after
  have hafter : after r = (cache[r]?).elim (stations r) fun entries =>
      (stations r).handle (.fadingSelections (FadingSelectionLoader.items entries)) := by
    refine foldl_broadcast cache hzero (fun e _ hnone => ?_) (fun e he m hm => ?_) stations r
      (f := fun entries s => s.handle (.fadingSelections (FadingSelectionLoader.items entries)))
    · cases hnone
    · have hlength := hshort m (List.mem_filterMap.mpr ⟨e, he, hm⟩)
      obtain rfl := Option.some.inj hm
      exact ⟨rfl, fun s => take_of_short hlength⟩
  rw [hafter]
  have hget : ∀ tx, getAt? cache r tx = (cache[r]?).bind fun entries => entries[tx]? := fun _ => rfl
  simp only [hget]
  cases hcache : cache[r]? with
  | none => exact ⟨rfl, rfl, fun tx => rfl⟩
  | some entries =>
      refine ⟨rfl, rfl, fun tx => foldl_handleFading entries (fun tx model hmodel' => ?_) _ tx⟩
      refine hmodel r tx model ?_
      rw [hget, hcache]
      exact hmodel'

/-- **Comm effects** reach the profiles of the comm effect layers, and nothing else. -/
theorem effects_published (cache : ExtTreeMap UInt16 (ExtTreeMap UInt16 CommEffectMessage))
    (hzero : (0 : UInt16) ∉ cache)
    (hgood : ∀ (r src : UInt16) (effect : CommEffectMessage), getAt? cache r src = some effect →
      effect.nemId = src.toNat ∧ src ≠ 0 ∧ (Profile.fromMessage effect).isSome = true)
    (stations : UInt16 → Station) (r : UInt16) :
    let after := (cache.toList.filterMap CommEffectLoader.message).foldl (broadcast encodedLen) stations
    (after r).receiver = (stations r).receiver ∧
      (after r).fadingSelections = (stations r).fadingSelections ∧
      (∀ src : UInt16, (after r).shim.profiles[src]? =
        ((getAt? cache r src).bind Profile.fromMessage).or (stations r).shim.profiles[src]?) ∧
      ((after r).shim.defaultConnectivity = true ↔
        (stations r).shim.defaultConnectivity = true ∧ ∀ src, getAt? cache r src = none) := by
  intro after
  have hafter : after r = (cache[r]?).elim (stations r) fun entries =>
      if (CommEffectLoader.items entries).isEmpty then stations r
      else (stations r).handle (.commEffects (CommEffectLoader.items entries)) := by
    refine foldl_broadcast cache hzero (fun e _ hnone s => ?_) (fun e he m hm => ?_) stations r
      (f := fun entries s => if (CommEffectLoader.items entries).isEmpty then s
        else s.handle (.commEffects (CommEffectLoader.items entries)))
    · unfold CommEffectLoader.message at hnone
      split_ifs at hnone with hempty
      exact if_pos hempty
    · unfold CommEffectLoader.message at hm
      split_ifs at hm with hempty
      obtain rfl := Option.some.inj hm
      exact ⟨rfl, fun s => (if_neg hempty).symm⟩
  rw [hafter]
  have hget : ∀ src, getAt? cache r src = (cache[r]?).bind fun entries => entries[src]? := fun _ => rfl
  simp only [hget]
  cases hcache : cache[r]? with
  | none => exact ⟨rfl, rfl, fun src => rfl, (and_iff_left fun _ => rfl).symm⟩
  | some entries =>
      simp only [Option.elim_some, Option.bind_some]
      by_cases hempty : (CommEffectLoader.items entries).isEmpty = true
      · have hnone : ∀ src : UInt16, entries[src]? = none := by
          intro src
          rw [CommEffectLoader.items, List.isEmpty_map, List.isEmpty_iff] at hempty
          rw [ExtTreeMap.toList_eq_nil_iff.mp hempty, ExtTreeMap.getElem?_empty]
        rw [if_pos hempty]
        refine ⟨rfl, rfl, fun src => ?_, (and_iff_left hnone).symm⟩
        rw [hnone, Option.bind_none, Option.none_or]
      · rw [if_neg hempty]
        have hentries : ∀ (src : UInt16) (effect : CommEffectMessage), entries[src]? = some effect →
            effect.nemId = src.toNat ∧ src ≠ 0 ∧ (Profile.fromMessage effect).isSome = true := by
          intro src effect heffect
          refine hgood r src effect ?_
          rw [hget, hcache]
          exact heffect
        obtain ⟨hconnectivity, hprofiles⟩ := event_items entries (stations r).shim hentries
        refine ⟨rfl, rfl, hprofiles, ?_⟩
        have hshim : ((stations r).handle (.commEffects (CommEffectLoader.items entries))).shim.defaultConnectivity =
            false := hconnectivity
        rw [hshim]
        refine ⟨fun h => (by cases h), fun h => absurd ?_ hempty⟩
        rw [CommEffectLoader.items, List.isEmpty_map, List.isEmpty_iff, ExtTreeMap.toList_eq_nil_iff]
        exact ExtTreeMap.ext_getElem? fun src => (h.2 src).trans ExtTreeMap.getElem?_empty.symm

/-- **Antenna profiles** reach the tables for antenna profiles of all NEMs. -/
theorem profiles_published (cache : ExtTreeMap UInt16 ProfileEntry)
    (hgood : ∀ (n : UInt16) (entry : ProfileEntry), cache[n]? = some entry →
      (Statement.profile n entry).Formed ∧ (Statement.profile n entry).Admissible)
    (stations : UInt16 → Station) (r : UInt16) :
    let publications : List Publication :=
      if cache.isEmpty then [] else [(0, .antennaProfiles (cache.toList.map Prod.snd))]
    let after := publications.foldl (broadcast encodedLen) stations
    ShortEnough encodedLen publications →
    (after r).fadingSelections = (stations r).fadingSelections ∧ (after r).shim = (stations r).shim ∧
      (after r).receiver.pathloss = (stations r).receiver.pathloss ∧
      (after r).receiver.phy.locations = (stations r).receiver.phy.locations ∧
      ∀ n : UInt16, (after r).receiver.phy.antennaProfiles[n]? =
        ((cache[n]?).map selection).or (stations r).receiver.phy.antennaProfiles[n]? := by
  intro publications after hshort
  by_cases hempty : cache.isEmpty = true
  · have hafter : after = stations := by
      simp only [after, publications, if_pos hempty, List.foldl_nil]
    rw [hafter]
    refine ⟨rfl, rfl, rfl, rfl, fun n => ?_⟩
    rw [ExtTreeMap.isEmpty_iff.mp hempty, ExtTreeMap.getElem?_empty, Option.map_none, Option.none_or]
  · have hafter : after r = (stations r).handle (.antennaProfiles (cache.toList.map Prod.snd)) := by
      simp only [after, publications, if_neg hempty, List.foldl_cons, List.foldl_nil, broadcast, true_or,
        if_true]
      exact take_of_short (hshort (0, .antennaProfiles _) (by simp [publications, hempty]))
    rw [hafter]
    obtain ⟨hprofiles, hlocations⟩ := foldl_handleProfile cache hgood (stations r).receiver.phy
    exact ⟨rfl, rfl, rfl, hlocations, hprofiles⟩

end

/-! ## Loaders in step with the NEMs -/

/-- The NEMs have seen the antenna profiles that are not new. -/
structure AntennaSeen (rs : List Statement) (loader : AntennaProfileLoader) (stations : UInt16 → Station)
    (seen : UInt16 → Option ProfileEntry) : Prop where
  follows : ∀ r, Follows (stored loader.fullCache) (stored loader.deltaCache) seen selection
    fun n => (stations r).receiver.phy.antennaProfiles[n]?
  good : ∀ n entry, stored loader.fullCache n = some entry →
    (Statement.profile n entry).Formed ∧ (Statement.profile n entry).Admissible
  entry : latest Statement.profile? rs = stored loader.fullCache

/-- What the loader for comm effects enters. -/
def GoodEffect (src : UInt16) (effect : CommEffectMessage) : Prop :=
  effect.nemId = src.toNat ∧ src ≠ 0 ∧ (Profile.fromMessage effect).isSome = true

abbrev FadingSeen (rs : List Statement) (loader : FadingSelectionLoader) (stations : UInt16 → Station) :=
  PairSeen Statement.fading? (fun _ model => (fadingMode model).isSome = true) fadingMode rs loader
    fun r n => (stations r).fadingSelections[n]?

abbrev EffectSeen (rs : List Statement) (loader : CommEffectLoader) (stations : UInt16 → Station) :=
  PairSeen Statement.effect? GoodEffect Profile.fromMessage rs loader fun r n => (stations r).shim.profiles[n]?

/-- All loaders of a desk are in step with the NEMs, after the statements `rs`. `connected` has the NEMs
whose comm effect layer let packets without an effect pass at the start. -/
structure DeskInv (connected : UInt16 → Prop) (rs : List Statement) (d : Desk) (stations : UInt16 → Station) :
    Prop where
  tables : Inv (rs.filterMap Statement.change?) ⟨d.loaders, fun r => (stations r).receiver⟩
  antenna : ∃ seen, AntennaSeen rs d.antenna stations seen
  fading : ∃ seen, FadingSeen rs d.fading stations seen
  effects : ∃ seen, EffectSeen rs d.commEffect stations seen ∧ ∀ r,
    (stations r).shim.defaultConnectivity = true ↔ connected r ∧ ∀ src, seen (r, src) = none

variable {connected : UInt16 → Prop} {rs : List Statement} {d : Desk} {stations stations' : UInt16 → Station}

/-! Each loader is concerned with its own part of the NEMs. -/

theorem AntennaSeen.congr {loader : AntennaProfileLoader} {seen : UInt16 → Option ProfileEntry}
    (h : AntennaSeen rs loader stations seen) (htable : ∀ r,
      (stations' r).receiver.phy.antennaProfiles = (stations r).receiver.phy.antennaProfiles) :
    AntennaSeen rs loader stations' seen := by
  refine { h with follows := fun r => ⟨(h.follows r).tracks, fun n => ?_⟩ }
  rw [htable r]
  exact (h.follows r).table_eq n

theorem Inv.congr {rs : List Change} {loaders : Loaders} {receivers receivers' : UInt16 → Receiver}
    (h : Inv rs ⟨loaders, receivers⟩)
    (hlocations : ∀ r, (receivers' r).phy.locations = (receivers r).phy.locations)
    (hpathloss : ∀ r, (receivers' r).pathloss = (receivers r).pathloss) : Inv rs ⟨loaders, receivers'⟩ := by
  obtain ⟨seen, hlocation⟩ := h.location
  obtain ⟨seen', hpath⟩ := h.pathloss
  obtain ⟨seen'', hpathEx⟩ := h.pathlossEx
  have hdb : ∀ r source f, (receivers' r).pathlossDb source f = (receivers r).pathlossDb source f := by
    intro r source f
    rw [Receiver.pathlossDb, hpathloss r, Receiver.pathlossDb]
  refine ⟨⟨seen, { hlocation with table := fun r n => ?_ }⟩, ⟨seen', hpath.congr fun r source => hdb r source 0⟩,
    ⟨seen'', hpathEx.congr fun r source f _ => hdb r source f⟩⟩
  dsimp only
  rw [hlocations r]
  exact hlocation.table r n

/-- A statement that is not for the loader for antenna profiles. -/
theorem AntennaSeen.skip {loader : AntennaProfileLoader} {seen : UInt16 → Option ProfileEntry}
    (h : AntennaSeen rs loader stations seen) {s : Statement} (hs : s.profile? = fun _ => none) :
    AntennaSeen (rs ++ [s]) loader stations seen := by
  refine { h with entry := ?_ }
  rw [latest_concat, hs, ← h.entry]
  rfl

theorem AntennaSeen.insert {loader : AntennaProfileLoader} {seen : UInt16 → Option ProfileEntry}
    (h : AntennaSeen rs loader stations seen) {nem : UInt16} {entry : ProfileEntry}
    (hformed : (Statement.profile nem entry).Formed) (hadmissible : (Statement.profile nem entry).Admissible) :
    AntennaSeen (rs ++ [.profile nem entry]) (loader.enter (.profile nem entry)) stations seen := by
  have hcache : stored (loader.enter (.profile nem entry)).fullCache =
      overlay (single nem entry) (stored loader.fullCache) := stored_insert loader.fullCache nem entry
  have hdelta : stored (loader.enter (.profile nem entry)).deltaCache =
      overlay (single nem entry) (stored loader.deltaCache) := stored_insert loader.deltaCache nem entry
  refine ⟨fun r => ?_, fun n e he => ?_, ?_⟩
  · rw [hcache, hdelta]
    exact (h.follows r).enter _
  · rw [hcache, overlay, Option.or_eq_some_iff] at he
    rcases he with hnew | ⟨-, hold⟩
    · unfold single at hnew
      split_ifs at hnew with hn
      obtain rfl := Option.some.inj hnew
      exact hn ▸ ⟨hformed, hadmissible⟩
    · exact h.good n e hold
  · rw [hcache, latest_concat, h.entry]
    rfl

/-- **A statement is entered.** -/
theorem DeskInv.enter (h : DeskInv connected rs d stations) {s : Statement} (hformed : s.Formed)
    (hadmissible : s.Admissible) : DeskInv connected (rs ++ [s]) (d.enter s) stations := by
  obtain ⟨seen, hantenna⟩ := h.antenna
  obtain ⟨seen', hfading⟩ := h.fading
  obtain ⟨seen'', heffects, hconnected⟩ := h.effects
  have htables : ∀ {s : Statement}, s.change? = none →
      Inv ((rs ++ [s]).filterMap Statement.change?) ⟨d.loaders, fun r => (stations r).receiver⟩ := by
    intro s hs
    rw [List.filterMap_append, List.filterMap_cons_none hs, List.filterMap_nil, List.append_nil]
    exact h.tables
  cases s with
  | change change =>
      refine ⟨?_, ⟨seen, hantenna.skip rfl⟩, ⟨seen', hfading.skip rfl⟩, ⟨seen'', heffects.skip rfl, hconnected⟩⟩
      rw [List.filterMap_append]
      exact h.tables.enter hadmissible.1 hadmissible.2
  | profile nem entry =>
      exact ⟨htables rfl, ⟨seen, hantenna.insert hformed hadmissible⟩, ⟨seen', hfading.skip rfl⟩,
        ⟨seen'', heffects.skip rfl, hconnected⟩⟩
  | fading target tx model =>
      exact ⟨htables rfl, ⟨seen, hantenna.skip rfl⟩, ⟨seen', hfading.insert rfl hadmissible hformed⟩,
        ⟨seen'', heffects.skip rfl, hconnected⟩⟩
  | commEffect dst src effect =>
      obtain ⟨hdst, hsrc, hsome⟩ := hadmissible
      exact ⟨htables rfl, ⟨seen, hantenna.skip rfl⟩, ⟨seen', hfading.skip rfl⟩,
        ⟨seen'', heffects.insert rfl hdst ⟨hformed, hsrc, hsome⟩, hconnected⟩⟩

theorem DeskInv.foldl_enter {statements : List Statement} (h : DeskInv connected rs d stations)
    (hformed : ∀ s ∈ statements, s.Formed) (hadmissible : ∀ s ∈ statements, s.Admissible) :
    DeskInv connected (rs ++ statements) (statements.foldl Desk.enter d) stations := by
  induction statements generalizing rs d with
  | nil => exact (List.append_nil rs).symm ▸ h
  | cons s statements ih =>
      obtain ⟨hs, hformed⟩ := List.forall_mem_cons.mp hformed
      obtain ⟨hs', hadmissible⟩ := List.forall_mem_cons.mp hadmissible
      have hnext := ih (h.enter hs hs') hformed hadmissible
      rwa [List.append_assoc] at hnext

/-- **One loader publishes**: the others are still in step. -/
theorem DeskInv.publish {encodedLen : Announcement → ℕ} {l : NativeLoader}
    (h : DeskInv connected rs d stations) (hl : d.get l.kind = l) (mode : Mode)
    (hshort : ShortEnough encodedLen (l.publications mode).1) :
    DeskInv connected rs (d.put (l.publications mode).2)
      ((l.publications mode).1.foldl (broadcast encodedLen) stations) := by
  obtain ⟨seen, hantenna⟩ := h.antenna
  obtain ⟨seen', hfading⟩ := h.fading
  obtain ⟨seen'', heffects, hconnected⟩ := h.effects
  -- the loaders for locations and pathlosses
  have htables : ∀ (kind : LoaderKind) {messages : List Message} {loaders : Loaders},
      d.loaders.events mode kind = (messages, loaders) →
      ShortEnough encodedLen (messages.map NativeLoader.ofMessage) →
      DeskInv connected rs { d with loaders := loaders }
        ((messages.map NativeLoader.ofMessage).foldl (broadcast encodedLen) stations) := by
    intro kind messages loaders hevents hshort
    have hfits : Fits (fun event => encodedLen (.tables event)) (d.loaders.events mode kind).1 := by
      intro message hmessage
      rw [hevents] at hmessage
      exact hshort _ (List.mem_map_of_mem hmessage)
    have hpublish := @Inv.publishKind _ _ (fun event => encodedLen (.tables event)) (fun _ => mode) h.tables
      kind hfits
    unfold publishKind at hpublish
    rw [foldl_broadcast_tables]
    refine ⟨?_, ⟨seen, hantenna.congr fun r => deliver_antennaProfiles _ _ r⟩, ⟨seen', hfading⟩,
      ⟨seen'', heffects, hconnected⟩⟩
    rw [show Loaders.events _ mode kind = (messages, loaders) from hevents] at hpublish
    exact hpublish
  cases l with
  | location l =>
      obtain rfl : d.loaders.location = l := NativeLoader.location.inj hl
      exact htables .location rfl hshort
  | pathloss l =>
      obtain rfl : d.loaders.pathloss = l := NativeLoader.pathloss.inj hl
      exact htables .pathloss rfl hshort
  | pathlossEx l =>
      obtain rfl : d.loaders.pathlossEx = l := NativeLoader.pathlossEx.inj hl
      exact htables .pathlossEx rfl hshort
  | antenna l =>
      obtain rfl : d.antenna = l := NativeLoader.antenna.inj hl
      have hsent : ∀ n entry, stored (mode.pick d.antenna.deltaCache d.antenna.fullCache) n = some entry →
          stored d.antenna.fullCache n = some entry := by
        intro n entry hentry
        rw [Mode.apply_pick stored] at hentry
        exact (hantenna.follows 0).tracks.of_pick mode hentry
      have hreach := fun r => profiles_published (mode.pick d.antenna.deltaCache d.antenna.fullCache)
        (fun n entry hentry => hantenna.good n entry (hsent n entry hentry)) stations r hshort
      refine ⟨h.tables.congr (fun r => (hreach r).2.2.2.1) fun r => (hreach r).2.2.1,
        ⟨stored d.antenna.fullCache, ⟨fun r => ?_, hantenna.good, hantenna.entry⟩⟩,
        ⟨seen', hfading.congr fun r n => congrArg (·[n]?) (hreach r).1⟩,
        ⟨seen'', heffects.congr fun r n => congrArg (·.profiles[n]?) (hreach r).2.1, fun r => ?_⟩⟩
      · have hpublish := fun table' => @Follows.publish _ _ _ _ _ _ _ _ table' (hantenna.follows r) mode
        rw [← Mode.apply_pick stored] at hpublish
        have hempty : stored (∅ : ExtTreeMap UInt16 ProfileEntry) = fun _ => none :=
          funext fun _ => ExtTreeMap.getElem?_empty
        rw [← hempty] at hpublish
        exact hpublish _ (hreach r).2.2.2.2
      · rw [← hconnected r]
        exact iff_of_eq (congrArg (fun p : Profiles => p.defaultConnectivity = true) (hreach r).2.1)
  | fading l =>
      obtain rfl : d.fading = l := NativeLoader.fading.inj hl
      have hsent : ∀ k model, storedAt (mode.pick d.fading.deltaCache d.fading.cache) k = some model →
          storedAt d.fading.cache k = some model := by
        intro k model hmodel
        rw [Mode.apply_pick storedAt] at hmodel
        exact hfading.follows.tracks.of_pick mode hmodel
      have hzero : (0 : UInt16) ∉ mode.pick d.fading.deltaCache d.fading.cache := by
        cases mode with
        | delta => exact hfading.zero.2
        | full => exact hfading.zero.1
      have hreach := fading_published (mode.pick d.fading.deltaCache d.fading.cache) hzero
        (fun r tx model hmodel => hfading.good (r, tx) model (hsent (r, tx) model hmodel)) hshort stations
      refine ⟨h.tables.congr (fun r => congrArg (·.phy.locations) (hreach r).1)
          fun r => congrArg Receiver.pathloss (hreach r).1,
        ⟨seen, hantenna.congr fun r => congrArg (·.phy.antennaProfiles) (hreach r).1⟩,
        ⟨storedAt d.fading.cache, hfading.publish mode (fun _ _ hsome => hsome) fun r n => (hreach r).2.2 n⟩,
        ⟨seen'', heffects.congr fun r n => congrArg (·.profiles[n]?) (hreach r).2.1, fun r => ?_⟩⟩
      rw [← hconnected r]
      exact iff_of_eq (congrArg (fun p : Profiles => p.defaultConnectivity = true) (hreach r).2.1)
  | commEffect l =>
      obtain rfl : d.commEffect = l := NativeLoader.commEffect.inj hl
      have hsent : ∀ k effect, storedAt (mode.pick d.commEffect.deltaCache d.commEffect.cache) k = some effect →
          storedAt d.commEffect.cache k = some effect := by
        intro k effect heffect
        rw [Mode.apply_pick storedAt] at heffect
        exact heffects.follows.tracks.of_pick mode heffect
      have hzero : (0 : UInt16) ∉ mode.pick d.commEffect.deltaCache d.commEffect.cache := by
        cases mode with
        | delta => exact heffects.zero.2
        | full => exact heffects.zero.1
      have hreach := @effects_published encodedLen (mode.pick d.commEffect.deltaCache d.commEffect.cache)
        hzero (fun r src effect heffect => heffects.good (r, src) effect (hsent (r, src) effect heffect)) stations
      refine ⟨h.tables.congr (fun r => congrArg (·.phy.locations) (hreach r).1)
          fun r => congrArg Receiver.pathloss (hreach r).1,
        ⟨seen, hantenna.congr fun r => congrArg (·.phy.antennaProfiles) (hreach r).1⟩,
        ⟨seen', hfading.congr fun r n => congrArg (·[n]?) (hreach r).2.1⟩,
        ⟨storedAt d.commEffect.cache, heffects.publish mode (fun _ _ hgood => hgood.2.2)
          fun r n => (hreach r).2.2.1 n, fun r => ?_⟩⟩
      refine (hreach r).2.2.2.trans ?_
      rw [hconnected r, and_assoc]
      refine and_congr_right fun _ => ?_
      -- what was seen or is sent is what was entered
      have hpick := heffects.follows.tracks.overlay_pick mode
      rw [← Mode.apply_pick storedAt] at hpick
      constructor
      · rintro ⟨hseen, hnew⟩ src
        rw [← hpick, overlay, hseen src]
        exact (congrArg (·.or none) (hnew src)).trans rfl
      · intro hnone
        have hboth : ∀ src, storedAt (mode.pick d.commEffect.deltaCache d.commEffect.cache) (r, src) = none ∧
            seen'' (r, src) = none := by
          intro src
          have hsrc := hnone src
          rwa [← hpick, overlay, Option.or_eq_none_iff] at hsrc
        exact ⟨fun src => (hboth src).2, fun src => (hboth src).1⟩

/-! ## When nothing is new -/

/-- The tables of a NEM are those of the statements. -/
structure Shown (connected : UInt16 → Prop) (rs : List Statement) (r : UInt16) (station : Station) : Prop where
  locations : ∀ n : UInt16, station.receiver.phy.locations[n]? =
    publishedLocation (rs.filterMap Statement.change?) n
  pathlosses : ∀ source f, station.receiver.pathlossDb source f =
    expectedPathlossDb (rs.filterMap Statement.change?) r source f
  antennaProfiles : ∀ n : UInt16, station.receiver.phy.antennaProfiles[n]? =
    (latest Statement.profile? rs n).map selection
  fadingSelections : ∀ n : UInt16, station.fadingSelections[n]? =
    (latest Statement.fading? rs (r, n)).bind fadingMode
  profiles : ∀ n : UInt16, station.shim.profiles[n]? =
    (latest Statement.effect? rs (r, n)).bind Profile.fromMessage
  connectivity : station.shim.defaultConnectivity = true ↔
    connected r ∧ ∀ n, latest Statement.effect? rs (r, n) = none

theorem DeskInv.shown (h : DeskInv connected rs d stations) (hidle : ∀ kind, (d.get kind).Idle) (r : UInt16) :
    Shown connected rs r (stations r) := by
  obtain ⟨seen, hantenna⟩ := h.antenna
  obtain ⟨seen', hfading⟩ := h.fading
  obtain ⟨seen'', heffects, hconnected⟩ := h.effects
  have htables := h.tables.tables (fun kind => by
    cases kind with
    | location => exact hidle .location
    | pathloss => exact hidle .pathloss
    | pathlossEx => exact hidle .pathlossEx) r
  refine ⟨htables.1, htables.2, fun n => ?_, hfading.current (hidle .fadingSelection) r,
    heffects.current (hidle .commEffect) r, ?_⟩
  · have hdelta : stored d.antenna.deltaCache = fun _ => none := by
      rw [show d.antenna.deltaCache = ∅ from hidle .antennaProfile]
      exact funext fun _ => ExtTreeMap.getElem?_empty
    rw [(hantenna.follows r).current hdelta n, hantenna.entry]
  · have hdelta : storedAt d.commEffect.deltaCache = fun _ => none := by
      rw [show d.commEffect.deltaCache = ∅ from hidle .commEffect]
      exact storedAt_empty
    rw [hconnected r, heffects.entry, heffects.follows.tracks.eq_seen hdelta]

/-! ## One publication of the generator -/

/-- What the loaders sent. -/
def sentBy (sent : List (ℕ × List Publication)) : List Publication := sent.flatMap Prod.snd

/-- The loaders of the loop and the NEMs, which got what was sent. -/
structure LoopInv (encodedLen : Announcement → ℕ) (kinds : List Library) (connected : UInt16 → Prop)
    (rs : List Statement) (stations : UInt16 → Station) (s : PublishLoop) : Prop where
  kinds_eq : (s.loaders.map fun e => e.loader.kind) = kinds
  desk : DeskInv connected rs (.of s.loaders) ((sentBy s.sent).foldl (broadcast encodedLen) stations)
  idle : ∀ i ∈ s.published, ∀ e, s.loaders[i]? = some e → e.loader.Idle

variable {encodedLen : Announcement → ℕ} {kinds : List Library}

theorem map_kind_set {entries : List LoaderEntry} {i : ℕ} {e : LoaderEntry} (he : entries[i]? = some e)
    {l : NativeLoader} (hl : l.kind = e.loader.kind) :
    ((entries.set i { e with loader := l }).map fun e => e.loader.kind) =
      entries.map fun e => e.loader.kind := by
  obtain ⟨hi, hget⟩ := List.getElem?_eq_some_iff.mp he
  rw [List.map_set]
  refine List.ext_getElem (by simp) fun j hj hj' => ?_
  rw [List.getElem_set]
  split_ifs with hij
  · subst hij
    simp only [List.getElem_map, hget, hl]
  · rfl

theorem LoopInv.step {s s' : PublishLoop} (h : LoopInv encodedLen kinds connected rs stations s)
    (hkinds : kinds.Nodup) {index : ℕ} (hstep : publishIndex s index = some s')
    (hshort : ShortEnough encodedLen (sentBy s'.sent)) :
    LoopInv encodedLen kinds connected rs stations s' := by
  unfold publishIndex at hstep
  split_ifs at hstep with hmem
  · exact Option.some.inj hstep ▸ h
  obtain ⟨e, he, rfl⟩ := Option.map_eq_some_iff.mp hstep
  obtain ⟨hkind, hidle⟩ := e.loader.publications_kind e.mode
  obtain ⟨hget, hset⟩ := Desk.of_set (h.kinds_eq ▸ hkinds) he
  have hsent : sentBy (s.sent ++ [(index, (e.loader.publications e.mode).1)]) =
      sentBy s.sent ++ (e.loader.publications e.mode).1 := by
    rw [sentBy, List.flatMap_append, List.flatMap_singleton]
    rfl
  dsimp only at hshort
  rw [hsent] at hshort
  refine ⟨(map_kind_set he hkind).trans h.kinds_eq, ?_, ?_⟩
  · dsimp only
    rw [hsent, List.foldl_append, hset _ hkind]
    exact h.desk.publish hget e.mode fun p hp => hshort p (List.mem_append_right _ hp)
  · intro i hi e' he'
    dsimp only at hi he'
    rw [List.getElem?_set] at he'
    split_ifs at he' with hindex hlt
    · obtain rfl := Option.some.inj he'
      exact hidle
    · exact h.idle i ((List.mem_cons.mp hi).resolve_left (Ne.symm hindex)) e' he'

/-- The loop keeps the kinds of the loaders, and what was sent is sent. -/
theorem publishLoop_keeps {values : List ℕ} {s s' : PublishLoop} (h : values.foldlM publishIndex s = some s') :
    (s'.loaders.map fun e => e.loader.kind) = (s.loaders.map fun e => e.loader.kind) ∧ s.sent <+: s'.sent := by
  induction values generalizing s with
  | nil => exact Option.some.inj h ▸ ⟨rfl, List.prefix_rfl⟩
  | cons index values ih =>
      rw [List.foldlM_cons] at h
      obtain ⟨s₁, hstep, hrest⟩ := Option.bind_eq_some_iff.mp h
      obtain ⟨hkinds, hsent⟩ := ih hrest
      unfold publishIndex at hstep
      split_ifs at hstep
      · exact Option.some.inj hstep ▸ ⟨hkinds, hsent⟩
      · obtain ⟨e, he, rfl⟩ := Option.map_eq_some_iff.mp hstep
        exact ⟨hkinds.trans (map_kind_set he (e.loader.publications_kind e.mode).1),
          (List.prefix_append _ _).trans hsent⟩

theorem LoopInv.run {values : List ℕ} {s s' : PublishLoop}
    (h : LoopInv encodedLen kinds connected rs stations s) (hkinds : kinds.Nodup)
    (hrun : values.foldlM publishIndex s = some s') (hshort : ShortEnough encodedLen (sentBy s'.sent)) :
    LoopInv encodedLen kinds connected rs stations s' := by
  induction values generalizing s with
  | nil => exact Option.some.inj hrun ▸ h
  | cons index values ih =>
      rw [List.foldlM_cons] at hrun
      obtain ⟨s₁, hstep, hrest⟩ := Option.bind_eq_some_iff.mp hrun
      refine ih (h.step hkinds hstep fun p hp => hshort p ?_) hrest
      obtain ⟨more, hmore⟩ := (publishLoop_keeps hrest).2
      rw [← hmore, sentBy, List.flatMap_append]
      exact List.mem_append_left _ hp

/-! ## Whole runs -/

/-- What an action of the generator states; `kinds` has the kinds of its loaders. -/
def statementsOf (c : Conversions) (kinds : List Library) : Action → List Statement
  | .load index record moduleType moduleId => (kinds[index]?).elim [] fun kind =>
      recordStatements c kind moduleType moduleId record.eventType record.args
  | .publish _ _ => []

/-- What an action of the generator sends. -/
def sentOf : Action → List Publication
  | .load .. => []
  | .publish _ sent => sentBy sent

/-- The NEMs after the actions of a trace. -/
def stationsAfter (encodedLen : Announcement → ℕ) (stations : UInt16 → Station) (trace : List Action) :
    UInt16 → Station :=
  (trace.flatMap sentOf).foldl (broadcast encodedLen) stations

/-- The values of a record are what the NEMs take, and they are for single NEMs; publications are short
enough. -/
structure Fine (c : Conversions) (encodedLen : Announcement → ℕ) (kinds : List Library) (a : Action) :
    Prop where
  admissible : ∀ s ∈ statementsOf c kinds a, s.Admissible
  short : ShortEnough encodedLen (sentOf a)

instance (publications : List Publication) : Decidable (ShortEnough encodedLen publications) :=
  inferInstanceAs (Decidable (∀ publication ∈ publications, encodedLen publication.2 ≤ maxEventLength))

instance (c : Conversions) (a : Action) : Decidable (Fine c encodedLen kinds a) :=
  decidable_of_iff ((∀ s ∈ statementsOf c kinds a, s.Admissible) ∧ ShortEnough encodedLen (sentOf a))
    ⟨fun h => ⟨h.1, h.2⟩, fun h => ⟨h.1, h.2⟩⟩

/-- After each publication of the trace the tables are those of the statements before it. -/
def ShownThroughout (c : Conversions) (encodedLen : Announcement → ℕ) (kinds : List Library)
    (stations : UInt16 → Station) (trace : List Action) : Prop :=
  ∀ before time sent after, trace = before ++ .publish time sent :: after → ∀ r,
    Shown (fun r => (stations r).shim.defaultConnectivity = true) (before.flatMap (statementsOf c kinds)) r
      (stationsAfter encodedLen stations (before ++ [.publish time sent]) r)

/-- The loaders are in step with the NEMs, if the actions so far were fine. -/
structure ScenarioInv (c : Conversions) (encodedLen : Announcement → ℕ) (kinds : List Library)
    (stations : UInt16 → Station) (p : Progress) : Prop where
  kinds_eq : (p.loaders.map fun e => e.loader.kind) = kinds
  desk : (∀ a ∈ p.trace, Fine c encodedLen kinds a) →
    DeskInv (fun r => (stations r).shim.defaultConnectivity = true) (p.trace.flatMap (statementsOf c kinds))
        (.of p.loaders) (stationsAfter encodedLen stations p.trace) ∧
      ShownThroughout c encodedLen kinds stations p.trace

variable {c : Conversions} {env : Surroundings} {g : NativeEelGenerator}

theorem forall_fine_of_append {a : Action} {trace : List Action}
    (h : ∀ b ∈ trace ++ [a], Fine c encodedLen kinds b) :
    (∀ b ∈ trace, Fine c encodedLen kinds b) ∧ Fine c encodedLen kinds a :=
  ⟨fun b hb => h b (List.mem_append_left _ hb), h a (by simp)⟩

theorem stationsAfter_append (stations : UInt16 → Station) (trace : List Action) (a : Action) :
    stationsAfter encodedLen stations (trace ++ [a]) =
      (sentOf a).foldl (broadcast encodedLen) (stationsAfter encodedLen stations trace) := by
  rw [stationsAfter, List.flatMap_append, List.flatMap_singleton, List.foldl_append]
  rfl

/-- A trace with one action more divides where it did, or at the action. -/
theorem append_eq_split {trace before after : List Action} {a b : Action}
    (h : trace ++ [a] = before ++ b :: after) :
    (before = trace ∧ b = a) ∨ ∃ after', trace = before ++ b :: after' := by
  induction after using List.reverseRecOn with
  | nil =>
      obtain ⟨htrace, ha⟩ := List.append_inj' h rfl
      exact .inl ⟨htrace.symm, (List.singleton_inj.mp ha).symm⟩
  | append_singleton after last _ =>
      rw [← List.cons_append, ← List.append_assoc] at h
      exact .inr ⟨after, (List.append_inj' h rfl).1⟩

theorem scenario_stepsKeep (hg : g.Configured) (henv : env.Fair g)
    (hkinds : (g.loaders.map fun e => e.loader.kind).Nodup) (stations : UInt16 → Station) :
    StepsKeep c env (ScenarioInv c encodedLen (g.loaders.map fun e => e.loader.kind) stations) := by
  refine ⟨fun p time looks h => ⟨h.kinds_eq, h.desk⟩, ?_, ?_⟩
  · intro p index record moduleType moduleId e l h he hload
    obtain ⟨hget, hset⟩ := Desk.of_set (h.kinds_eq ▸ hkinds) he
    obtain ⟨hkind, hput⟩ := NativeLoader.load_eq hload hget
    refine ⟨(map_kind_set he hkind).trans h.kinds_eq, fun hfine => ?_⟩
    obtain ⟨hpast, hlast⟩ := forall_fine_of_append hfine
    obtain ⟨hdesk, hshown⟩ := h.desk hpast
    have hstatements : statementsOf c (g.loaders.map fun e => e.loader.kind)
        (.load index record moduleType moduleId) =
        recordStatements c e.loader.kind moduleType moduleId record.eventType record.args := by
      rw [statementsOf, ← h.kinds_eq, List.getElem?_map, he]
      rfl
    have hadmissible := hlast.admissible
    rw [hstatements] at hadmissible
    constructor
    · dsimp only
      rw [stationsAfter_append, List.flatMap_append, List.flatMap_singleton, hstatements, hset l hkind, hput]
      exact hdesk.foldl_enter (fun s hs => recordStatements_formed hs) hadmissible
    · intro before time sent after hsplit
      rcases append_eq_split hsplit with ⟨-, hlast⟩ | ⟨after', hold⟩
      · cases hlast
      · exact hshown before time sent after' hold
  · intro p time looks s h hrun
    have hlength : p.loaders.length = g.loaders.length := by
      have hmap := congrArg List.length h.kinds_eq
      rwa [List.length_map, List.length_map] at hmap
    have hvalues : ∀ i, i ∈ env.values p.publications ↔ i < p.loaders.length := by
      intro i
      rw [(henv p.publications).mem_iff, List.mem_map, hlength]
      constructor
      · rintro ⟨e, he, rfl⟩
        exact hg.lt e he
      · exact hg.surjective i
    obtain ⟨s', hrun', hdone⟩ := publishLoop_done fun i hi => (hvalues i).mp hi
    obtain rfl := Option.some.inj (hrun.symm.trans hrun')
    have hloop : (∀ a ∈ p.trace ++ [.publish time s.sent],
        Fine c encodedLen (g.loaders.map fun e => e.loader.kind) a) →
        LoopInv encodedLen (g.loaders.map fun e => e.loader.kind)
          (fun r => (stations r).shim.defaultConnectivity = true)
          (p.trace.flatMap (statementsOf c (g.loaders.map fun e => e.loader.kind)))
          (stationsAfter encodedLen stations p.trace) s := by
      intro hfine
      obtain ⟨hpast, hlast⟩ := forall_fine_of_append hfine
      have hstart : LoopInv encodedLen (g.loaders.map fun e => e.loader.kind)
          (fun r => (stations r).shim.defaultConnectivity = true)
          (p.trace.flatMap (statementsOf c (g.loaders.map fun e => e.loader.kind)))
          (stationsAfter encodedLen stations p.trace) ⟨[], p.loaders, []⟩ :=
        ⟨h.kinds_eq, (h.desk hpast).1, fun i hi => absurd hi List.not_mem_nil⟩
      exact hstart.run hkinds hrun hlast.short
    have hkept := (publishLoop_keeps hrun).1.trans h.kinds_eq
    refine ⟨hkept, fun hfine => ?_⟩
    have hdesk := (hloop hfine).desk
    have hafter : stationsAfter encodedLen stations (p.trace ++ [.publish time s.sent]) =
        (sentBy s.sent).foldl (broadcast encodedLen) (stationsAfter encodedLen stations p.trace) :=
      stationsAfter_append stations p.trace _
    rw [← hafter] at hdesk
    constructor
    · dsimp only
      rw [List.flatMap_append, List.flatMap_singleton]
      exact (List.append_nil (p.trace.flatMap _)).symm ▸ hdesk
    · intro before time' sent' after hsplit
      rcases append_eq_split hsplit with ⟨rfl, hlast⟩ | ⟨after', hold⟩
      · obtain ⟨rfl, rfl⟩ := Action.publish.inj hlast
        refine hdesk.shown (Desk.idle_of fun e he => ?_)
        -- each loader has published
        obtain ⟨i, hi, rfl⟩ := List.getElem_of_mem he
        have hpublished := (hdone.mem i).mpr ((hvalues i).mpr (hdone.length ▸ hi))
        exact (hloop hfine).idle i hpublished _ (List.getElem?_eq_getElem hi)
      · exact (h.desk (forall_fine_of_append hfine).1).2 before time' sent' after' hold

/-! ## The start -/

/-- A NEM that has heard nothing. -/
structure Station.Fresh (s : Station) : Prop where
  receiver : s.receiver.Empty
  antennaProfiles : s.receiver.phy.antennaProfiles = ∅
  fadingSelections : s.fadingSelections = ∅
  profiles : s.shim.profiles = ∅

theorem PairSeen.new {β ω : Type} {value? : Statement → UInt16 × UInt16 → Option β} {Good : UInt16 → β → Prop}
    {view : β → Option ω} {table : UInt16 → UInt16 → Option ω} (htable : ∀ r n, table r n = none) :
    PairSeen value? Good view [] .new table fun _ => none := by
  have hempty : storedAt (∅ : ExtTreeMap UInt16 (ExtTreeMap UInt16 β)) = fun _ => none := storedAt_empty
  refine ⟨⟨?_, fun k => ?_⟩, fun k value hvalue => ?_, ⟨ExtTreeMap.not_mem_empty, ExtTreeMap.not_mem_empty⟩,
    hempty.symm⟩
  · change Tracks (storedAt ∅) (storedAt ∅) _
    rw [hempty]
    exact Tracks.empty
  · rw [htable, Option.map_none, Option.map_none]
  · exact absurd ((congrFun hempty k).symm.trans hvalue) (by simp)

theorem DeskInv.new (h : ∀ r, (stations r).Fresh) :
    DeskInv (fun r => (stations r).shim.defaultConnectivity = true) [] .new stations := by
  have hempty : stored (∅ : ExtTreeMap UInt16 ProfileEntry) = fun _ => none :=
    funext fun _ => ExtTreeMap.getElem?_empty
  refine ⟨Inv.new fun r => (h r).receiver, ⟨fun _ => none, ?_⟩, ⟨fun _ => none, PairSeen.new fun r n => ?_⟩,
    ⟨fun _ => none, PairSeen.new fun r n => ?_, fun r => (and_iff_left fun _ => rfl).symm⟩⟩
  · refine ⟨fun r => ⟨?_, fun n => ?_⟩, fun n entry he => ?_, hempty.symm⟩
    · change Tracks (stored ∅) (stored ∅) _
      rw [hempty]
      exact Tracks.empty
    · rw [(h r).antennaProfiles, ExtTreeMap.getElem?_empty, Option.map_none]
    · exact absurd ((congrFun hempty n).symm.trans he) (by simp)
  · rw [(h r).fadingSelections, ExtTreeMap.getElem?_empty]
  · rw [(h r).profiles, ExtTreeMap.getElem?_empty]

theorem NativeLoader.fromLibrary_eq {library : String} {l : NativeLoader} (h : fromLibrary library = .ok l) :
    l = Desk.new.get l.kind := by
  unfold fromLibrary at h
  dsimp only at h
  split_ifs at h <;> (obtain rfl := Except.ok.inj h; rfl)

theorem addLoader_fresh {g g' : NativeEelGenerator} {spec : String}
    (h : ∀ e ∈ g.loaders, e.loader = Desk.new.get e.loader.kind) (hadd : g.addLoader spec = .ok g') :
    ∀ e ∈ g'.loaders, e.loader = Desk.new.get e.loader.kind := by
  unfold NativeEelGenerator.addLoader at hadd
  split at hadd
  · obtain ⟨mode, -, hadd⟩ := exists_of_bind_eq_ok hadd
    obtain ⟨-, hadd⟩ := guard_eq_ok_iff.mp hadd
    obtain ⟨loader, hloader, hadd⟩ := exists_of_bind_eq_ok hadd
    obtain ⟨eventLoaders, -, hadd⟩ := exists_of_bind_eq_ok hadd
    obtain rfl := Except.ok.inj hadd
    intro e he
    rcases List.mem_append.mp he with he | he
    · exact h e he
    · obtain rfl := List.mem_singleton.mp he
      exact NativeLoader.fromLibrary_eq hloader
  · cases hadd

/-- The loaders of a new generator have empty caches. -/
theorem of_new {inputFiles loaderSpecs : List String} (h : NativeEelGenerator.new inputFiles loaderSpecs = .ok g) :
    Desk.of g.loaders = .new := by
  unfold NativeEelGenerator.new at h
  obtain ⟨-, h⟩ := guard_eq_ok_iff.mp h
  obtain ⟨g', hloop, h⟩ := exists_of_bind_eq_ok h
  obtain ⟨-, h⟩ := guard_eq_ok_iff.mp h
  obtain rfl := Except.ok.inj h
  have hfresh : ∀ e ∈ g'.loaders, e.loader = Desk.new.get e.loader.kind :=
    foldlM_ok_induction (motive := fun _ g => ∀ e ∈ g.loaders, e.loader = Desk.new.get e.loader.kind) (by simp)
      (fun _ _ _ _ hx hadd => addLoader_fresh hx hadd) _ _ hloop
  unfold Desk.of
  generalize g'.loaders = entries at hfresh
  induction entries with
  | nil => rfl
  | cons e entries ih =>
      have hput : ∀ kind, Desk.new.put (Desk.new.get kind) = .new := fun kind => by cases kind <;> rfl
      rw [List.foldl_cons, hfresh e List.mem_cons_self, hput]
      exact ih fun e' he' => hfresh e' (List.mem_cons_of_mem e he')

/-- What the records of a trace up to a time state. -/
def statementsUpTo (c : Conversions) (kinds : List Library) (trace : List Action) (t : ℤ) : List Statement :=
  trace.flatMap fun a => if a.time ≤ t then statementsOf c kinds a else []

/-- Those are the statements before the publication of the time. -/
theorem statementsUpTo_eq {before after : List Action} {time : F32} {sent : List (ℕ × List Publication)}
    (hbefore : ∀ r ∈ loads before, instant r.time ≤ instant time)
    (hafter : ∀ r ∈ loads after, instant time < instant r.time) :
    statementsUpTo c kinds (before ++ .publish time sent :: after) (instant time) =
      before.flatMap (statementsOf c kinds) := by
  have hload : ∀ {trace : List Action} {index record moduleType moduleId},
      Action.load index record moduleType moduleId ∈ trace → record ∈ loads trace :=
    fun hmem => List.mem_filterMap.mpr ⟨_, hmem, rfl⟩
  have hpast : (before.flatMap fun a => if a.time ≤ instant time then statementsOf c kinds a else []) =
      before.flatMap (statementsOf c kinds) := by
    refine List.flatMap_congr fun a ha => ?_
    cases a with
    | publish => exact ite_self _
    | load => exact if_pos (hbefore _ (hload ha))
  have hrest : (after.flatMap fun a => if a.time ≤ instant time then statementsOf c kinds a else []) = [] := by
    rw [List.flatMap_eq_nil_iff]
    intro a ha
    cases a with
    | publish => exact ite_self _
    | load => exact if_neg (not_le.mpr (hafter _ (hload ha)))
  rw [statementsUpTo, List.flatMap_append, List.flatMap_cons, hpast, hrest, List.append_nil]
  exact (congrArg (_ ++ ·) (ite_self _)).trans (List.append_nil _)

/-- **A scenario is shown.** For a generator whose loaders are of different kinds, records with values that
the NEMs take and for single NEMs, and publications that are short enough: after each publication, the tables
of each NEM are those of the records up to its time, in any modes, in any order of the loaders, and however
the run ends. -/
theorem scenario_shown {inputFiles loaderSpecs : List String}
    (hnew : NativeEelGenerator.new inputFiles loaderSpecs = .ok g) (henv : env.Fair g)
    (hkinds : (g.loaders.map fun e => e.loader.kind).Nodup) (hfresh : ∀ r, (stations r).Fresh)
    (read : String → InputFile)
    (hfine : ∀ a ∈ traceOf (g.run c env read), Fine c encodedLen (g.loaders.map fun e => e.loader.kind) a)
    {before after : List Action} {time : F32} {sent : List (ℕ × List Publication)}
    (htrace : traceOf (g.run c env read) = before ++ .publish time sent :: after) (r : UInt16) :
    Shown (fun r => (stations r).shim.defaultConnectivity = true)
      (statementsUpTo c (g.loaders.map fun e => e.loader.kind) (traceOf (g.run c env read)) (instant time)) r
      (stationsAfter encodedLen stations (before ++ [.publish time sent]) r) := by
  have hg := (NativeEelGenerator.configured_of_new hnew).1
  have hinit : ScenarioInv c encodedLen (g.loaders.map fun e => e.loader.kind) stations
      ⟨g.loaders, none, 0, 0, []⟩ := by
    refine ⟨rfl, fun _ => ⟨?_, fun before time sent after hsplit => ?_⟩⟩
    · rw [of_new hnew]
      exact DeskInv.new hfresh
    · exact absurd hsplit.symm (by simp)
  have hinv := (scenario_stepsKeep hg henv hkinds stations).run g read hinit
  obtain ⟨hbefore, -, hafter, -⟩ := (run_timely (c := c) hg henv read).divides before time sent after htrace
  rw [htrace, statementsUpTo_eq hbefore hafter]
  exact (hinv.desk hfine).2 before time sent after htrace r

/-- Loaders for four of the tables. -/
def scenarioSpecs : List String := ["location:eelloaderlocation", "commeffect:eelloadercommeffect:full",
  "antennaprofile:antennaprofile", "fadingselection:libeelloaderfadingselection.so"]

/-- Four records at two times. -/
def scenarioScript : String → InputFile := fun _ => .ok
  [.ok "80 nem:1 location gps 45,45,0,msl", .ok "80 nem:1 commeffect nem:2,80,80,80,80,1000,1000",
    .ok "90 nem:1 antennaprofile 3,45,45", .ok "90 nem:2 fadingselection nem:1,nakagami"]

def scenarioSurroundings : Surroundings := ⟨fun _ => false, fun _ => [2, 0, 3, 1], fun _ => ""⟩

def freshStations : UInt16 → Station := fun _ => ⟨⟨.new, ∅⟩, ∅, ∅, ⟨true, ∅⟩⟩

/-- The script is published at its second time, and the tables are those of all its records. -/
theorem scenario_shown_sample : ∃ g, NativeEelGenerator.new ["scenario.eel"] scenarioSpecs = .ok g ∧
    ∃ before sent after,
      traceOf (g.run sampleConversions scenarioSurroundings scenarioScript) =
        before ++ .publish ⟨0x42b40000⟩ sent :: after ∧
      ∀ r, Shown (fun r => (freshStations r).shim.defaultConnectivity = true)
        (statementsUpTo sampleConversions (g.loaders.map fun e => e.loader.kind)
          (traceOf (g.run sampleConversions scenarioSurroundings scenarioScript)) (instant ⟨0x42b40000⟩)) r
        (stationsAfter (fun _ => 100) freshStations (before ++ [.publish ⟨0x42b40000⟩ sent]) r) := by
  have hcomputed : (NativeEelGenerator.new ["scenario.eel"] scenarioSpecs).toOption.map (fun g =>
      (g.eventLoaders, g.loaders.map fun e => e.loader.kind,
        (traceOf (g.run sampleConversions scenarioSurroundings scenarioScript)).all fun a =>
          decide (Fine sampleConversions (fun _ => 100) (g.loaders.map fun e => e.loader.kind) a),
        (traceOf (g.run sampleConversions scenarioSurroundings scenarioScript)).map publishedAt?)) =
      some ([("fadingselection", 3), ("antennaprofile", 2), ("commeffect", 1), ("location", 0)],
        [.location, .commEffect, .antennaProfile, .fadingSelection], true,
        [none, none, some ⟨0x42a00000⟩, none, none, some ⟨0x42b40000⟩]) := by
    decide +kernel
  obtain ⟨g, hnew, heq⟩ := exists_of_toOption_map hcomputed
  simp only [Prod.mk.injEq] at heq
  obtain ⟨hloaders, hkinds, hfine, htimes⟩ := heq
  have hmem : some (⟨0x42b40000⟩ : F32) ∈
      (traceOf (g.run sampleConversions scenarioSurroundings scenarioScript)).map publishedAt? := by
    rw [htimes]
    decide
  obtain ⟨a, ha, htime⟩ := List.mem_map.mp hmem
  cases a with
  | load => cases htime
  | publish time sent =>
      obtain rfl := Option.some.inj htime
      obtain ⟨before, after, htrace⟩ := List.append_of_mem ha
      refine ⟨g, hnew, before, sent, after, htrace, fun r => ?_⟩
      refine scenario_shown hnew ?_ ?_ ?_ scenarioScript ?_ htrace r
      · intro n
        change [2, 0, 3, 1].Perm (g.eventLoaders.map Prod.snd)
        rw [hloaders]
        decide
      · rw [hkinds]
        decide
      · exact fun _ => ⟨⟨rfl, rfl⟩, rfl, rfl, rfl⟩
      · exact fun a ha => of_decide_eq_true (List.all_eq_true.mp hfine a ha)

end Emane.Eel
