import Mathlib
import Emane.Eel.Seen

set_option autoImplicit false

/-! # Publications

The loaders with the receivers as a system. A record enters its changes; a publication lets the loaders
publish, one after the other. Each loader has its own mode.

After a publication the tables are the same in all modes, and they are those of the values that were loaded
last, if each NEM in the location table got a position (`publications_agree_iff`). A NEM that got an
orientation or a velocity only is published all the same, at the default position.
-/

namespace Emane.Eel

open Emane.Lib
open Emane.Phy (Position Orientation Velocity Location)
open Emane.PluginApi (F32 F64)
open Std (ExtTreeMap)

/-! ## The system -/

/-- The messages that a loader publishes, and the loaders afterwards. -/
def Loaders.events (loaders : Loaders) (mode : Mode) : LoaderKind → List Message × Loaders
  | .location =>
      let (messages, loader) := loaders.location.events mode
      (messages, { loaders with location := loader })
  | .pathloss =>
      let (messages, loader) := loaders.pathloss.events mode
      (messages, { loaders with pathloss := loader })
  | .pathlossEx =>
      let (messages, loader) := loaders.pathlossEx.events mode
      (messages, { loaders with pathlossEx := loader })

/-- A loader has nothing new. -/
def Loaders.Idle (loaders : Loaders) : LoaderKind → Prop
  | .location => loaders.location.deltaCache = ∅
  | .pathloss => loaders.pathloss.deltaCache = ∅
  | .pathlossEx => loaders.pathlossEx.deltaCache = ∅

structure World where
  loaders : Loaders
  receivers : UInt16 → Receiver

/-- A record that is loaded, or a publication with the loaders in their order. -/
inductive Op
  | load (kind : LoaderKind) (moduleType : String) (moduleId : UInt16) (eventType : String)
      (args : List String)
  | publish (order : List LoaderKind)

section

variable (c : Conversions) (encodedLen : Event → ℕ) (modes : LoaderKind → Mode)

def Op.changes : Op → List Change
  | .load kind moduleType moduleId eventType args => recordChanges c kind moduleType moduleId eventType args
  | .publish _ => []

/-- One loader publishes. -/
def publishKind (w : World) (kind : LoaderKind) : World :=
  let (messages, loaders) := w.loaders.events (modes kind) kind
  ⟨loaders, messages.foldl (deliver encodedLen) w.receivers⟩

/-- `none` stands for a record that is not accepted. -/
def step (w : World) : Op → Option World
  | .load kind moduleType moduleId eventType args =>
      (w.loaders.load c kind moduleType moduleId eventType args).map fun loaders =>
        { w with loaders := loaders }
  | .publish order => some (order.foldl (publishKind encodedLen modes) w)

/-- The values of a record are what the receivers take, and it does not name NEM 0. Each loader that has
something new publishes, and the messages are short enough. -/
def Allowed (w : World) : Op → Prop
  | .load kind moduleType moduleId eventType args =>
      ∀ change ∈ recordChanges c kind moduleType moduleId eventType args,
        change.Admissible ∧ change.Addressable
  | .publish order => ∀ kind, (kind ∈ order ∨ w.loaders.Idle kind) ∧
      Fits encodedLen (w.loaders.events (modes kind) kind).1

instance (messages : List Message) : Decidable (Fits encodedLen messages) :=
  inferInstanceAs (Decidable (∀ message ∈ messages, encodedLen message.2 ≤ maxEventLength))

instance (loaders : Loaders) : (kind : LoaderKind) → Decidable (loaders.Idle kind)
  | .location => decidable_of_iff (loaders.location.deltaCache.isEmpty = true) ExtTreeMap.isEmpty_iff
  | .pathloss => decidable_of_iff (loaders.pathloss.deltaCache.isEmpty = true) ExtTreeMap.isEmpty_iff
  | .pathlossEx => decidable_of_iff (loaders.pathlossEx.deltaCache.isEmpty = true) ExtTreeMap.isEmpty_iff

instance (w : World) : (op : Op) → Decidable (Allowed c encodedLen modes w op)
  | .load kind moduleType moduleId eventType args => inferInstanceAs (Decidable
      (∀ change ∈ recordChanges c kind moduleType moduleId eventType args,
        change.Admissible ∧ change.Addressable))
  | .publish order => inferInstanceAs (Decidable (∀ kind, (kind ∈ order ∨ w.loaders.Idle kind) ∧
      Fits encodedLen (w.loaders.events (modes kind) kind).1))

end

/-! ## What one step keeps -/

/-- Each loader is in step with the receivers. -/
structure Inv (rs : List Change) (w : World) : Prop where
  location : ∃ seen, LocationSeen rs w.loaders.location w.receivers seen
  pathloss : ∃ seen, PathlossSeen rs w.loaders.pathloss w.receivers seen
  pathlossEx : ∃ seen, PathlossExSeen rs w.loaders.pathlossEx w.receivers seen

variable {rs : List Change} {w : World} {c : Conversions} {encodedLen : Event → ℕ}
  {modes : LoaderKind → Mode}

/-- The tables have no entries. -/
structure Receiver.Empty (r : Receiver) : Prop where
  locations : r.phy.locations = ∅
  pathloss : r.pathloss = ∅

theorem Inv.new {receivers : UInt16 → Receiver} (hempty : ∀ r, (receivers r).Empty) :
    Inv [] ⟨.new, receivers⟩ := by
  have hpathloss : ∀ r source f, (receivers r).pathlossDb source f = none := by
    intro r source f
    rw [Receiver.pathlossDb, (hempty r).pathloss, getAt?, ExtTreeMap.getElem?_empty, Option.bind_none]
  have hlocation : stored (∅ : ExtTreeMap UInt16 LocationEntry) = fun _ => none :=
    funext fun _ => ExtTreeMap.getElem?_empty
  refine ⟨⟨fun _ => none, ?_⟩, ⟨fun _ => none, ?_⟩, ⟨fun _ => none, ?_⟩⟩
  · refine ⟨?_, fun _ _ hold => absurd hold (by simp), ?_, congrFun hlocation, ?_⟩
    · change Tracks (stored ∅) (stored ∅) _
      rw [hlocation]
      exact Tracks.empty
    · exact fun n entry hentry => absurd ((congrFun hlocation n).symm.trans hentry) (by simp)
    · intro r n
      change (receivers r).phy.locations[n]? = none
      rw [(hempty r).locations, ExtTreeMap.getElem?_empty]
  · refine ⟨⟨?_, fun k => hpathloss k.1 k.2 0⟩, ?_, ?_, fun k => ?_⟩
    · change Tracks (storedAt ∅) (storedAt ∅) _
      rw [storedAt_empty]
      exact Tracks.empty
    · exact fun k entry hentry => absurd ((congrFun storedAt_empty k).symm.trans hentry) (by simp)
    · exact ⟨ExtTreeMap.not_mem_empty, ExtTreeMap.not_mem_empty⟩
    · change none = (storedAt ∅ k).map PathlossEntry.forward
      rw [storedAt_empty, Option.map_none]
  · refine ⟨⟨?_, fun k => ?_⟩, ?_, ?_, ?_, fun k _ => ?_⟩
    · change Tracks (storedEx ∅) (storedEx ∅) _
      rw [storedEx_empty]
      exact Tracks.empty
    · rw [hpathloss, ite_self, Option.map_none]
    · exact fun k value hvalue => absurd ((congrFun storedEx_empty k).symm.trans hvalue) (by simp)
    · exact fun k value hvalue => absurd ((congrFun storedEx_empty k).symm.trans hvalue) (by simp)
    · exact ⟨ExtTreeMap.not_mem_empty, ExtTreeMap.not_mem_empty⟩
    · exact (congrFun storedEx_empty k).symm

/-- A change is entered. -/
theorem Inv.enter (h : Inv rs w) {change : Change} (hchange : change.Admissible)
    (haddress : change.Addressable) :
    Inv (rs ++ [change]) { w with loaders := w.loaders.enter change } := by
  obtain ⟨seen, hlocation⟩ := h.location
  obtain ⟨seen', hpathloss⟩ := h.pathloss
  obtain ⟨seen'', hpathlossEx⟩ := h.pathlossEx
  exact ⟨⟨seen, hlocation.enter hchange⟩, ⟨seen', hpathloss.enter hchange haddress⟩,
    ⟨seen'', hpathlossEx.enter hchange haddress⟩⟩

/-- Changes are entered, one after the other. -/
theorem Inv.foldl_enter (h : Inv rs w) {changes : List Change}
    (hchanges : ∀ change ∈ changes, change.Admissible ∧ change.Addressable) :
    Inv (rs ++ changes) { w with loaders := changes.foldl Loaders.enter w.loaders } := by
  induction changes generalizing rs w with
  | nil => exact (List.append_nil rs).symm ▸ h
  | cons change changes ih =>
      obtain ⟨⟨hchange, haddress⟩, hrest⟩ := List.forall_mem_cons.mp hchanges
      have hnext := ih (h.enter hchange haddress) hrest
      rwa [List.append_assoc] at hnext

/-! Each loader is concerned with its own part of the tables. -/

theorem LocationSeen.congr {loader : LocationLoader} {receivers receivers' : UInt16 → Receiver}
    {seen : UInt16 → Option LocationEntry} (h : LocationSeen rs loader receivers seen)
    (hphy : ∀ r, (receivers' r).phy = (receivers r).phy) : LocationSeen rs loader receivers' seen :=
  { h with table := fun r n => hphy r ▸ h.table r n }

theorem PathlossSeen.congr {loader : PathlossLoader} {receivers receivers' : UInt16 → Receiver}
    {seen : UInt16 × UInt16 → Option PathlossEntry} (h : PathlossSeen rs loader receivers seen)
    (htable : ∀ r source, (receivers' r).pathlossDb source 0 = (receivers r).pathlossDb source 0) :
    PathlossSeen rs loader receivers' seen :=
  { h with follows := ⟨h.follows.tracks, fun k => (htable k.1 k.2).trans (h.follows.table_eq k)⟩ }

theorem PathlossExSeen.congr {loader : PathlossExLoader} {receivers receivers' : UInt16 → Receiver}
    {seen : UInt16 × UInt16 × UInt64 → Option F32} (h : PathlossExSeen rs loader receivers seen)
    (htable : ∀ r source f, f ≠ 0 → (receivers' r).pathlossDb source f = (receivers r).pathlossDb source f) :
    PathlossExSeen rs loader receivers' seen := by
  refine { h with follows := ⟨h.follows.tracks, fun k => ?_⟩ }
  rw [← h.follows.table_eq k]
  by_cases hk : k.2.2 = 0
  · rw [if_pos hk, if_pos hk]
  · rw [if_neg hk, if_neg hk, htable k.1 k.2.1 k.2.2 hk]

/-- **A loader publishes**: the others are still in step, as they do not share their part of the tables. -/
theorem Inv.publishKind (h : Inv rs w) {kind : LoaderKind}
    (hfits : Fits encodedLen (w.loaders.events (modes kind) kind).1) :
    Inv rs (publishKind encodedLen modes w kind) := by
  obtain ⟨seen, hlocation⟩ := h.location
  obtain ⟨seen', hpathloss⟩ := h.pathloss
  obtain ⟨seen'', hpathlossEx⟩ := h.pathlossEx
  cases kind with
  | location =>
      obtain ⟨hpublished, htable⟩ := hlocation.publish hfits
      have hdb : ∀ r source f, (((w.loaders.location.events (modes .location)).1.foldl (deliver encodedLen)
          w.receivers) r).pathlossDb source f = (w.receivers r).pathlossDb source f := by
        intro r source f
        rw [Receiver.pathlossDb, htable r, Receiver.pathlossDb]
      exact ⟨hpublished, ⟨seen', hpathloss.congr fun r source => hdb r source 0⟩,
        ⟨seen'', hpathlossEx.congr fun r source f _ => hdb r source f⟩⟩
  | pathloss =>
      obtain ⟨hpublished, htable⟩ := hpathloss.publish hfits
      exact ⟨⟨seen, hlocation.congr fun r => (htable r).1⟩, hpublished,
        ⟨seen'', hpathlossEx.congr fun r => (htable r).2⟩⟩
  | pathlossEx =>
      obtain ⟨hpublished, htable⟩ := hpathlossEx.publish hfits
      exact ⟨⟨seen, hlocation.congr fun r => (htable r).1⟩,
        ⟨seen', hpathloss.congr fun r => (htable r).2⟩, hpublished⟩

theorem Loaders.events_of_idle {loaders : Loaders} {kind : LoaderKind} (h : loaders.Idle kind) (mode : Mode) :
    loaders.events mode kind = ([], loaders) := by
  cases kind with
  | location => rw [events, LocationLoader.events_of_idle h]
  | pathloss => rw [events, PathlossLoader.events_of_idle h]
  | pathlossEx => rw [events, PathlossExLoader.events_of_idle h]

theorem Loaders.events_idle (loaders : Loaders) (mode : Mode) (kind : LoaderKind) :
    (loaders.events mode kind).2.Idle kind := by
  cases kind with
  | location => exact loaders.location.events_idle mode
  | pathloss => exact loaders.pathloss.events_idle mode
  | pathlossEx => exact loaders.pathlossEx.events_idle mode

/-- A loader that publishes leaves the others alone. -/
theorem Loaders.events_other (loaders : Loaders) (mode mode' : Mode) {kind kind' : LoaderKind}
    (h : kind ≠ kind') : ((loaders.events mode kind).2.events mode' kind').1 = (loaders.events mode' kind').1 ∧
      ((loaders.events mode kind).2.Idle kind' ↔ loaders.Idle kind') := by
  cases kind <;> cases kind' <;> first | exact absurd rfl h | exact ⟨rfl, .rfl⟩

/-- **A publication**: all the loaders that published have nothing new. -/
theorem Inv.publish {order : List LoaderKind} (h : Inv rs w)
    (hfits : ∀ kind, Fits encodedLen (w.loaders.events (modes kind) kind).1) :
    Inv rs (order.foldl (Eel.publishKind encodedLen modes) w) ∧
      ∀ kind, (kind ∈ order ∨ w.loaders.Idle kind) →
        (order.foldl (Eel.publishKind encodedLen modes) w).loaders.Idle kind := by
  induction order generalizing w with
  | nil => exact ⟨h, fun kind hkind => hkind.elim (fun hmem => absurd hmem List.not_mem_nil) id⟩
  | cons first order ih =>
      have hfits' : ∀ kind, Fits encodedLen
          ((Eel.publishKind encodedLen modes w first).loaders.events (modes kind) kind).1 := by
        intro kind
        by_cases hkind : first = kind
        · -- nothing is sent twice
          subst hkind
          have hidle := w.loaders.events_idle (modes first) first
          change Fits encodedLen ((w.loaders.events (modes first) first).2.events (modes first) first).1
          rw [Loaders.events_of_idle hidle]
          exact fun message hmem => absurd hmem List.not_mem_nil
        · exact (w.loaders.events_other (modes first) (modes kind) hkind).1 ▸ hfits kind
      obtain ⟨hinv, hidle⟩ := ih (h.publishKind (hfits first)) hfits'
      refine ⟨hinv, fun kind hkind => hidle kind ?_⟩
      by_cases hfirst : first = kind
      · subst hfirst
        exact .inr (w.loaders.events_idle (modes first) first)
      · exact hkind.imp (List.mem_of_ne_of_mem (Ne.symm hfirst))
          (w.loaders.events_other (modes first) (modes kind) hfirst).2.mpr

/-! ## The tables after a publication -/

/-- The tables of a receiver are those of the values that were loaded last. -/
structure Shows (rs : List Change) (r : UInt16) (receiver : Receiver) : Prop where
  locations : ∀ n : UInt16, receiver.phy.locations[n]? = expectedLocation rs n
  pathlosses : ∀ source f, receiver.pathlossDb source f = expectedPathlossDb rs r source f

/-- Two receivers have the same tables. -/
structure Receiver.SameTables (r r' : Receiver) : Prop where
  locations : ∀ n : UInt16, r.phy.locations[n]? = r'.phy.locations[n]?
  pathlosses : ∀ source f, r.pathlossDb source f = r'.pathlossDb source f

/-- What the location table has if all was published. -/
def publishedLocation (rs : List Change) (n : UInt16) : Option Location :=
  (LocationEntry.ofLatest (latest Change.position? rs n) (latest Change.orientation? rs n)
    (latest Change.velocity? rs n)).map LocationEntry.location

/-- A NEM is published as it should be exactly if it got a position or nothing. -/
theorem forall_publishedLocation_eq_iff (rs : List Change) :
    (∀ n, publishedLocation rs n = expectedLocation rs n) ↔ Placed rs := by
  refine forall_congr' fun n => ?_
  rw [publishedLocation, expectedLocation, LocationEntry.ofLatest_map_location, latest_isSome_iff,
    latest_isSome_iff, latest_isSome_iff, ← exists_or]
  simp only [← and_or_left]

/-- **The tables when nothing is new.** -/
theorem Inv.tables (h : Inv rs w) (hidle : ∀ kind, w.loaders.Idle kind) (r : UInt16) :
    (∀ n : UInt16, (w.receivers r).phy.locations[n]? = publishedLocation rs n) ∧
      ∀ source f, (w.receivers r).pathlossDb source f = expectedPathlossDb rs r source f := by
  obtain ⟨seen, hlocation⟩ := h.location
  obtain ⟨seen', hpathloss⟩ := h.pathloss
  obtain ⟨seen'', hpathlossEx⟩ := h.pathlossEx
  constructor
  · intro n
    have hdelta : stored w.loaders.location.deltaCache = fun _ => none :=
      funext fun n => (hidle .location : w.loaders.location.deltaCache = ∅) ▸ ExtTreeMap.getElem?_empty
    rw [hlocation.table, ← hlocation.tracks.eq_seen hdelta, hlocation.entry, publishedLocation]
  · intro source f
    by_cases hf : f = 0
    · subst hf
      have hdelta := (congrArg storedAt (hidle .pathloss)).trans storedAt_empty
      calc (w.receivers r).pathlossDb source 0
          = (storedAt w.loaders.pathloss.cache (r, source)).map fun entry => entry.forward.toF64 :=
            hpathloss.follows.current hdelta (r, source)
        _ = expectedPathlossDb rs r source 0 := by
            rw [expectedPathlossDb, hpathloss.entry (r, source), Option.map_map]
            rfl
    · have hdelta := (congrArg storedEx (hidle .pathlossEx)).trans storedEx_empty
      have hcurrent := hpathlossEx.follows.current hdelta (r, source, f)
      rw [if_neg hf] at hcurrent
      rw [hcurrent, expectedPathlossDb, hpathlossEx.entry (r, source, f) hf]

/-- **After a run** the loaders are in step with the receivers, and they have nothing new if the last step
is a publication. -/
theorem inv_of_run {receivers : UInt16 → Receiver} (hempty : ∀ r, (receivers r).Empty) {ops : List Op}
    (hmeets : RunMeets (step c encodedLen modes) (Allowed c encodedLen modes) ⟨.new, receivers⟩ ops)
    (hrun : runSteps (step c encodedLen modes) ⟨.new, receivers⟩ ops = some w) :
    Inv (ops.flatMap (Op.changes c)) w ∧
      ∀ order, ops.getLast? = some (.publish order) → ∀ kind, w.loaders.Idle kind := by
  have hinv := completed_run_invariant (fun _ => True)
    (I := fun past w => Inv (past.reverse.flatMap (Op.changes c)) w ∧
      ∀ order, past.head? = some (.publish order) → ∀ kind, w.loaders.Idle kind)
    (fun _ _ _ => trivial) ?_ ops [] ⟨.new, receivers⟩ w trivial ⟨Inv.new hempty, by simp⟩ hmeets hrun
  · rwa [List.append_nil, List.reverse_reverse, List.head?_reverse] at hinv
  rintro past op w w' - ⟨hinv, -⟩ hallowed hstep
  rw [List.reverse_cons, List.flatMap_append, List.flatMap_singleton]
  cases op with
  | load kind moduleType moduleId eventType args =>
      obtain ⟨loaders, hload, rfl⟩ := Option.map_eq_some_iff.mp hstep
      rw [Loaders.load_eq hload]
      exact ⟨hinv.foldl_enter hallowed, fun order horder => by cases horder⟩
  | publish order =>
      obtain rfl := Option.some.inj hstep
      obtain ⟨hpublished, hidle⟩ := hinv.publish fun kind => (hallowed kind).2
      rw [Op.changes, List.append_nil]
      exact ⟨hpublished, fun _ _ kind => hidle kind (hallowed kind).1⟩

/-- **After each publication** the tables are the same in all modes, and they are those of the values that
were loaded last exactly if each NEM that got an orientation or a velocity got a position. -/
theorem publications_agree_iff {modes' : LoaderKind → Mode} {receivers : UInt16 → Receiver}
    (hempty : ∀ r, (receivers r).Empty) {ops : List Op} {order : List LoaderKind} {w' : World}
    (hmeets : RunMeets (step c encodedLen modes) (Allowed c encodedLen modes) ⟨.new, receivers⟩
      (ops ++ [.publish order]))
    (hrun : runSteps (step c encodedLen modes) ⟨.new, receivers⟩ (ops ++ [.publish order]) = some w)
    (hmeets' : RunMeets (step c encodedLen modes') (Allowed c encodedLen modes') ⟨.new, receivers⟩
      (ops ++ [.publish order]))
    (hrun' : runSteps (step c encodedLen modes') ⟨.new, receivers⟩ (ops ++ [.publish order]) = some w') :
    (∀ r, (w.receivers r).SameTables (w'.receivers r) ∧
        Shows (ops.flatMap (Op.changes c)) r (w.receivers r)) ↔
      Placed (ops.flatMap (Op.changes c)) := by
  have hchanges : (ops ++ [Op.publish order]).flatMap (Op.changes c) = ops.flatMap (Op.changes c) := by
    rw [List.flatMap_append, List.flatMap_singleton, Op.changes, List.append_nil]
  obtain ⟨hinv, hidle⟩ := inv_of_run hempty hmeets hrun
  obtain ⟨hinv', hidle'⟩ := inv_of_run hempty hmeets' hrun'
  rw [hchanges] at hinv hinv'
  have htables := hinv.tables (hidle order List.getLast?_concat)
  have htables' := hinv'.tables (hidle' order List.getLast?_concat)
  rw [← forall_publishedLocation_eq_iff]
  constructor
  · intro h n
    rw [← (htables 0).1 n]
    exact (h 0).2.locations n
  · intro h r
    refine ⟨⟨fun n => ?_, fun source f => ?_⟩, ⟨fun n => ?_, (htables r).2⟩⟩
    · rw [(htables r).1 n, (htables' r).1 n]
    · rw [(htables r).2 source f, (htables' r).2 source f]
    · rw [(htables r).1 n, h n]

/-- The numbers of the records here. -/
def sampleConversions : Conversions where
  f64 text :=
    if text = "0" then .ok ⟨0⟩
    else if text = "45" then .ok ⟨0x4046800000000000⟩
    else .error "invalid float literal"
  f32 text :=
    if text = "90" then .ok ⟨0x42b40000⟩
    else if text = "80" then .ok ⟨0x42a00000⟩
    else .error "invalid float literal"
  intError _ := "invalid digit found in string"

/-- The number of bytes of events with small numbers. -/
def sampleLen : Event → ℕ
  | .location locations => (locations.map fun location =>
      33 + (if location.velocity.isSome then 29 else 0) + (if location.orientation.isSome then 29 else 0)).sum
  | .pathloss pathlosses => 14 * pathlosses.length
  | .pathlossEx pathlosses => (pathlosses.map fun item => 4 + 9 * item.entries.length).sum

def emptyReceivers : UInt16 → Receiver := fun _ => ⟨.new, ∅⟩

/-- Two groups of records, with a publication between them. -/
def sampleOps : List Op :=
  [.load .location "nem" 1 "location" ["gps", "45,45,0,msl"],
    .load .pathloss "nem" 1 "pathloss" ["nem:2,90,80"],
    .publish [.location, .pathloss, .pathlossEx],
    .load .location "nem" 1 "orientation" ["0,45,0,degrees"],
    .load .pathlossEx "nem" 1 "pathlossex" ["nem:2,100:80", "nem:3,100:90:80"],
    .load .pathloss "nem" 2 "pathloss" ["nem:1,90"]]

/-- Only NEM 1 gets an orientation, and it has a position. -/
theorem placed_sample : Placed (sampleOps.flatMap (Op.changes sampleConversions)) := by
  have hchanges : sampleOps.flatMap (Op.changes sampleConversions) =
      [.place 1 (.position ⟨⟨0x4046800000000000⟩, ⟨0x4046800000000000⟩, ⟨0⟩⟩),
        .pathloss 2 1 ⟨0x42b40000⟩ ⟨0x42a00000⟩,
        .place 1 (.orientation ⟨⟨0x4046800000000000⟩, ⟨0⟩, ⟨0⟩⟩),
        .pathlossEx 2 1 100 ⟨0x42a00000⟩ ⟨0x42a00000⟩,
        .pathlossEx 3 1 100 ⟨0x42b40000⟩ ⟨0x42a00000⟩,
        .pathloss 1 2 ⟨0x42b40000⟩ ⟨0x42b40000⟩] := by
    decide +kernel
  rw [hchanges]
  intro n h
  by_cases hn : 1 = n
  · exact ⟨_, List.mem_cons_self, by simp [Change.position?, Change.reading?, Reading.position?, hn]⟩
  · simp [Change.orientation?, Change.velocity?, Change.reading?, hn] at h

theorem publications_agree_iff_sample :
    ∃ w w', runSteps (step sampleConversions sampleLen fun _ => .delta) ⟨.new, emptyReceivers⟩
        (sampleOps ++ [.publish [.location, .pathloss, .pathlossEx]]) = some w ∧
      runSteps (step sampleConversions sampleLen fun _ => .full) ⟨.new, emptyReceivers⟩
        (sampleOps ++ [.publish [.location, .pathloss, .pathlossEx]]) = some w' ∧
      ∀ r, (w.receivers r).SameTables (w'.receivers r) ∧
        Shows (sampleOps.flatMap (Op.changes sampleConversions)) r (w.receivers r) := by
  obtain ⟨w, hrun⟩ := Option.isSome_iff_exists.mp (show (runSteps (step sampleConversions sampleLen
    fun _ => .delta) ⟨.new, emptyReceivers⟩
    (sampleOps ++ [.publish [.location, .pathloss, .pathlossEx]])).isSome = true by decide +kernel)
  obtain ⟨w', hrun'⟩ := Option.isSome_iff_exists.mp (show (runSteps (step sampleConversions sampleLen
    fun _ => .full) ⟨.new, emptyReceivers⟩
    (sampleOps ++ [.publish [.location, .pathloss, .pathlossEx]])).isSome = true by decide +kernel)
  exact ⟨w, w', hrun, hrun', (publications_agree_iff (fun _ => ⟨rfl, rfl⟩) (by decide +kernel) hrun
    (by decide +kernel) hrun').mpr placed_sample⟩

/-- **A NEM without a position**: its orientation alone puts it into the location tables, at the position
zero, although all the conditions on the steps are met. -/
theorem orientation_alone_published :
    let ops : List Op := [.load .location "nem" 1 "orientation" ["0,45,0,degrees"],
      .publish [.location, .pathloss, .pathlossEx]]
    RunMeets (step sampleConversions sampleLen fun _ => .delta)
        (Allowed sampleConversions sampleLen fun _ => .delta) ⟨.new, emptyReceivers⟩ ops ∧
      (∀ change ∈ ops.flatMap (Op.changes sampleConversions), (change.position? 1).isNone) ∧
      (runSteps (step sampleConversions sampleLen fun _ => .delta) ⟨.new, emptyReceivers⟩ ops).map
          (fun w => (w.receivers 2).phy.locations[(1 : UInt16)]?) =
        some (some ⟨⟨0⟩, ⟨0⟩, ⟨0⟩, none, ⟨⟨0x4046800000000000⟩, ⟨0⟩, ⟨0⟩⟩⟩) := by
  decide +kernel

end Emane.Eel
