import Mathlib
import Emane.Eel.Generator
import Emane.Eel.Selected

set_option autoImplicit false

/-! # The loaders side by side, with the NEMs

`Desk` has one loader of each kind. A list of loaders of different kinds stands for a desk; kinds that are
not in the list are there with empty caches. Entering a statement and publishing keep the loaders of a desk in
step with the NEMs (`DeskInv`).
-/

namespace Emane.Eel

open Emane.Lib
open Emane.CommEffect (CommEffectMessage Profile Profiles)
open Emane.Phy (AntennaProfileSelection FadingMode ProfileEntry PhyState)
open Emane.PluginApi (F32 F64)
open Std (ExtTreeMap ExtTreeSet)

/-! ## Desks -/

structure Desk where
  loaders : Loaders
  antenna : AntennaProfileLoader
  fading : FadingSelectionLoader
  commEffect : CommEffectLoader

namespace Desk

def new : Desk := ⟨.new, .new, .new, .new⟩

def get (d : Desk) : Library → NativeLoader
  | .antennaProfile => .antenna d.antenna
  | .commEffect => .commEffect d.commEffect
  | .fadingSelection => .fading d.fading
  | .location => .location d.loaders.location
  | .pathloss => .pathloss d.loaders.pathloss
  | .pathlossEx => .pathlossEx d.loaders.pathlossEx

def put (d : Desk) : NativeLoader → Desk
  | .antenna l => { d with antenna := l }
  | .commEffect l => { d with commEffect := l }
  | .fading l => { d with fading := l }
  | .location l => { d with loaders := { d.loaders with location := l } }
  | .pathloss l => { d with loaders := { d.loaders with pathloss := l } }
  | .pathlossEx l => { d with loaders := { d.loaders with pathlossEx := l } }

/-- The loader that the statement is for takes it. -/
def enter (d : Desk) : Statement → Desk
  | .change change => { d with loaders := d.loaders.enter change }
  | .profile nem entry => { d with antenna := d.antenna.enter (.profile nem entry) }
  | .fading target tx model => { d with fading := d.fading.insert target tx model }
  | .commEffect dst src effect => { d with commEffect := d.commEffect.insert dst src effect }

theorem get_put (d : Desk) (l : NativeLoader) : (d.put l).get l.kind = l := by
  cases l <;> rfl

theorem get_put_of_ne (d : Desk) {l : NativeLoader} {kind : Library} (h : l.kind ≠ kind) :
    (d.put l).get kind = d.get kind := by
  cases l <;> cases kind <;> first | exact absurd rfl h | rfl

theorem put_put (d : Desk) {l l' : NativeLoader} (h : l.kind = l'.kind) : (d.put l).put l' = d.put l' := by
  cases l <;> cases l' <;> first | rfl | cases h

theorem put_comm (d : Desk) {l l' : NativeLoader} (h : l.kind ≠ l'.kind) :
    (d.put l).put l' = (d.put l').put l := by
  cases l <;> cases l' <;> first | exact absurd rfl h | rfl

/-- The desk of a list of loaders. -/
def of (entries : List LoaderEntry) : Desk := entries.foldl (fun d e => d.put e.loader) new

theorem foldl_put_comm {entries : List LoaderEntry} {l : NativeLoader}
    (h : ∀ e ∈ entries, l.kind ≠ e.loader.kind) (d : Desk) :
    entries.foldl (fun d e => d.put e.loader) (d.put l) =
      (entries.foldl (fun d e => d.put e.loader) d).put l := by
  induction entries generalizing d with
  | nil => rfl
  | cons e entries ih =>
      rw [List.foldl_cons, List.foldl_cons, put_comm d (h e List.mem_cons_self)]
      exact ih (fun e' he' => h e' (List.mem_cons_of_mem e he')) (d.put e.loader)

/-- **A loader of the list** is the one of its kind on the desk, also when it is exchanged for another. -/
theorem of_set {entries : List LoaderEntry} (hkinds : (entries.map fun e => e.loader.kind).Nodup) {i : ℕ}
    {e : LoaderEntry} (he : entries[i]? = some e) :
    (of entries).get e.loader.kind = e.loader ∧ ∀ l, l.kind = e.loader.kind →
      of (entries.set i { e with loader := l }) = (of entries).put l := by
  obtain ⟨hi, hget⟩ := List.getElem?_eq_some_iff.mp he
  have hsplit : entries = entries.take i ++ e :: entries.drop (i + 1) := by
    rw [← hget, ← List.drop_eq_getElem_cons hi, List.take_append_drop]
  have hafter : ∀ l : NativeLoader, l.kind = e.loader.kind →
      ∀ e' ∈ entries.drop (i + 1), l.kind ≠ e'.loader.kind := by
    intro l hl e' he' heq
    rw [hsplit, List.map_append, List.nodup_append, List.map_cons, List.nodup_cons] at hkinds
    exact hkinds.2.1.1 (List.mem_map.mpr ⟨e', he', heq.symm.trans hl⟩)
  -- the loader comes last, as the ones behind it are of other kinds
  have hlast : ∀ l : NativeLoader, l.kind = e.loader.kind → ∀ d : Desk,
      (entries.drop (i + 1)).foldl (fun d e => d.put e.loader) (d.put l) =
        ((entries.drop (i + 1)).foldl (fun d e => d.put e.loader) d).put l :=
    fun l hl d => foldl_put_comm (hafter l hl) d
  have hof : of entries = ((entries.drop (i + 1)).foldl (fun d e => d.put e.loader)
      ((entries.take i).foldl (fun d e => d.put e.loader) new)).put e.loader := by
    conv_lhs => rw [of, hsplit, List.foldl_append, List.foldl_cons]
    exact hlast e.loader rfl _
  refine ⟨hof ▸ get_put _ _, fun l hl => ?_⟩
  rw [hof, put_put _ hl.symm, of, List.set_eq_take_append_cons_drop, if_pos hi, List.foldl_append,
    List.foldl_cons]
  exact hlast l hl _

end Desk

/-- A loader has nothing new. -/
def NativeLoader.Idle : NativeLoader → Prop
  | antenna l => l.deltaCache = ∅
  | commEffect l => l.deltaCache = ∅
  | fading l => l.deltaCache = ∅
  | location l => l.deltaCache = ∅
  | pathloss l => l.deltaCache = ∅
  | pathlossEx l => l.deltaCache = ∅

theorem Desk.idle_of {entries : List LoaderEntry} (h : ∀ e ∈ entries, e.loader.Idle) (kind : Library) :
    ((of entries).get kind).Idle := by
  unfold of
  induction entries using List.reverseRecOn with
  | nil => cases kind <;> rfl
  | append_singleton entries e ih =>
      rw [List.foldl_append, List.foldl_cons, List.foldl_nil]
      by_cases hkind : e.loader.kind = kind
      · rw [← hkind, Desk.get_put]
        exact h e (by simp)
      · rw [Desk.get_put_of_ne _ hkind]
        exact ih fun e' he' => h e' (List.mem_append_left _ he')

theorem NativeLoader.publications_kind (l : NativeLoader) (mode : Mode) :
    (l.publications mode).2.kind = l.kind ∧ (l.publications mode).2.Idle := by
  cases l with
  | antenna l => exact ⟨rfl, rfl⟩
  | commEffect l => exact ⟨rfl, rfl⟩
  | fading l => exact ⟨rfl, rfl⟩
  | location l => exact ⟨rfl, l.events_idle mode⟩
  | pathloss l => exact ⟨rfl, l.events_idle mode⟩
  | pathlossEx l => exact ⟨rfl, l.events_idle mode⟩

/-! ## What a record states -/

section

variable (c : Conversions)

/-- The arguments of a record, each with what it states. -/
def argStatements (moduleType : String) (read : String → Except String Statement) (args : List String) :
    List Statement :=
  if moduleType ≠ "nem" then [] else args.flatMap fun arg => (read arg).toOption.toList

/-- What a record states, if its loader accepts it. -/
def recordStatements (kind : Library) (moduleType : String) (moduleId : UInt16) (eventType : String)
    (args : List String) : List Statement :=
  match kind with
  | .antennaProfile =>
      if moduleType ≠ "nem" then []
      else (readProfile c moduleId args).toOption.toList.map (.profile moduleId)
  | .commEffect => argStatements moduleType (readCommEffect c moduleId) args
  | .fadingSelection => argStatements moduleType (readFading c moduleId) args
  | .location => (recordChanges c .location moduleType moduleId eventType args).map .change
  | .pathloss => (recordChanges c .pathloss moduleType moduleId eventType args).map .change
  | .pathlossEx => (recordChanges c .pathlossEx moduleType moduleId eventType args).map .change

end

variable {c : Conversions} {moduleType eventType : String} {moduleId : UInt16} {args : List String}

theorem parseInt_lt {bits n : ℕ} {text : String} (h : parseInt c bits text = .ok n) : n < 2 ^ bits := by
  unfold parseInt at h
  cases hparse : parseUnsigned bits text.toList with
  | none =>
      rw [hparse] at h
      cases h
  | some m =>
      rw [hparse] at h
      cases h
      unfold parseUnsigned at hparse
      have hfilter := (Option.filter_eq_some_iff.mp hparse).2
      simpa using hfilter

theorem readProfile_formed {entry : ProfileEntry} (h : readProfile c moduleId args = .ok entry) :
    (Statement.profile moduleId entry).Formed := by
  unfold readProfile at h
  split at h
  · split at h
    · simp only [bind_eq_ok_iff, mapError_eq_ok_iff] at h
      obtain ⟨profileId, hprofile, azimuth, -, elevation, -, h⟩ := h
      rw [← Except.ok.inj h]
      exact ⟨rfl, parseInt_lt hprofile⟩
    · cases h
  · cases h

theorem fadingModel_isSome {name : String} {model : ℤ} (h : fadingModel name = .ok model) :
    (fadingMode model).isSome = true := by
  unfold fadingModel at h
  split_ifs at h <;> (obtain rfl := Except.ok.inj h; rfl)

theorem readFading_spec {target : UInt16} {arg : String} {s : Statement} (h : readFading c target arg = .ok s) :
    ∃ tx model, s = .fading target tx model ∧ s.Formed := by
  unfold readFading at h
  split at h
  · obtain ⟨tx, -, h⟩ := exists_of_bind_eq_ok h
    obtain ⟨model, hmodel, h⟩ := exists_of_bind_eq_ok h
    rw [← Except.ok.inj h]
    exact ⟨_, _, rfl, fadingModel_isSome hmodel⟩
  · cases h

theorem readCommEffect_spec {src : UInt16} {arg : String} {s : Statement}
    (h : readCommEffect c src arg = .ok s) : ∃ dst effect, s = .commEffect dst src effect ∧ s.Formed := by
  unfold readCommEffect at h
  split at h
  · simp only [bind_eq_ok_iff] at h
    obtain ⟨dst, -, latency, -, jitter, -, loss, -, duplicates, -, unicast, -, broadcast, -, h⟩ := h
    rw [← Except.ok.inj h]
    exact ⟨_, _, rfl, rfl⟩
  · cases h

/-- What a record states is formed as the loaders do it. -/
theorem recordStatements_formed {kind : Library} {s : Statement}
    (h : s ∈ recordStatements c kind moduleType moduleId eventType args) : s.Formed := by
  have hchange : ∀ changes : List Change, s ∈ changes.map Statement.change → s.Formed := by
    intro changes hs
    obtain ⟨change, -, rfl⟩ := List.mem_map.mp hs
    exact trivial
  have harg : ∀ {read : String → Except String Statement}, (∀ arg, read arg = .ok s → s.Formed) →
      s ∈ argStatements moduleType read args → s.Formed := by
    intro read hread hs
    unfold argStatements at hs
    split_ifs at hs
    · exact absurd hs List.not_mem_nil
    · obtain ⟨arg, -, hs⟩ := List.mem_flatMap.mp hs
      exact hread arg (toOption_eq_some_iff.mp (Option.mem_toList.mp hs))
  cases kind with
  | antennaProfile =>
      simp only [recordStatements] at h
      split_ifs at h
      · exact absurd h List.not_mem_nil
      · obtain ⟨entry, hentry, rfl⟩ := List.mem_map.mp h
        exact readProfile_formed (toOption_eq_some_iff.mp (Option.mem_toList.mp hentry))
  | commEffect =>
      refine harg (fun arg hs => ?_) h
      obtain ⟨-, -, -, hformed⟩ := readCommEffect_spec hs
      exact hformed
  | fadingSelection =>
      refine harg (fun arg hs => ?_) h
      obtain ⟨-, -, -, hformed⟩ := readFading_spec hs
      exact hformed
  | location => exact hchange _ h
  | pathloss => exact hchange _ h
  | pathlossEx => exact hchange _ h

/-- The loop over arguments that state what the loader enters. -/
theorem loadArgs_eq {β : Type} {enter : PairLoader β → Statement → PairLoader β}
    {read : String → Except String Statement} {loader loader' : PairLoader β}
    (h : loader.loadArgs enter read args = .ok loader') :
    loader' = (args.flatMap fun arg => (read arg).toOption.toList).foldl enter loader := by
  refine foldlM_ok_eq_foldl_flatMap ?_ h
  intro x arg y hstep
  obtain ⟨s, hread, hentered⟩ := exists_of_bind_eq_ok hstep
  rw [mapError_eq_ok_iff] at hread
  rw [hread, ← Except.ok.inj hentered]
  rfl

theorem exists_of_map_eq_ok {ε ε' α β : Type} {x : Except ε α} {f : ε → ε'} {g : α → β} {b : β}
    (h : (x.mapError f).map g = .ok b) : ∃ a, x = .ok a ∧ g a = b := by
  cases x with
  | error e => cases h
  | ok a => exact ⟨a, rfl, Except.ok.inj h⟩

/-- Statements that one loader of the desk takes. -/
theorem Desk.foldl_enter {α : Type} (put : α → Desk) (enterOne : α → Statement → α)
    {statements : List Statement} (h : ∀ x, ∀ s ∈ statements, (put x).enter s = put (enterOne x s)) (x : α) :
    statements.foldl enter (put x) = put (statements.foldl enterOne x) := by
  refine List.foldl_rel (r := fun d x => d = put x) rfl ?_
  rintro s hs d x rfl
  exact h x s hs

/-- Changes of locations and pathlosses. -/
theorem Desk.foldl_enter_changes (d : Desk) (changes : List Change) :
    (changes.map Statement.change).foldl enter d =
      { d with loaders := changes.foldl Loaders.enter d.loaders } := by
  induction changes generalizing d with
  | nil => rfl
  | cons change changes ih =>
      rw [List.map_cons, List.foldl_cons, ih]
      rfl

/-- **A record that is accepted** enters what it states. -/
theorem NativeLoader.load_eq {l l' : NativeLoader} (h : l.load c moduleType moduleId eventType args = .ok l')
    {d : Desk} (hd : d.get l.kind = l) : l'.kind = l.kind ∧
      d.put l' = (recordStatements c l.kind moduleType moduleId eventType args).foldl Desk.enter d := by
  cases l with
  | antenna l =>
      obtain ⟨loader, hload, rfl⟩ := exists_of_map_eq_ok h
      obtain rfl : d.antenna = l := NativeLoader.antenna.inj hd
      refine ⟨rfl, ?_⟩
      unfold AntennaProfileLoader.load at hload
      simp only [kind, recordStatements]
      split_ifs at hload ⊢ with hmodule
      · rw [← Except.ok.inj hload]
        rfl
      · obtain ⟨entry, hread, hentered⟩ := exists_of_bind_eq_ok hload
        rw [mapError_eq_ok_iff] at hread
        rw [hread, ← Except.ok.inj hentered]
        rfl
  | commEffect l =>
      obtain ⟨loader, hload, rfl⟩ := exists_of_map_eq_ok h
      obtain rfl : d.commEffect = l := NativeLoader.commEffect.inj hd
      refine ⟨rfl, ?_⟩
      unfold CommEffectLoader.load at hload
      simp only [kind, recordStatements, argStatements]
      split_ifs at hload ⊢ with hmodule
      · rw [← Except.ok.inj hload]
        rfl
      · rw [loadArgs_eq hload]
        refine (Desk.foldl_enter (fun l => d.put (.commEffect l)) CommEffectLoader.enter ?_
          d.commEffect).symm
        intro x s hs
        obtain ⟨arg, -, hs⟩ := List.mem_flatMap.mp hs
        obtain ⟨dst, effect, rfl, -⟩ :=
          readCommEffect_spec (toOption_eq_some_iff.mp (Option.mem_toList.mp hs))
        rfl
  | fading l =>
      obtain ⟨loader, hload, rfl⟩ := exists_of_map_eq_ok h
      obtain rfl : d.fading = l := NativeLoader.fading.inj hd
      refine ⟨rfl, ?_⟩
      unfold FadingSelectionLoader.load at hload
      simp only [kind, recordStatements, argStatements]
      split_ifs at hload ⊢ with hmodule
      · rw [← Except.ok.inj hload]
        rfl
      · rw [loadArgs_eq hload]
        refine (Desk.foldl_enter (fun l => d.put (.fading l)) FadingSelectionLoader.enter ?_
          d.fading).symm
        intro x s hs
        obtain ⟨arg, -, hs⟩ := List.mem_flatMap.mp hs
        obtain ⟨tx, model, rfl, -⟩ := readFading_spec (toOption_eq_some_iff.mp (Option.mem_toList.mp hs))
        rfl
  | location l =>
      obtain rfl : d.loaders.location = l := NativeLoader.location.inj hd
      simp only [load] at h
      cases hload : d.loaders.location.load c moduleType moduleId eventType args with
      | error e =>
          rw [hload] at h
          cases h
      | ok loader =>
          rw [hload] at h
          obtain rfl := Except.ok.inj h
          refine ⟨rfl, ?_⟩
          have hloaders : d.loaders.load c .location moduleType moduleId eventType args =
              some { d.loaders with location := loader } := by
            simp only [Loaders.load, hload]
            rfl
          simp only [kind, recordStatements]
          rw [Desk.foldl_enter_changes, ← Loaders.load_eq hloaders]
          rfl
  | pathloss l =>
      obtain ⟨loader, hload, rfl⟩ := exists_of_map_eq_ok h
      obtain rfl : d.loaders.pathloss = l := NativeLoader.pathloss.inj hd
      refine ⟨rfl, ?_⟩
      have hloaders : d.loaders.load c .pathloss moduleType moduleId eventType args =
          some { d.loaders with pathloss := loader } := by
        simp only [Loaders.load, hload]
        rfl
      simp only [kind, recordStatements]
      rw [Desk.foldl_enter_changes, ← Loaders.load_eq hloaders]
      rfl
  | pathlossEx l =>
      obtain ⟨loader, hload, rfl⟩ := exists_of_map_eq_ok h
      obtain rfl : d.loaders.pathlossEx = l := NativeLoader.pathlossEx.inj hd
      refine ⟨rfl, ?_⟩
      have hloaders : d.loaders.load c .pathlossEx moduleType moduleId eventType args =
          some { d.loaders with pathlossEx := loader } := by
        simp only [Loaders.load, hload]
        rfl
      simp only [kind, recordStatements]
      rw [Desk.foldl_enter_changes, ← Loaders.load_eq hloaders]
      rfl

end Emane.Eel
