import Mathlib
import Emane.Statistics.Service

set_option autoImplicit false

/-! # Counters

What a counter shows is the sum of what was added through its handle, whatever the other components and
the clients of the control port do in between: `counter_counts`. The proof is about the values under their
names, where the other requests go by; `serve_matches` brings it to the service.
-/

namespace Emane.Statistics

open Emane.Lib Emane.Lib.Handles
open Emane.PluginApi (F64)

/-! ## One name -/

/-- The entry under a name. -/
def entryOf (s : NativeShelf) (owner : Owner) (name : String) :
    Option (String × Item NativeMap StatisticInfo Value) :=
  (s.store owner).find? (·.1 = name)

/-- Values are changed, names stay. -/
theorem find?_map_names {α : Type*} (f : String × α → String × α) (hf : ∀ entry, (f entry).1 = entry.1)
    (name : String) (entries : List (String × α)) :
    (entries.map f).find? (·.1 = name) = (entries.find? (·.1 = name)).map f := by
  rw [List.find?_map]
  congr 2
  funext entry
  rw [Function.comp_apply, hf]

theorem fst_ite (p : Prop) [Decidable p] (f : Value → Value)
    (entry : String × Item NativeMap StatisticInfo Value) :
    (if p then (entry.1, entry.2.mapValue f) else entry).1 = entry.1 := by
  split <;> rfl

theorem entryOf_change (s : NativeShelf) (map : NativeMap) (handle : ℕ) (f : Value → Value) (owner : Owner)
    (name : String) : entryOf (s.change map handle f) owner name =
      (entryOf s owner name).map fun entry =>
        if entry.2.kind = map ∧ entry.2.handle = handle then (entry.1, entry.2.mapValue f) else entry :=
  find?_map_names _ (fun entry => fst_ite _ f entry) name (s.store owner)

theorem entryOf_touch_of_ne (s : NativeShelf) {owner owner' : Owner} (hne : owner' ≠ owner) (name : String)
    (f : Value → Value) (name' : String) :
    entryOf (s.touch owner name f) owner' name' = entryOf s owner' name' := by
  unfold entryOf Shelf.touch
  simp [hne]

theorem entryOf_drop_of_ne (s : NativeShelf) {owner owner' : Owner} (hne : owner' ≠ owner) (name : String) :
    entryOf (s.drop owner) owner' name = entryOf s owner' name := by
  unfold entryOf Shelf.drop
  simp [Function.update_of_ne hne]

/-- A new entry does not cover an old one. -/
theorem entryOf_add (s : NativeShelf) (owner : Owner) (name : String) (map : NativeMap) (handle : ℕ)
    (info : StatisticInfo) (value : Value) {owner' : Owner} {name' : String}
    {entry : String × Item NativeMap StatisticInfo Value} (h : entryOf s owner' name' = some entry) :
    entryOf (s.add owner name map handle info value) owner' name' = some entry := by
  unfold entryOf Shelf.add at *
  dsimp only
  rw [Function.update_apply]
  split
  · next heq =>
      subst heq
      rw [List.find?_append, h]
      rfl
  · exact h

/-! ## What a counter shows -/

/-- What a request makes of the counter with a handle. -/
def counterEffect (handle : ℕ) (bits : UInt64) : Request → UInt64
  | .incrementCounter other amount => if other = handle then bits + amount else bits
  | .maximizeCounter other value => if other = handle then max bits value else bits
  | .setDouble other value => if other = handle ∧ value.isFinite then value.bits else bits
  | _ => bits

/-- The request clears statistics of the component, or removes them. -/
def Request.resets (buildId : UInt16) : Request → Bool
  | .clear other _ => other = buildId
  | .unregister other => other = buildId
  | _ => false

/-- The counter has this value. -/
def Counts (s : NativeShelf) (buildId : UInt16) (name : String) (handle : ℕ) (clearable : Bool)
    (bits : UInt64) : Prop :=
  entryOf s (.stats buildId) name = some (name, ⟨.counters, handle, ⟨.nativeU64, clearable⟩, .word bits⟩)

section

variable {s : ServiceState NativeShelf} {buildId : UInt16} {name : String} {handle : ℕ} {clearable : Bool}
  {bits : UInt64}

/-- The handle of a counter is known. -/
theorem Counts.held (h : Counts s.1 buildId name handle clearable bits) :
    (plainBackend.held s.1 .counters handle).isSome := by
  have hmem := List.mem_of_find?_eq_some h
  show (Shelf.held s.1 .counters handle).isSome
  unfold Shelf.held
  split
  · rfl
  · next hnone => exact absurd ⟨.word bits, .stats buildId, _, hmem, rfl, rfl, rfl⟩ hnone

theorem Counts.change_other (h : Counts s.1 buildId name handle clearable bits) {map : NativeMap} {other : ℕ}
    (hne : ¬(NativeMap.counters = map ∧ handle = other)) (f : Value → Value) :
    Counts (s.1.change map other f) buildId name handle clearable bits := by
  rw [Counts, entryOf_change, h, Option.map_some, if_neg hne]

/-- A change of a value, at the counter or elsewhere. -/
theorem Counts.change (h : Counts s.1 buildId name handle clearable bits) (other : ℕ) (f : UInt64 → UInt64) :
    Counts (change plainBackend s .counters other (Value.mapWord f)).1.1 buildId name handle clearable
      (if other = handle then f bits else bits) := by
  unfold Statistics.change
  split
  · next hnone =>
      rw [if_neg]
      · exact h
      · rintro rfl
        have := h.held
        rw [hnone] at this
        cases this
  · by_cases heq : other = handle
    · subst heq
      rw [if_pos rfl, Counts]
      show entryOf (s.1.change _ _ _) _ _ = _
      rw [entryOf_change, h, Option.map_some, if_pos ⟨rfl, rfl⟩]
      rfl
    · rw [if_neg heq]
      exact h.change_other (fun hsame => heq hsame.2.symm) _

theorem Counts.change_map (h : Counts s.1 buildId name handle clearable bits) {map : NativeMap}
    (hmap : NativeMap.counters ≠ map) (other : ℕ) (f : Value → Value) :
    Counts (Statistics.change plainBackend s map other f).1.1 buildId name handle clearable bits := by
  unfold Statistics.change
  split
  · exact h
  · exact h.change_other (fun hsame => hmap hsame.1) f

theorem Counts.register (h : Counts s.1 buildId name handle clearable bits) (isAlphanumeric : Char → Bool)
    (owner : Owner) (other : String) (map : NativeMap) (info : StatisticInfo) (value : Value) :
    Counts (register isAlphanumeric plainBackend s owner other map info value).1.1 buildId name handle
      clearable bits := by
  unfold Statistics.register
  split
  · exact h
  split
  · exact h
  · exact entryOf_add s.1 owner other map _ info value h

theorem Counts.clearEach (floats : Floats) {owner : Owner} (hne : Owner.stats buildId ≠ owner)
    (names : List String) {s : NativeShelf} (h : Counts s buildId name handle clearable bits) :
    Counts (clearEach floats plainBackend s owner names) buildId name handle clearable bits := by
  induction names generalizing s with
  | nil => exact h
  | cons other names ih => exact ih ((entryOf_touch_of_ne s hne other _ name).trans h)

theorem Counts.clearNames (floats : Floats) {owner : Owner} (hne : Owner.stats buildId ≠ owner)
    (names : List String) {s : NativeShelf} (h : Counts s buildId name handle clearable bits) :
    Counts (clearNames floats plainBackend s owner names).1 buildId name handle clearable bits := by
  induction names generalizing s with
  | nil => exact h
  | cons other names ih =>
      unfold Statistics.clearNames
      cases (plainBackend.store s owner).find? (·.1 = other) with
      | none => exact h
      | some entry =>
          dsimp only
          split
          · exact ih ((entryOf_touch_of_ne s hne other _ name).trans h)
          · exact h

/-- **One request**: the counter makes of it what its effect is. -/
theorem Counts.serve (h : Counts s.1 buildId name handle clearable bits) (isAlphanumeric : Char → Bool)
    (floats : Floats) {request : Request} (hkeeps : request.resets buildId = false) :
    Counts (serve isAlphanumeric floats plainBackend s request).1.1 buildId name handle clearable
      (counterEffect handle bits request) := by
  cases request with
  | registerCounter => exact h.register ..
  | registerDouble => exact h.register ..
  | registerAverage => exact h.register ..
  | registerTable =>
      simp only [Statistics.serve]
      split
      · exact h
      · exact h.register ..
  | incrementCounter other amount => exact h.change other (· + amount)
  | maximizeCounter other value => exact h.change other (max · value)
  | setDouble other value =>
      simp only [Statistics.serve, counterEffect]
      cases hfinite : value.isFinite with
      | false => simpa using h
      | true => simpa using h.change other fun _ => value.bits
  | sampleAverage =>
      simp only [Statistics.serve]
      split
      · exact h
      · exact h.change_map (by decide) ..
  | setTableRow other key values =>
      simp only [Statistics.serve]
      cases (plainBackend.held s.1 .tables other).bind Value.table? with
      | none => exact h
      | some table =>
          dsimp only
          split
          · exact h
          · exact h.change_map (by decide) ..
  | clearTable => exact h.change_map (by decide) ..
  | removeTableRow other key =>
      simp only [Statistics.serve]
      cases (plainBackend.held s.1 .tables other).bind Value.table? with
      | none => exact h
      | some table => exact h.change_other (by simp) _
  | tableGeneration => exact h
  | unregister other =>
      have hne : Owner.stats buildId ≠ .stats other := by
        rintro ⟨⟩
        simp [Request.resets] at hkeeps
      show entryOf ((s.1.drop (.stats other)).drop (.tables other)) _ _ = _
      rw [entryOf_drop_of_ne _ (by simp), entryOf_drop_of_ne _ hne]
      exact h
  | query => exact h
  | clear other names =>
      have hne : Owner.stats buildId ≠ .stats other := by
        rintro ⟨⟩
        simp [Request.resets] at hkeeps
      simp only [Statistics.serve, clearStatistics]
      split
      · exact h
      split
      · exact h.clearEach floats hne _
      · exact h.clearNames floats hne names
  | queryTables => exact h
  | clearTables other names =>
      simp only [Statistics.serve, Statistics.clearTables]
      split
      · exact h
      split
      · exact h.clearEach floats (by simp) _
      · cases clearError (plainBackend.store s.1 (.tables other)) names with
        | some error => exact h
        | none => exact h.clearEach floats (by simp) names

theorem Counts.serveAll (isAlphanumeric : Char → Bool) (floats : Floats) (requests : List Request)
    (hkeeps : ∀ request ∈ requests, request.resets buildId = false)
    (h : Counts s.1 buildId name handle clearable bits) :
    Counts (serveAll isAlphanumeric floats plainBackend s requests).1.1 buildId name handle clearable
      (requests.foldl (counterEffect handle) bits) := by
  induction requests generalizing s bits with
  | nil => exact h
  | cons request requests ih =>
      obtain ⟨hfirst, hrest⟩ := List.forall_mem_cons.mp hkeeps
      exact ih hrest (h.serve isAlphanumeric floats hfirst)

end

/-- A counter that was registered begins at zero. -/
theorem counts_of_register {s : ServiceState NativeShelf} {isAlphanumeric : Char → Bool} {buildId : UInt16}
    {name : String} {clearable : Bool} {handle : ℕ}
    (h : (register isAlphanumeric plainBackend s (.stats buildId) name .counters ⟨.nativeU64, clearable⟩
      (.word 0)).2 = .handle (some handle)) :
    Counts (register isAlphanumeric plainBackend s (.stats buildId) name .counters ⟨.nativeU64, clearable⟩
      (.word 0)).1.1 buildId name handle clearable 0 := by
  unfold register at h ⊢
  split at h
  · cases h
  split at h
  · cases h
  next hvalid hname =>
  rw [if_neg hvalid, if_neg hname]
  cases h
  show entryOf (s.1.add _ _ _ _ _ _) _ _ = _
  unfold entryOf Shelf.add
  dsimp only
  have hnone : (s.1.store (.stats buildId)).find? (·.1 = name) = none :=
    List.find?_eq_none.mpr fun entry hmem heq => hname (List.any_eq_true.mpr ⟨entry, hmem, heq⟩)
  rw [Function.update_self, List.find?_append, hnone, Option.none_or]
  simp

/-- A query for one counter. -/
theorem Counts.query {s : NativeShelf} {buildId : UInt16} {name : String} {handle : ℕ} {clearable : Bool}
    {bits : UInt64} (h : Counts s buildId name handle clearable bits) (floats : Floats) :
    (select "Unknown statistic name: " (plainBackend.store s (.stats buildId)) [name]).map
      (List.map fun entry => (entry.1, statisticValue floats entry.2)) = .ok [(name, .uint64 bits)] := by
  have hmem := List.mem_of_find?_eq_some h
  have hne : plainBackend.store s (.stats buildId) ≠ [] := List.ne_nil_of_mem hmem
  unfold select
  rw [if_neg hne, if_neg (List.cons_ne_nil _ _), List.mapM_cons, List.mapM_nil]
  rw [show (plainBackend.store s (.stats buildId)).find? (·.1 = name) = _ from h]
  rfl

theorem serveAll_append {σ : Type*} (isAlphanumeric : Char → Bool) (floats : Floats)
    (be : Backend σ Owner String NativeMap StatisticInfo Value) (s : ServiceState σ)
    (requests more : List Request) : (serveAll isAlphanumeric floats be s (requests ++ more)).1 =
      (serveAll isAlphanumeric floats be (serveAll isAlphanumeric floats be s requests).1 more).1 := by
  induction requests generalizing s with
  | nil => rfl
  | cons request requests ih => exact ih _

/-- **A counter shows what was added to it.** After it was registered, and until its component clears or
removes its statistics, a query for it gives the sum of what was added through its handle, in any sequence of
requests of all components. -/
theorem counter_counts (isAlphanumeric : Char → Bool) (floats : Floats) (before later : List Request)
    (buildId : UInt16) (name : String) (clearable : Bool) (handle : ℕ)
    (hcount : (before ++ .registerCounter buildId name clearable :: later).countP Request.registers < 2 ^ 64 - 1)
    (hregistered : (serve isAlphanumeric floats nativeBackend
      (serveAll isAlphanumeric floats nativeBackend NativeBook.start before).1
      (.registerCounter buildId name clearable)).2 = .handle (some handle))
    (hkeeps : ∀ request ∈ later, request.resets buildId = false) :
    (serve isAlphanumeric floats nativeBackend
      (serveAll isAlphanumeric floats nativeBackend NativeBook.start
        (before ++ .registerCounter buildId name clearable :: later)).1 (.query buildId [name])).2 =
      .values (.ok [(name, .uint64 (later.foldl (counterEffect handle) 0))]) := by
  rw [List.countP_append, List.countP_cons_of_pos rfl] at hcount
  -- the values under their names after the requests before
  obtain ⟨-, h₀, hle⟩ := serveAll_matches isAlphanumeric floats before agrees_start (by
    show 1 + _ < _
    omega)
  have hnext : (serveAll isAlphanumeric floats plainBackend NativeShelf.start before).1.2 + 1 < 2 ^ 64 := by
    have hstart : NativeShelf.start.2 = 1 := rfl
    omega
  -- and after all of them
  have h₂ := (serveAll_matches isAlphanumeric floats
    (before ++ .registerCounter buildId name clearable :: later) agrees_start (by
      rw [List.countP_append, List.countP_cons_of_pos rfl]
      show 1 + _ < _
      omega)).2.1
  have h₁ := serve_matches isAlphanumeric floats h₀ (.registerCounter buildId name clearable) fun _ => hnext
  have hcounts := (counts_of_register (h₁.reply ▸ hregistered)).serveAll isAlphanumeric floats later hkeeps
  have hquery := serve_matches isAlphanumeric floats h₂ (.query buildId [name]) (by simp [Request.registers])
  rw [hquery.reply]
  simp only [serve]
  rw [serveAll_append]
  exact congrArg Reply.values (hcounts.query floats)

theorem counter_counts_interleaved :
    (serve Char.isAlpha noFloats nativeBackend
      (serveAll Char.isAlpha noFloats nativeBackend NativeBook.start
        ([.registerAverage 2 "numPackets" true] ++ .registerCounter 1 "numPackets" true ::
          [.incrementCounter 2 5, .clear 2 [], .unregister 2, .incrementCounter 2 4])).1
      (.query 1 ["numPackets"])).2 = .values (.ok [("numPackets", .uint64 9)]) :=
  counter_counts Char.isAlpha noFloats [.registerAverage 2 "numPackets" true]
    [.incrementCounter 2 5, .clear 2 [], .unregister 2, .incrementCounter 2 4] 1 "numPackets" true 2
    (by decide) rfl (by decide)

end Emane.Statistics
