import Mathlib

set_option autoImplicit false

/-! # Collecting the parts of messages

The abstract purpose of a reassembly: messages come in parts, the parts of many messages arrive in
any order, and a message is released when all of its parts are there. The collector remembers, for
each message, the set of parts received since it was last released.

`count_outputs` says what a whole run releases: a message none of whose parts arrives after the
message was complete is released once if all of its parts arrive and not at all otherwise. A
concrete reassembly takes part in these results by a simulation (`Simulates`, `simulates_run`): its
states represent the collector's, and its outputs are the released messages.
-/

namespace Emane.Lib

section

variable {K D : Type*} [DecidableEq K] [DecidableEq D]

/-- Which message a part belongs to, and the parts of each message. -/
structure Collector (K D : Type*) where
  owner : D → K
  whole : K → Finset D
  owner_of_mem : ∀ {k d}, d ∈ whole k → owner d = k

namespace Collector

variable (c : Collector K D)

/-- A part arrives: it joins the received parts of its message, which is released if they are all
of them. -/
def arrive (s : K → Finset D) (d : D) : (K → Finset D) × Option K :=
  if insert d (s (c.owner d)) = c.whole (c.owner d) then
    (Function.update s (c.owner d) ∅, some (c.owner d))
  else
    (Function.update s (c.owner d) (insert d (s (c.owner d))), none)

/-- One arrival of a run, which keeps the released messages in order. -/
def runStep (r : (K → Finset D) × List K) (d : D) : (K → Finset D) × List K :=
  ((c.arrive r.1 d).1, r.2 ++ (c.arrive r.1 d).2.toList)

/-- The run over the arrivals `ds` from a collector that has received nothing. -/
def run (ds : List D) : (K → Finset D) × List K := ds.foldl c.runStep (fun _ => ∅, [])

theorem run_concat (ds : List D) (d : D) : c.run (ds ++ [d]) = c.runStep (c.run ds) d := by
  rw [run, List.foldl_append]
  rfl

/-- An arrival leaves the other messages alone. -/
theorem arrive_other {s : K → Finset D} {d : D} {k : K} (h : c.owner d ≠ k) :
    (c.arrive s d).1 k = s k ∧ (c.arrive s d).2 ≠ some k := by
  unfold arrive
  split
  · exact ⟨Function.update_of_ne h.symm _ _, by simpa using h⟩
  · exact ⟨Function.update_of_ne h.symm _ _, by simp⟩

/-- An arrival releases its own message, if any. -/
theorem eq_owner_of_arrive {s : K → Finset D} {d : D} {k : K} (h : (c.arrive s d).2 = some k) :
    k = c.owner d := by
  by_contra hne
  exact (c.arrive_other (Ne.symm hne)).2 h

/-- The received parts of message `k` among the arrivals. -/
def seen (ds : List D) (k : K) : Finset D := (ds.filter fun d => c.owner d = k).toFinset

theorem mem_seen {ds : List D} {k : K} {d : D} : d ∈ c.seen ds k ↔ d ∈ ds ∧ c.owner d = k := by
  simp [seen]

/-- The parts of message `k` have all arrived. -/
def Arrived (ds : List D) (k : K) : Prop := ∀ d ∈ c.whole k, d ∈ ds

/-- No part of message `k` arrives after all of them have arrived. -/
def NoneAfter (ds : List D) (k : K) : Prop :=
  ∀ before d after, ds = before ++ d :: after → c.owner d = k → ¬ c.Arrived before k

theorem seen_concat_other {ds : List D} {d : D} {k : K} (h : c.owner d ≠ k) :
    c.seen (ds ++ [d]) k = c.seen ds k := by
  simp [seen, List.filter_append, h]

theorem seen_concat_owner (ds : List D) (d : D) :
    c.seen (ds ++ [d]) (c.owner d) = insert d (c.seen ds (c.owner d)) := by
  ext x
  simp only [mem_seen, Finset.mem_insert, List.mem_append, List.mem_singleton]
  constructor
  · rintro ⟨hx | rfl, howner⟩
    · exact Or.inr ⟨hx, howner⟩
    · exact Or.inl rfl
  · rintro (rfl | ⟨hx, howner⟩)
    · exact ⟨Or.inr rfl, rfl⟩
    · exact ⟨Or.inl hx, howner⟩

theorem arrived_iff {ds : List D} {k : K} : c.Arrived ds k ↔ c.whole k ⊆ c.seen ds k := by
  constructor
  · intro h d hd
    exact c.mem_seen.mpr ⟨h d hd, c.owner_of_mem hd⟩
  · intro h d hd
    exact (c.mem_seen.mp (h hd)).1

/-- **What a run releases.** If the arrivals are parts of messages and none of message `k` comes
after `k` was complete, then `k` was released once and is forgotten if all its parts arrived; else it
was not released and its arrived parts are remembered. A message has at least one part. -/
theorem count_outputs {k : K} (hne : c.whole k ≠ ∅) (ds : List D)
    (hparts : ∀ d ∈ ds, d ∈ c.whole (c.owner d)) (hafter : c.NoneAfter ds k) :
    (c.Arrived ds k → (c.run ds).1 k = ∅ ∧ (c.run ds).2.count k = 1) ∧
    (¬ c.Arrived ds k → (c.run ds).1 k = c.seen ds k ∧ (c.run ds).2.count k = 0) := by
  induction ds using List.reverseRecOn with
  | nil =>
      constructor
      · intro harrived
        obtain ⟨d, hd⟩ := Finset.nonempty_iff_ne_empty.mpr hne
        exact absurd (harrived d hd) (by simp)
      · intro _
        exact ⟨rfl, rfl⟩
  | append_singleton ds d ih =>
      have hbefore : c.NoneAfter ds k := by
        intro before e after heq
        exact hafter before e (after ++ [d]) (by rw [heq]; simp)
      have ih := ih (fun e he => hparts e (by simp [he])) hbefore
      rw [c.run_concat]
      by_cases hk : c.owner d = k
      · -- the last arrival is a part of `k`, so `k` was not complete before
        subst hk
        have hnot : ¬ c.Arrived ds (c.owner d) := hafter ds d [] rfl rfl
        obtain ⟨hstate, hcount⟩ := ih.2 hnot
        have hsub : insert d (c.seen ds (c.owner d)) ⊆ c.whole (c.owner d) := by
          intro e he
          rw [← c.seen_concat_owner, mem_seen] at he
          exact he.2 ▸ hparts e he.1
        have harrived : c.Arrived (ds ++ [d]) (c.owner d) ↔
            insert d (c.seen ds (c.owner d)) = c.whole (c.owner d) := by
          rw [arrived_iff, seen_concat_owner]
          exact ⟨fun h => Finset.Subset.antisymm hsub h, fun h => h.ge⟩
        simp only [runStep, arrive, hstate]
        rw [harrived, seen_concat_owner]
        constructor
        · intro heq
          rw [if_pos heq]
          exact ⟨Function.update_self .., by simp [hcount]⟩
        · intro hneq
          rw [if_neg hneq]
          exact ⟨Function.update_self .., by simpa using hcount⟩
      · obtain ⟨hstate, hout⟩ := c.arrive_other (s := (c.run ds).1) hk
        have hcount : (c.runStep (c.run ds) d).2.count k = (c.run ds).2.count k := by
          simp only [runStep, List.count_append]
          cases hrel : (c.arrive (c.run ds).1 d).2 with
          | none => simp
          | some k' =>
              have hk' : k' ≠ k := fun h => hout (by rw [hrel, h])
              simp [hk']
        have harrived : c.Arrived (ds ++ [d]) k ↔ c.Arrived ds k := by
          rw [arrived_iff, arrived_iff, c.seen_concat_other hk]
        rw [harrived, hcount, c.seen_concat_other hk]
        change (_ → (c.arrive (c.run ds).1 d).1 k = ∅ ∧ _) ∧
          (_ → (c.arrive (c.run ds).1 d).1 k = _ ∧ _)
        rw [hstate]
        exact ih

omit [DecidableEq D] in
/-- No part of message `k` comes after the message was complete if each of its parts arrives once. -/
theorem noneAfter_of_nodup {ds : List D} {k : K} (hparts : ∀ d ∈ ds, d ∈ c.whole (c.owner d))
    (h : (ds.filter fun d => c.owner d = k).Nodup) : c.NoneAfter ds k := by
  rintro before d after rfl rfl harrived
  have hbefore : d ∈ before := harrived d (hparts d (by simp))
  rw [List.filter_append, List.nodup_append] at h
  exact h.2.2 d (by simp [hbefore]) d (by simp) rfl

/-- Only messages of arrived parts are released. -/
theorem owner_of_mem_outputs {ds : List D} {k : K} (h : k ∈ (c.run ds).2) :
    ∃ d ∈ ds, c.owner d = k := by
  induction ds using List.reverseRecOn with
  | nil => simp [run] at h
  | append_singleton ds d ih =>
      rw [c.run_concat] at h
      simp only [runStep, List.mem_append] at h
      rcases h with h | h
      · obtain ⟨e, he, hk⟩ := ih h
        exact ⟨e, by simp [he], hk⟩
      · by_cases hk : c.owner d = k
        · exact ⟨d, by simp, hk⟩
        · have := (c.arrive_other (s := (c.run ds).1) hk).2
          exact absurd (by simpa using h) this

/-! ## Simulation -/

variable {σ A O : Type*}

/-- One arrival of a concrete run, which keeps the outputs in order. -/
def outputStep (step : σ → A → σ × Option O) (r : σ × List O) (a : A) : σ × List O :=
  ((step r.1 a).1, r.2 ++ (step r.1 a).2.toList)

/-- The concrete run over the arrivals `as`. -/
def outputRun (step : σ → A → σ × Option O) (s : σ) (as : List A) : σ × List O :=
  as.foldl (outputStep step) (s, [])

theorem outputRun_concat (step : σ → A → σ × Option O) (s : σ) (as : List A) (a : A) :
    outputRun step s (as ++ [a]) = outputStep step (outputRun step s as) a := by
  rw [outputRun, List.foldl_append]
  rfl

/-- A run goes on from the state it has reached. -/
theorem outputRun_append (step : σ → A → σ × Option O) (s : σ) (as bs : List A) :
    outputRun step s (as ++ bs) =
      ((outputRun step (outputRun step s as).1 bs).1,
        (outputRun step s as).2 ++ (outputRun step (outputRun step s as).1 bs).2) := by
  induction bs using List.reverseRecOn with
  | nil => simp [outputRun]
  | append_singleton bs b ih =>
      rw [← List.append_assoc, outputRun_concat, ih, outputRun_concat]
      simp [outputStep]

theorem outputRun_map {B : Type*} (step : σ → A → σ × Option O) (f : B → A) (s : σ) (bs : List B) :
    outputRun step s (bs.map f) = outputRun (fun x b => step x (f b)) s bs := by
  rw [outputRun, List.foldl_map]
  rfl

/-- A concrete step function simulates the collector on the arrivals that are `good`. `view` is the
part that an arrival carries, if it carries one; the others leave the represented state alone. The
outputs that are `own` are the released messages. -/
structure Simulates (step : σ → A → σ × Option O) (represents : σ → (K → Finset D) → Prop)
    (good : A → Prop) (view : A → Option D) (out : K → O) (own : O → Bool) : Prop where
  own_out : ∀ k, own (out k) = true
  part : ∀ {x s a d}, good a → view a = some d → represents x s →
    represents (step x a).1 (c.arrive s d).1 ∧ (step x a).2 = (c.arrive s d).2.map out
  other : ∀ {x s a}, good a → view a = none → represents x s →
    represents (step x a).1 s ∧ ∀ o ∈ (step x a).2, own o = false

variable {c} {step : σ → A → σ × Option O} {represents : σ → (K → Finset D) → Prop}
  {good : A → Prop} {view : A → Option D} {out : K → O} {own : O → Bool}

/-- **A simulation carries over to runs**: the state represents the collector's, and the own outputs
are the released messages in order. -/
theorem Simulates.run (h : c.Simulates step represents good view out own) {x : σ}
    (hinit : represents x fun _ => ∅) (as : List A) (hgood : ∀ a ∈ as, good a) :
    represents (outputRun step x as).1 (c.run (as.filterMap view)).1 ∧
      (outputRun step x as).2.filter own = (c.run (as.filterMap view)).2.map out := by
  induction as using List.reverseRecOn with
  | nil => exact ⟨hinit, rfl⟩
  | append_singleton as a ih =>
      obtain ⟨hrep, houts⟩ := ih fun b hb => hgood b (by simp [hb])
      have ha := hgood a (by simp)
      rw [outputRun_concat, List.filterMap_append]
      cases hview : view a with
      | none =>
          obtain ⟨hrep', hown⟩ := h.other ha hview hrep
          have hnone : (step (outputRun step x as).1 a).2.toList.filter own = [] := by
            cases hout : (step (outputRun step x as).1 a).2 with
            | none => rfl
            | some o => simp [hown o hout]
          simp only [List.filterMap_cons_none hview, List.filterMap_nil, List.append_nil]
          exact ⟨hrep', by rw [outputStep, List.filter_append, houts, hnone, List.append_nil]⟩
      | some d =>
          obtain ⟨hrep', hout⟩ := h.part ha hview hrep
          rw [List.filterMap_cons_some hview, List.filterMap_nil, c.run_concat]
          refine ⟨hrep', ?_⟩
          rw [outputStep, runStep, List.filter_append, houts, List.map_append, hout]
          congr 1
          cases (c.arrive (c.run (as.filterMap view)).1 d).2 with
          | none => rfl
          | some k => simp [h.own_out k]

/-! ## Forgetting

A reassembly may also forget what it has received of some messages, before an arrival is handled. -/

variable (step) (forget : σ → A → σ)

/-- The step that first forgets. -/
def forgetting (x : σ) (a : A) : σ × Option O := step (forget x a) a

/-- Nothing is forgotten in the run over the arrivals `as`. -/
def NothingForgotten (x : σ) (as : List A) : Prop :=
  ∀ before a after, as = before ++ a :: after →
    forget (outputRun (forgetting step forget) x before).1 a =
      (outputRun (forgetting step forget) x before).1

variable {step forget}

theorem NothingForgotten.outputRun_eq {x : σ} {as : List A} (h : NothingForgotten step forget x as) :
    outputRun (forgetting step forget) x as = outputRun step x as := by
  induction as using List.reverseRecOn with
  | nil => rfl
  | append_singleton as a ih =>
      have hbefore : NothingForgotten step forget x as := by
        intro before b after heq
        exact h before b (after ++ [a]) (by rw [heq]; simp)
      have hstep : forgetting step forget (outputRun (forgetting step forget) x as).1 a =
          step (outputRun (forgetting step forget) x as).1 a := by
        rw [forgetting, h as a [] rfl]
      rw [outputRun_concat, outputRun_concat, outputStep, outputStep, hstep, ih hbefore]

/-- Nothing is forgotten if nothing is in states of an invariant. -/
theorem nothingForgotten_of_invariant {P : σ → Prop} {x : σ} {as : List A} (hinit : P x)
    (hstep : ∀ x, ∀ a ∈ as, P x → P (step x a).1) (hforget : ∀ x, ∀ a ∈ as, P x → forget x a = x) :
    NothingForgotten step forget x as := by
  have hrun : ∀ before, (∀ a ∈ before, a ∈ as) → P (outputRun (forgetting step forget) x before).1 := by
    intro before
    induction before using List.reverseRecOn with
    | nil => exact fun _ => hinit
    | append_singleton before a ih =>
        intro hmem
        have ha := hmem a (by simp)
        have hbefore := ih fun b hb => hmem b (by simp [hb])
        rw [outputRun_concat, outputStep, forgetting, hforget _ a ha hbefore]
        exact hstep _ a ha hbefore
  rintro before a after rfl
  exact hforget _ a (by simp) (hrun before fun b hb => by simp [hb])

variable (forget) in
/-- **Whatever is forgotten, only messages come out**: an own output of a run is the message of a part
that arrived. -/
theorem Simulates.forgetting_outputs (h : c.Simulates step represents good view out own)
    (hforget : ∀ {x s a}, good a → represents x s → ∃ s', represents (forget x a) s') {x : σ}
    (hinit : represents x fun _ => ∅) (as : List A) (hgood : ∀ a ∈ as, good a) :
    (∃ s, represents (outputRun (forgetting step forget) x as).1 s) ∧
      ∀ o ∈ (outputRun (forgetting step forget) x as).2, own o = true →
        ∃ d ∈ as.filterMap view, o = out (c.owner d) := by
  induction as using List.reverseRecOn with
  | nil => exact ⟨⟨_, hinit⟩, by simp [outputRun]⟩
  | append_singleton as a ih =>
      obtain ⟨⟨s, hrep⟩, houts⟩ := ih fun b hb => hgood b (by simp [hb])
      have ha := hgood a (by simp)
      obtain ⟨s', hrep'⟩ := hforget ha hrep
      have hbefore : ∀ o ∈ (outputRun (forgetting step forget) x as).2, own o = true →
          ∃ d ∈ (as ++ [a]).filterMap view, o = out (c.owner d) := by
        intro o ho hown
        obtain ⟨d, hd, heq⟩ := houts o ho hown
        exact ⟨d, by rw [List.filterMap_append]; exact List.mem_append_left _ hd, heq⟩
      rw [outputRun_concat, outputStep, forgetting]
      cases hview : view a with
      | none =>
          obtain ⟨hrep'', hown'⟩ := h.other ha hview hrep'
          refine ⟨⟨s', hrep''⟩, fun o ho hown => ?_⟩
          rcases List.mem_append.mp ho with ho | ho
          · exact hbefore o ho hown
          · rw [hown' o (Option.mem_toList.mp ho)] at hown
            cases hown
      | some d =>
          obtain ⟨hrep'', hout⟩ := h.part ha hview hrep'
          refine ⟨⟨_, hrep''⟩, fun o ho hown => ?_⟩
          rcases List.mem_append.mp ho with ho | ho
          · exact hbefore o ho hown
          · rw [Option.mem_toList, hout, Option.map_eq_some_iff] at ho
            obtain ⟨k, hk, rfl⟩ := ho
            exact ⟨d, by simp [hview], by rw [c.eq_owner_of_arrive hk]⟩

end Collector

/-! ## Slots

A store keeps one entry for each message of which something was received. -/

section

variable {R S O : Type*}

/-- What a slot holds for a message with parts `ps`, of which `received` was received since the
message was last released; `rep` says when an entry stands for a set of received parts. -/
structure Shows (rep : R → Finset D → Prop) (ps : List D) (slot : Option R) (received : Finset D) :
    Prop where
  sub : received ⊆ ps.toFinset
  incomplete : received ≠ ps.toFinset
  empty : slot = none → received = ∅
  entry : ∀ entry, slot = some entry → rep entry received

theorem shows_none {rep : R → Finset D → Prop} {ps : List D} (hne : ps ≠ []) :
    Shows rep ps none ∅ where
  sub := Finset.empty_subset _
  incomplete h := hne ((List.toFinset_eq_empty_iff _).mp h.symm)
  empty _ := rfl
  entry := by simp

/-- What the arrival of `d` makes of the slot of its message: the message is released and forgotten,
or the slot shows `d` too. -/
structure SlotStep (rep : R → Finset D → Prop) (ps : List D) (received : Finset D) (d : D) (whole : O)
    (slot : Option R) (out : Option O) : Prop where
  last : insert d received = ps.toFinset → Shows rep ps slot ∅ ∧ out = some whole
  more : insert d received ≠ ps.toFinset → Shows rep ps slot (insert d received) ∧ out = none

/-- Every message has its slot, at its address. -/
def StoreShows (rep : K → R → Finset D → Prop) (plan : K → List D) (address : K → S)
    (store : S → Option R) (received : K → Finset D) : Prop :=
  ∀ k, plan k ≠ [] → Shows (rep k) (plan k) (store (address k)) (received k)

variable {rep : K → R → Finset D → Prop} {plan : K → List D} {address : K → S}
  {store : S → Option R} {received : K → Finset D}

omit [DecidableEq K] in
theorem storeShows_empty : StoreShows rep plan address (fun _ => none) fun _ => ∅ :=
  fun _ hne => shows_none hne

/-- **An arrival that does to its slot what it should does to the store what the collector does.** -/
theorem StoreShows.part [DecidableEq S] (c : Collector K D)
    (hwhole : ∀ k, c.whole k = (plan k).toFinset) (haddress : Function.Injective address)
    (h : StoreShows rep plan address store received) {d : D} (whole : K → O) {slot : Option R}
    {out : Option O}
    (hstep : SlotStep (rep (c.owner d)) (plan (c.owner d)) (received (c.owner d)) d
      (whole (c.owner d)) slot out) :
    StoreShows rep plan address (Function.update store (address (c.owner d)) slot)
        (c.arrive received d).1 ∧
      out = (c.arrive received d).2.map whole := by
  have hupdate : ∀ r, Shows (rep (c.owner d)) (plan (c.owner d)) slot r →
      StoreShows rep plan address (Function.update store (address (c.owner d)) slot)
        (Function.update received (c.owner d) r) := by
    intro r hr k hne
    by_cases hk : k = c.owner d
    · subst hk
      rwa [Function.update_self, Function.update_self]
    · rw [Function.update_of_ne hk, Function.update_of_ne fun heq => hk (haddress heq)]
      exact h k hne
  unfold Collector.arrive
  split
  · next heq =>
      obtain ⟨hshows, hout⟩ := hstep.last (heq.trans (hwhole _))
      exact ⟨hupdate _ hshows, hout⟩
  · next hneq =>
      obtain ⟨hshows, hout⟩ := hstep.more fun heq => hneq (heq.trans (hwhole _).symm)
      exact ⟨hupdate _ hshows, hout⟩

omit [DecidableEq K] in
/-- Freed slots show that their messages are forgotten. -/
theorem StoreShows.forget (h : StoreShows rep plan address store received) {store' : S → Option R}
    (hstore : ∀ a, store' a = store a ∨ store' a = none) :
    ∃ received', StoreShows rep plan address store' received' := by
  classical
  refine ⟨fun k => if store' (address k) = none then ∅ else received k, fun k hne => ?_⟩
  change Shows _ _ _ (if store' (address k) = none then ∅ else received k)
  split
  · next hfree =>
      rw [hfree]
      exact shows_none hne
  · next hkept =>
      rw [(hstore (address k)).resolve_right hkept]
      exact h k hne

end

end

end Emane.Lib
