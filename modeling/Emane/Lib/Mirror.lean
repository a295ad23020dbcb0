import Mathlib

set_option autoImplicit false

/-! # A table with a copy that is reset late

An owner counts entries by their keys and writes what it has counted to the rows of a table. Others may clear
the table at any time. A clear does not reach the owner: it gives the table a new generation, which the owner
looks at before it counts the next entry, and when the generation is not that of the last look, it forgets
what it has counted. Between the look and the write of a row the table may be cleared as well.

The owner counts as one that is told of every clear at once (`State.Follows.run`): a row that is there shows
the entries since the last clear before the look that the row comes from. When no entry is interrupted by a
clear, that is since the last clear (`Ledger.settled_run`).

The generations must not come back: `run` asks for as many different ones as there are clears.
-/

namespace Emane.Lib.Mirror

variable {κ ν ε γ : Type*}

/-- How entries are counted: an entry has a key, and is added to what stands there, if something does. -/
structure Count (κ ν ε : Type*) where
  key : ε → κ
  add : Option ν → ε → ν

/-- The copy of the owner and the table. -/
structure State (κ ν γ : Type*) where
  stamp : Option γ
  cells : κ → Option ν
  generation : γ
  rows : κ → Option ν
  /-- a row that is counted and not written yet -/
  inHand : Option (κ × ν)

/-- What happens to the copy and the table. -/
inductive Action (ε : Type*)
  | look (entry : ε)
  | write
  | clear

section

variable [DecidableEq κ] [DecidableEq γ] (count : Count κ ν ε) (next : γ → γ)

/-- The owner has looked at the generation. -/
def State.refreshed (s : State κ ν γ) : κ → Option ν :=
  if s.stamp.any (· ≠ s.generation) then fun _ => none else s.cells

def State.look (s : State κ ν γ) (entry : ε) : State κ ν γ :=
  let value := count.add (s.refreshed (count.key entry)) entry
  { s with
    stamp := some s.generation
    cells := Function.update s.refreshed (count.key entry) (some value)
    inHand := some (count.key entry, value) }

def State.write (s : State κ ν γ) : State κ ν γ :=
  match s.inHand with
  | none => s
  | some (k, value) => { s with rows := Function.update s.rows k (some value), inHand := none }

def State.clear (s : State κ ν γ) : State κ ν γ :=
  { s with generation := next s.generation, rows := fun _ => none }

def State.step (s : State κ ν γ) : Action ε → State κ ν γ
  | .look entry => s.look count entry
  | .write => s.write
  | .clear => s.clear next

def State.run (s : State κ ν γ) (actions : List (Action ε)) : State κ ν γ := actions.foldl (step count next) s

end

/-! ## The owner that is told of every clear -/

/-- The entries since the last clear, those that each row shows, and those of the row in the hand. -/
structure Ledger (κ ε : Type*) where
  entries : List ε
  counted : κ → Option (List ε)
  inHand : Option (κ × List ε)

namespace Ledger

def new : Ledger κ ε := ⟨[], fun _ => none, none⟩

variable [DecidableEq κ]

def look (l : Ledger κ ε) (key : ε → κ) (entry : ε) : Ledger κ ε :=
  { l with entries := l.entries ++ [entry], inHand := some (key entry, l.entries ++ [entry]) }

def write (l : Ledger κ ε) : Ledger κ ε :=
  match l.inHand with
  | none => l
  | some (k, entries) => { l with counted := Function.update l.counted k (some entries), inHand := none }

def clear (l : Ledger κ ε) : Ledger κ ε := { l with entries := [], counted := fun _ => none }

def step (key : ε → κ) (l : Ledger κ ε) : Action ε → Ledger κ ε
  | .look entry => l.look key entry
  | .write => l.write
  | .clear => l.clear

def run (key : ε → κ) (l : Ledger κ ε) (actions : List (Action ε)) : Ledger κ ε := actions.foldl (step key) l

end Ledger

section

variable [DecidableEq κ] (count : Count κ ν ε)

/-- What the entries of a key add up to, if there are any. -/
def tally (entries : List ε) (k : κ) : Option ν :=
  entries.foldl (fun value entry => if count.key entry = k then some (count.add value entry) else value) none

theorem tally_nil : tally count [] = fun _ => none := rfl

theorem tally_concat (entries : List ε) (entry : ε) :
    tally count (entries ++ [entry]) =
      Function.update (tally count entries) (count.key entry)
        (some (count.add (tally count entries (count.key entry)) entry)) := by
  funext k
  rw [tally, List.foldl_append]
  by_cases hk : count.key entry = k
  · subst hk
    rw [Function.update_self]
    exact if_pos rfl
  · rw [Function.update_of_ne (Ne.symm hk)]
    exact if_neg hk

/-- The entries of a key are there if and only if there is one. -/
theorem tally_isSome {entries : List ε} {k : κ} :
    (tally count entries k).isSome ↔ ∃ entry ∈ entries, count.key entry = k := by
  induction entries using List.reverseRecOn with
  | nil => simp [tally_nil]
  | append_singleton entries entry ih =>
      rw [tally_concat]
      by_cases hk : count.key entry = k
      · subst hk
        simp
      · rw [Function.update_of_ne (Ne.symm hk), ih]
        simp [hk]

/-! ## The owner that looks at the generation counts as the other -/

variable (next : γ → γ) (start : γ)

/-- After `clears` clears: the state shows what the ledger has. A copy with another generation than that of
the table is an old one, and no entry has come since. -/
structure State.Follows (clears : ℕ) (s : State κ ν γ) (l : Ledger κ ε) : Prop where
  generation : s.generation = next^[clears] start
  cells : s.stamp = some s.generation ∧ s.cells = tally count l.entries ∨
    l.entries = [] ∧ (s.stamp = none ∧ (s.cells = fun _ => none) ∨
      ∃ earlier < clears, s.stamp = some (next^[earlier] start))
  rows : ∀ k, s.rows k = (l.counted k).bind fun entries => tally count entries k
  inHand : s.inHand.map (fun row => (row.1, some row.2)) =
    l.inHand.map fun row => (row.1, tally count row.2 row.1)

variable {count next start} {clears : ℕ} {s : State κ ν γ} {l : Ledger κ ε}

/-- What the owner has after its look is what there is since the last clear. -/
theorem State.Follows.refreshed_eq [DecidableEq γ] (h : s.Follows count next start clears l)
    (hnew : ∀ earlier < clears, next^[earlier] start ≠ next^[clears] start) :
    s.refreshed = tally count l.entries := by
  unfold State.refreshed
  rcases h.cells with ⟨hstamp, hcells⟩ | ⟨hentries, ⟨hstamp, hcells⟩ | ⟨earlier, hlt, hstamp⟩⟩
  · rw [hstamp, if_neg (by simp), hcells]
  · rw [hstamp, if_neg (by simp), hcells, hentries, tally_nil]
  · rw [hstamp, if_pos (by simpa [h.generation] using hnew earlier hlt), hentries, tally_nil]

theorem State.Follows.look [DecidableEq γ] (h : s.Follows count next start clears l)
    (hnew : ∀ earlier < clears, next^[earlier] start ≠ next^[clears] start) (entry : ε) :
    (s.look count entry).Follows count next start clears (l.look count.key entry) where
  generation := h.generation
  cells := by
    refine .inl ⟨rfl, ?_⟩
    change Function.update s.refreshed _ _ = tally count (l.entries ++ [entry])
    rw [tally_concat, h.refreshed_eq hnew]
  rows := h.rows
  inHand := by
    change some (count.key entry, _) = some (count.key entry, tally count (l.entries ++ [entry]) _)
    rw [tally_concat, Function.update_self, h.refreshed_eq hnew]

theorem State.Follows.write (h : s.Follows count next start clears l) :
    s.write.Follows count next start clears l.write := by
  have hhand := h.inHand
  unfold State.write Ledger.write
  cases hs : s.inHand with
  | none =>
      rw [hs, Option.map_none, eq_comm, Option.map_eq_none_iff] at hhand
      rw [hhand]
      exact h
  | some held =>
      obtain ⟨k, value⟩ := held
      rw [hs, Option.map_some, eq_comm, Option.map_eq_some_iff] at hhand
      obtain ⟨⟨k', entries⟩, hl, heq⟩ := hhand
      obtain ⟨rfl, htally⟩ := Prod.mk.inj heq
      rw [hl]
      refine ⟨h.generation, h.cells, fun k => ?_, rfl⟩
      change Function.update s.rows k' (some value) k = (Function.update l.counted k' (some entries) k).bind _
      by_cases hk : k = k'
      · subst hk
        rw [Function.update_self, Function.update_self, Option.bind_some]
        exact htally.symm
      · rw [Function.update_of_ne hk, Function.update_of_ne hk, h.rows]

theorem State.Follows.clear (h : s.Follows count next start clears l) :
    (s.clear next).Follows count next start (clears + 1) l.clear where
  generation := by
    rw [Function.iterate_succ_apply', ← h.generation]
    rfl
  cells := by
    refine .inr ⟨rfl, ?_⟩
    rcases h.cells with ⟨hstamp, -⟩ | ⟨-, hold | ⟨earlier, hlt, hstamp⟩⟩
    · exact .inr ⟨clears, Nat.lt_succ_self clears, hstamp.trans (congrArg some h.generation)⟩
    · exact .inl hold
    · exact .inr ⟨earlier, Nat.lt_succ_of_lt hlt, hstamp⟩
  rows := fun _ => rfl
  inHand := h.inHand

/-- The number of clears. -/
def clearsOf : List (Action ε) → ℕ
  | [] => 0
  | .clear :: actions => clearsOf actions + 1
  | _ :: actions => clearsOf actions

/-- **The rows are those of the ledger**, if the generations do not come back. -/
theorem State.Follows.run [DecidableEq γ] {actions : List (Action ε)} (h : s.Follows count next start clears l)
    (hinj : Set.InjOn (fun n => next^[n] start) (Set.Iic (clears + clearsOf actions))) :
    (s.run count next actions).Follows count next start (clears + clearsOf actions)
      (l.run count.key actions) := by
  induction actions generalizing s l clears with
  | nil => exact h
  | cons action actions ih =>
      cases action with
      | look entry =>
          refine ih (h.look (fun earlier hlt heq => ?_) entry) hinj
          have hle : clears ≤ clears + clearsOf actions := Nat.le_add_right ..
          exact absurd (hinj (hlt.le.trans hle) hle heq) hlt.ne
      | write => exact ih h.write hinj
      | clear =>
          have hsum : clears + clearsOf (.clear :: actions) = clears + 1 + clearsOf actions :=
            (Nat.add_right_comm clears 1 (clearsOf actions)).symm
          rw [hsum] at hinj ⊢
          exact ih h.clear hinj

/-! ## Entries that no clear interrupts -/

/-- An entry that is counted and written, or a clear. -/
inductive Block (ε : Type*)
  | record (entry : ε)
  | clear

def Block.actions : Block ε → List (Action ε)
  | .record entry => [.look entry, .write]
  | .clear => [.clear]

def Block.enter (entries : List ε) : Block ε → List ε
  | .record entry => entries ++ [entry]
  | .clear => []

/-- The entries since the last clear. -/
def sinceClear (blocks : List (Block ε)) : List ε := blocks.foldl Block.enter []

/-- Nothing is in the hand, and each row shows the entries since the last clear. -/
structure Ledger.Settled (count : Count κ ν ε) (l : Ledger κ ε) (since : List ε) : Prop where
  entries : l.entries = since
  inHand : l.inHand = none
  counted : ∀ k, ((l.counted k).bind fun es => tally count es k) = tally count since k

theorem Ledger.Settled.block {entries : List ε} (h : l.Settled count entries) (block : Block ε) :
    (l.run count.key block.actions).Settled count (block.enter entries) := by
  cases block with
  | clear => exact ⟨rfl, h.inHand, fun _ => rfl⟩
  | record entry =>
      refine ⟨congrArg (· ++ [entry]) h.entries, rfl, fun k => ?_⟩
      change ((Function.update l.counted (count.key entry) (some (l.entries ++ [entry])) k).bind _) =
        tally count (entries ++ [entry]) k
      by_cases hk : k = count.key entry
      · subst hk
        rw [Function.update_self, Option.bind_some, h.entries]
      · rw [Function.update_of_ne hk, h.counted, tally_concat, Function.update_of_ne hk]

/-- When no entry is interrupted, the ledger shows the entries since the last clear. -/
theorem Ledger.settled_run (blocks : List (Block ε)) :
    ((new : Ledger κ ε).run count.key (blocks.flatMap Block.actions)).Settled count (sinceClear blocks) := by
  induction blocks using List.reverseRecOn with
  | nil => exact ⟨rfl, rfl, fun _ => rfl⟩
  | append_singleton blocks block ih =>
      rw [List.flatMap_append, List.flatMap_singleton, Ledger.run, List.foldl_append, sinceClear,
        List.foldl_append]
      exact ih.block block

end

end Emane.Lib.Mirror
