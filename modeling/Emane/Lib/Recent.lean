import Mathlib

set_option autoImplicit false

/-! # A memory of recent keys

A component remembers the keys it has seen lately, up to `capacity` of them and each as long as it is
valid. `check` looks a key up and enters it if it is not remembered; the oldest key makes room.

`Tracks` relates the memory to all checks since it was empty, newest first: what is remembered of a key
is its last check that found nothing (`repeated_iff`), and a key that was entered is remembered until it
is not valid any more or `capacity` other keys were entered (`forgotten`).
-/

namespace Emane.Lib

namespace Recent

variable {K T : Type*} [DecidableEq K] (capacity : ℕ) (valid : T → T → Bool)

/-- Looks up a key at time `now`: whether it is remembered, and the memory. -/
def check (memory : List (K × T)) (key : K) (now : T) : Bool × List (K × T) :=
  let memory := memory.filter fun entry => valid entry.2 now
  if memory.any fun entry => entry.1 = key then (true, memory)
  else (false, (if memory.length = capacity then memory.tail else memory) ++ [(key, now)])

/-- A check that was made. -/
structure Check (K T : Type*) where
  key : K
  time : T
  repeated : Bool
  deriving DecidableEq

/-- The last check that entered the key. -/
def lastEntered (log : List (Check K T)) (key : K) : Option (Check K T) :=
  log.find? fun c => c.key = key ∧ c.repeated = false

/-- How many checks entered their key. -/
def entered (log : List (Check K T)) : ℕ := log.countP fun c => c.repeated = false

/-- The memory after the checks of `log`. -/
structure Tracks (log : List (Check K T)) (memory : List (K × T)) : Prop where
  last : ∀ entry ∈ memory, ∃ c, lastEntered log entry.1 = some c ∧ c.time = entry.2
  kept : ∀ newer c older, log = newer ++ c :: older → c.repeated = false →
    (∃ front behind, memory = front ++ (c.key, c.time) :: behind ∧ behind.length ≤ entered newer) ∨
      (∃ k ∈ newer, valid c.time k.time = false) ∨ capacity ≤ entered newer

theorem tracks_nil : Tracks capacity valid ([] : List (Check K T)) [] where
  last := by simp
  kept newer c older h := by simp at h

section

variable {capacity valid} {log : List (Check K T)} {memory : List (K × T)} {key : K} {now : T}

theorem check_repeated_iff : (check capacity valid memory key now).1 = true ↔
    ∃ time, (key, time) ∈ memory ∧ valid time now = true := by
  have hany : (memory.filter fun entry => valid entry.2 now).any (fun entry => entry.1 = key) = true ↔
      ∃ time, (key, time) ∈ memory ∧ valid time now = true := by
    simp [List.any_eq_true]
  unfold check
  dsimp only
  split
  · next h => exact ⟨fun _ => hany.mp h, fun _ => rfl⟩
  · next h => exact ⟨nofun, fun hex => absurd (hany.mpr hex) h⟩

/-- **A key is found again** exactly if its last entry is still there and valid. -/
theorem Tracks.repeated_iff (h : Tracks capacity valid log memory) :
    (check capacity valid memory key now).1 = true ↔
      ∃ c, lastEntered log key = some c ∧ (key, c.time) ∈ memory ∧ valid c.time now = true := by
  rw [check_repeated_iff]
  constructor
  · rintro ⟨time, hmem, hvalid⟩
    obtain ⟨c, hlast, rfl⟩ := h.last _ hmem
    exact ⟨c, hlast, hmem, hvalid⟩
  · rintro ⟨c, -, hmem, hvalid⟩
    exact ⟨c.time, hmem, hvalid⟩

/-- **A key that was entered and is not found again was forgotten**: it became invalid, or too many keys
were entered since. -/
theorem Tracks.forgotten (h : Tracks capacity valid log memory)
    (hcheck : (check capacity valid memory key now).1 = false) {newer older : List (Check K T)}
    {c : Check K T} (hlog : log = newer ++ c :: older) (hkey : c.key = key)
    (hentered : c.repeated = false) :
    (∃ k ∈ newer, valid c.time k.time = false) ∨ valid c.time now = false ∨
      capacity ≤ entered newer := by
  rcases h.kept newer c older hlog hentered with ⟨front, behind, hmemory, -⟩ | hinvalid | hmany
  · refine .inr (.inl (Bool.eq_false_iff.mpr fun hvalid => ?_))
    have hfound : (check capacity valid memory key now).1 = true :=
      check_repeated_iff.mpr ⟨c.time, by rw [hmemory, hkey]; simp, hvalid⟩
    exact absurd (hfound.symm.trans hcheck) (by decide)
  · exact .inl hinvalid
  · exact .inr (.inr hmany)

theorem mem_of_mem_check {entry : K × T} (h : entry ∈ (check capacity valid memory key now).2) :
    (entry ∈ memory ∧ ((check capacity valid memory key now).1 = false → entry.1 ≠ key)) ∨
      (entry = (key, now) ∧ (check capacity valid memory key now).1 = false) := by
  unfold check at h ⊢
  dsimp only at h ⊢
  split at h
  · next hany =>
      rw [if_pos hany]
      exact .inl ⟨(List.mem_filter.mp h).1, nofun⟩
  · next hany =>
      rw [if_neg hany]
      rcases List.mem_append.mp h with hold | hnew
      · have hkept : entry ∈ memory.filter fun entry => valid entry.2 now := by
          split at hold
          · exact List.mem_of_mem_tail hold
          · exact hold
        refine .inl ⟨(List.mem_filter.mp hkept).1, fun _ heq => hany ?_⟩
        exact List.any_eq_true.mpr ⟨entry, hkept, by simpa using heq⟩
      · exact .inr ⟨List.mem_singleton.mp hnew, rfl⟩

/-- A new key is entered behind all others. -/
theorem check_new (h : (check capacity valid memory key now).1 = false) :
    ∃ front, (check capacity valid memory key now).2 = front ++ [(key, now)] := by
  unfold check at h ⊢
  dsimp only at h ⊢
  split at h
  · cases h
  · next hany =>
      rw [if_neg hany]
      exact ⟨_, rfl⟩

/-- What becomes of an entry that stays valid: it stays with what is behind it and the new key, or it was
the oldest one of a full memory. -/
theorem check_entry (capacity : ℕ) (key : K) {front behind : List (K × T)} {entry : K × T}
    (hmemory : memory = front ++ entry :: behind) (hvalid : valid entry.2 now = true) :
    (∃ front' behind', (check capacity valid memory key now).2 = front' ++ entry :: behind' ∧
      behind'.length ≤ behind.length + if (check capacity valid memory key now).1 then 0 else 1) ∨
    ((check capacity valid memory key now).1 = false ∧ capacity ≤ behind.length + 1) := by
  have hfilter : memory.filter (fun entry => valid entry.2 now) =
      front.filter (fun entry => valid entry.2 now) ++
        entry :: behind.filter (fun entry => valid entry.2 now) := by
    rw [hmemory, List.filter_append,
      List.filter_cons_of_pos (p := fun entry : K × T => valid entry.2 now) hvalid]
  have hbehind := List.length_filter_le (fun entry : K × T => valid entry.2 now) behind
  unfold check
  rw [hfilter]
  generalize front.filter (fun entry => valid entry.2 now) = front' at *
  generalize behind.filter (fun entry => valid entry.2 now) = behind' at *
  dsimp only
  split
  · exact .inl ⟨front', behind', rfl, by simpa using hbehind⟩
  · split
    · next hfull =>
        cases front' with
        | nil =>
            refine .inr ⟨rfl, ?_⟩
            rw [List.nil_append, List.length_cons] at hfull
            omega
        | cons first front' =>
            refine .inl ⟨front', behind' ++ [(key, now)], by simp, ?_⟩
            simpa using hbehind
    · refine .inl ⟨front', behind' ++ [(key, now)], by simp, ?_⟩
      simpa using hbehind

/-- **A check keeps track.** -/
theorem Tracks.step (h : Tracks capacity valid log memory) (key : K) (now : T) :
    Tracks capacity valid (⟨key, now, (check capacity valid memory key now).1⟩ :: log)
      (check capacity valid memory key now).2 where
  last entry hentry := by
    rcases mem_of_mem_check hentry with ⟨hold, hne⟩ | ⟨rfl, hnew⟩
    · obtain ⟨c, hlast, htime⟩ := h.last entry hold
      refine ⟨c, ?_, htime⟩
      unfold lastEntered
      rw [List.find?_cons_of_neg]
      · exact hlast
      · simp only [decide_eq_true_eq, not_and]
        intro hkey hrepeated
        exact hne hrepeated hkey.symm
    · refine ⟨⟨key, now, (check capacity valid memory key now).1⟩, ?_, rfl⟩
      unfold lastEntered
      rw [List.find?_cons_of_pos]
      simpa using hnew
  kept newer c older hlog hentered := by
    cases newer with
    | nil =>
        -- the key was entered just now, behind all others
        obtain ⟨rfl, rfl⟩ := List.cons.inj hlog
        obtain ⟨front, hfront⟩ := check_new hentered
        exact .inl ⟨front, [], hfront, Nat.zero_le _⟩
    | cons k newer =>
        obtain ⟨rfl, hrest⟩ := List.cons.inj hlog
        have hcount : entered (⟨key, now, (check capacity valid memory key now).1⟩ :: newer) =
            entered newer + if (check capacity valid memory key now).1 then 0 else 1 := by
          unfold entered
          rw [List.countP_cons]
          cases (check capacity valid memory key now).1 <;> rfl
        rcases h.kept newer c older hrest hentered with ⟨front, behind, hmemory, hle⟩ | hinvalid | hmany
        · cases hvalid : valid c.time now with
          | false => exact .inr (.inl ⟨_, List.mem_cons_self, hvalid⟩)
          | true =>
              rcases check_entry capacity key hmemory hvalid with
                ⟨front', behind', hcheck, hle'⟩ | ⟨hnew, hfull⟩
              · exact .inl ⟨front', behind', hcheck, by omega⟩
              · refine .inr (.inr ?_)
                rw [hcount, hnew]
                change capacity ≤ entered newer + 1
                omega
        · obtain ⟨k, hk, hinvalid⟩ := hinvalid
          exact .inr (.inl ⟨k, List.mem_cons_of_mem _ hk, hinvalid⟩)
        · refine .inr (.inr ?_)
          omega

end

end Recent

end Emane.Lib
