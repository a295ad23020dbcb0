import Mathlib

set_option autoImplicit false

/-! # Frames in a stream

A reader collects a stream in a buffer and cuts frames off its front. At the start of the buffer it
finds the length of the next frame, or that it needs more to know it, or that the stream is broken
(`Header`). What it finds does not change when more of the stream arrives; that is all a `Framing` has
to satisfy.

`split` cuts off all frames that are complete. It can be done at once or after each chunk
(`split_append`), so the frames of a stream do not depend on the chunks it is read in
(`framesOf_eq_split`).
-/

namespace Emane.Lib

/-- What stands at the start of a buffer. -/
inductive Header
  | wait
  | broken
  | frame (length : ℕ)

structure Framing (β : Type*) where
  header : List β → Header
  frame_pos : ∀ {buffer : List β} {n : ℕ}, header buffer = .frame n → 0 < n
  frame_append : ∀ {buffer : List β} {n : ℕ}, header buffer = .frame n →
    ∀ more, header (buffer ++ more) = .frame n
  broken_append : ∀ {buffer : List β}, header buffer = .broken →
    ∀ more, header (buffer ++ more) = .broken

namespace Framing

variable {β : Type*} (f : Framing β)

/-- The complete frames of a buffer and what is left of it, `none` if it is broken. -/
def split (buffer : List β) : List (List β) × Option (List β) :=
  match h : f.header buffer with
  | .wait => ([], some buffer)
  | .broken => ([], none)
  | .frame n =>
      if buffer.length < n then ([], some buffer)
      else
        let r := split (buffer.drop n)
        (buffer.take n :: r.1, r.2)
termination_by buffer.length
decreasing_by
  have := f.frame_pos h
  rw [List.length_drop]
  omega

/-- The reader goes on with the next chunk, unless the stream was broken. -/
def feed (chunk : List β) : Option (List β) → List (List β) × Option (List β)
  | none => ([], none)
  | some buffer => f.split (buffer ++ chunk)

/-- The frames of a stream that is read in chunks. -/
def framesOf : Option (List β) → List (List β) → List (List β)
  | _, [] => []
  | state, chunk :: chunks => (f.feed chunk state).1 ++ framesOf (f.feed chunk state).2 chunks

variable {f} {buffer : List β}

theorem split_wait (h : f.header buffer = .wait) : f.split buffer = ([], some buffer) := by
  rw [split]
  split <;> simp_all

theorem split_broken (h : f.header buffer = .broken) : f.split buffer = ([], none) := by
  rw [split]
  split <;> simp_all

theorem split_short {n : ℕ} (h : f.header buffer = .frame n) (hlt : buffer.length < n) :
    f.split buffer = ([], some buffer) := by
  rw [split]
  split <;> simp_all

theorem split_frame {n : ℕ} (h : f.header buffer = .frame n) (hle : n ≤ buffer.length) :
    f.split buffer =
      (buffer.take n :: (f.split (buffer.drop n)).1, (f.split (buffer.drop n)).2) := by
  rw [split]
  split
  · simp_all
  · simp_all
  next n' h' =>
    obtain rfl : n' = n := Header.frame.inj (h'.symm.trans h)
    rw [if_neg (Nat.not_lt.mpr hle)]

/-- The four ways in which the front of a buffer is dealt with, as an induction rule. -/
theorem split_induction {P : List β → Prop} (hwait : ∀ b, f.header b = .wait → P b)
    (hbroken : ∀ b, f.header b = .broken → P b)
    (hshort : ∀ b n, f.header b = .frame n → b.length < n → P b)
    (hframe : ∀ b n, f.header b = .frame n → n ≤ b.length → P (b.drop n) → P b) (b : List β) : P b := by
  induction hlen : b.length using Nat.strong_induction_on generalizing b with
  | _ len ih =>
    cases h : f.header b with
    | wait => exact hwait b h
    | broken => exact hbroken b h
    | frame n =>
        rcases lt_or_ge b.length n with hlt | hle
        · exact hshort b n h hlt
        · have hpos := f.frame_pos h
          refine hframe b n h hle (ih (b.drop n).length ?_ (b.drop n) rfl)
          rw [List.length_drop]
          omega

/-- **Frames can be cut off before the rest of the stream arrives.** -/
theorem split_append (buffer more : List β) :
    f.split (buffer ++ more) =
      ((f.split buffer).1 ++ (f.feed more (f.split buffer).2).1,
        (f.feed more (f.split buffer).2).2) := by
  induction buffer using f.split_induction with
  | hwait b h => rw [split_wait h]; rfl
  | hbroken b h => rw [split_broken h, split_broken (f.broken_append h more)]; rfl
  | hshort b n h hlt => rw [split_short h hlt]; rfl
  | hframe b n h hle ih =>
      have hle' : n ≤ (b ++ more).length := by rw [List.length_append]; omega
      rw [split_frame h hle, split_frame (f.frame_append h more) hle', List.drop_append_of_le_length hle,
        List.take_append_of_le_length hle, ih]
      rfl

/-- Nothing can be cut off what is left. -/
theorem split_rest {rest : List β} (h : (f.split buffer).2 = some rest) :
    f.split rest = ([], some rest) := by
  induction buffer using f.split_induction with
  | hwait b hb =>
      rw [split_wait hb] at h
      rw [← Option.some.inj h, split_wait hb]
  | hbroken b hb =>
      rw [split_broken hb] at h
      cases h
  | hshort b n hb hlt =>
      rw [split_short hb hlt] at h
      rw [← Option.some.inj h, split_short hb hlt]
  | hframe b n hb hle ih =>
      rw [split_frame hb hle] at h
      exact ih h

theorem framesOf_none (chunks : List (List β)) : f.framesOf none chunks = [] := by
  induction chunks with
  | nil => rfl
  | cons chunk chunks ih => exact ih

/-- **The frames of a stream do not depend on its chunks.** -/
theorem framesOf_eq_split {rest : List β} (hrest : f.split rest = ([], some rest))
    (chunks : List (List β)) :
    f.framesOf (some rest) chunks = (f.split (rest ++ chunks.flatten)).1 := by
  induction chunks generalizing rest with
  | nil =>
      rw [List.flatten_nil, List.append_nil, hrest]
      rfl
  | cons chunk chunks ih =>
      rw [framesOf, List.flatten_cons, ← List.append_assoc, split_append]
      change (f.split (rest ++ chunk)).1 ++ f.framesOf (f.split (rest ++ chunk)).2 chunks = _
      cases hnext : (f.split (rest ++ chunk)).2 with
      | none => rw [framesOf_none]; rfl
      | some next => rw [ih (split_rest hnext)]; rfl

/-- A list of frames that announce their own lengths is read as these frames. -/
theorem split_flatten {frames : List (List β)}
    (h : ∀ frame ∈ frames, f.header frame = .frame frame.length) (hempty : f.header [] = .wait) :
    f.split frames.flatten = (frames, some []) := by
  induction frames with
  | nil => exact split_wait hempty
  | cons frame frames ih =>
      have hframe := f.frame_append (h frame List.mem_cons_self) frames.flatten
      rw [List.flatten_cons, split_frame hframe (by simp), List.take_left, List.drop_left,
        ih fun other hother => h other (List.mem_cons_of_mem frame hother)]

end Framing

end Emane.Lib
