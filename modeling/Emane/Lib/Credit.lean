import Mathlib

set_option autoImplicit false

/-! # Credit over a channel

One side sends items and the counts of the items it may send, in one channel in which nothing overtakes.
`Backed` says that the items are covered: those before the first count by the credit that the receiver
knows of, those after a count by this count, and what may still be sent by the last one.
-/

namespace Emane.Lib

inductive CreditMessage
  | item
  | count (tokens : ℕ)
  deriving DecidableEq

/-- The messages in flight, first one first, are covered by the credit at the receiver; `left` more items
may be sent. -/
def Backed (left : ℕ) : List CreditMessage → ℕ → Prop
  | [], credit => left ≤ credit
  | .item :: rest, credit => 0 < credit ∧ Backed left rest (credit - 1)
  | .count tokens :: rest, _ => Backed left rest tokens

variable {left credit : ℕ} {messages : List CreditMessage}

/-- More credit does no harm. -/
theorem Backed.mono {more : ℕ} (h : Backed left messages credit) (hle : credit ≤ more) :
    Backed left messages more := by
  induction messages generalizing credit more with
  | nil => exact le_trans h hle
  | cons message rest ih =>
      cases message with
      | item =>
          obtain ⟨hpos, hrest⟩ := h
          exact ⟨hpos.trans_le hle, ih hrest (Nat.sub_le_sub_right hle 1)⟩
      | count tokens => exact h

/-- An item is sent for a token. -/
theorem Backed.send_item (h : Backed (left + 1) messages credit) :
    Backed left (messages ++ [.item]) credit := by
  induction messages generalizing credit with
  | nil =>
      have hle : left + 1 ≤ credit := h
      exact ⟨by omega, show left ≤ credit - 1 by omega⟩
  | cons message rest ih =>
      cases message with
      | item => exact ⟨h.1, ih h.2⟩
      | count tokens => exact ih h

/-- A count is sent; what may be sent after it is covered by the count. -/
theorem Backed.send_count {tokens : ℕ} (h : Backed left messages credit) {left' : ℕ}
    (hle : left' ≤ tokens) : Backed left' (messages ++ [.count tokens]) credit := by
  induction messages generalizing credit with
  | nil => exact hle
  | cons message rest ih =>
      cases message with
      | item => exact ⟨h.1, ih h.2⟩
      | count tokens' => exact ih h

end Emane.Lib
