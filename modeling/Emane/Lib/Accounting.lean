import Mathlib

set_option autoImplicit false

/-! # Accounting for queued entries

`account f queues` adds up what the entries of some queues are worth. It goes up by a new entry
(`account_push`) and down by one that leaves (`account_erase`, `account_front`), and an entry that is
replaced changes it by the difference (`account_set`). The worth is in any commutative monoid: numbers,
or multisets of the things that an entry stands for.
-/

namespace Emane.Lib

section

variable {Q E M : Type*} [Fintype Q] [AddCommMonoid M] (f : E → M)

/-- What the entries of the queues are worth. -/
def account (queues : Q → List E) : M := ∑ q, ((queues q).map f).sum

variable {f} {queues : Q → List E} {q : Q}

@[simp] theorem account_nil : account f (fun _ : Q => []) = 0 := by simp [account]

variable [DecidableEq Q]

/-- The account by the worth of one queue and the others. -/
theorem account_update (queues : Q → List E) (q : Q) (queue : List E) :
    account f (Function.update queues q queue) =
      (queue.map f).sum + ∑ q' ∈ Finset.univ.erase q, ((queues q').map f).sum := by
  have hcongr : ∀ q' ∈ Finset.univ.erase q, ((Function.update queues q queue q').map f).sum =
      ((queues q').map f).sum := by
    intro q' hq'
    rw [Function.update_of_ne (Finset.ne_of_mem_erase hq')]
  unfold account
  rw [← Finset.add_sum_erase _ _ (Finset.mem_univ q), Function.update_self,
    Finset.sum_congr rfl hcongr]

theorem account_eq (queues : Q → List E) (q : Q) :
    account f queues = ((queues q).map f).sum + ∑ q' ∈ Finset.univ.erase q, ((queues q').map f).sum := by
  rw [← account_update, Function.update_eq_self]

/-- An entry joins a queue. -/
theorem account_push (queues : Q → List E) (q : Q) (e : E) :
    account f (Function.update queues q (queues q ++ [e])) = account f queues + f e := by
  rw [account_update, account_eq queues q, List.map_append, List.sum_append, List.map_singleton,
    List.sum_singleton, add_right_comm]

/-- A queue with the entry at `position` split off. -/
theorem sum_map_eq_eraseIdx {queue : List E} {position : ℕ} {e : E}
    (h : queue[position]? = some e) :
    (queue.map f).sum = f e + ((queue.eraseIdx position).map f).sum := by
  induction queue generalizing position with
  | nil => cases h
  | cons head tail ih =>
      cases position with
      | zero =>
          cases h
          rfl
      | succ position =>
          rw [List.eraseIdx_cons_succ, List.map_cons, List.sum_cons, List.map_cons, List.sum_cons, ih h,
            add_left_comm]

/-- An entry leaves its queue. -/
theorem account_erase {position : ℕ} {e : E} (h : (queues q)[position]? = some e) :
    account f queues =
      f e + account f (Function.update queues q ((queues q).eraseIdx position)) := by
  rw [account_update, account_eq queues q, sum_map_eq_eraseIdx h, add_assoc]

/-- The front of a queue leaves. -/
theorem account_front {e : E} {queue : List E} (h : queues q = e :: queue) :
    account f queues = f e + account f (Function.update queues q queue) := by
  have hfront : (queues q)[0]? = some e := by rw [h]; rfl
  have herase : (queues q).eraseIdx 0 = queue := by rw [h]; rfl
  rw [account_erase hfront, herase]

/-- An entry is replaced. -/
theorem account_set {position : ℕ} {e e' : E} {m : M} (h : (queues q)[position]? = some e)
    (hworth : f e = m + f e') :
    account f queues = m + account f (Function.update queues q ((queues q).set position e')) := by
  have hlt := (List.getElem?_eq_some_iff.mp h).1
  have hset : ((queues q).set position e')[position]? = some e' := List.getElem?_set_self hlt
  rw [account_update, account_eq queues q, sum_map_eq_eraseIdx h, sum_map_eq_eraseIdx hset,
    List.eraseIdx_set_eq, hworth]
  simp only [add_assoc]

end

end Emane.Lib
