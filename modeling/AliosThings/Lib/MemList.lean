import Mathlib

/-!
# Lists threaded through memory

A free list keeps its links in the cells it lists: the first word of each cell holds
the address of the next one. Read from memory, the `n` cells from `p` form a list.
Writing a cell that is not on that list leaves the list as it was, and cells linked
in order are read back in order.
-/

namespace MemList

variable {α : Type*}

/-- The `n` cells reached from `p` by following the links `next`. -/
def walk (next : α → α) (p : α) : Nat → List α
  | 0 => []
  | n + 1 => p :: walk next (next p) n

@[simp] theorem walk_zero (next : α → α) (p : α) : walk next p 0 = [] := rfl

@[simp] theorem walk_succ (next : α → α) (p : α) (n : Nat) :
    walk next p (n + 1) = p :: walk next (next p) n := rfl

@[simp] theorem length_walk (next : α → α) (p : α) (n : Nat) : (walk next p n).length = n := by
  induction n generalizing p with
  | zero => rfl
  | succ n ih => simp [ih]

/-- A link written into a cell off the list does not change the list. -/
theorem walk_update_of_not_mem [DecidableEq α] {next : α → α} {a v : α} :
    ∀ {p : α} {n : Nat}, a ∉ walk next p n → walk (Function.update next a v) p n = walk next p n
  | _, 0, _ => rfl
  | p, n + 1, h => by
    rw [walk_succ, List.mem_cons, not_or] at h
    rw [walk_succ, walk_succ, Function.update_of_ne (Ne.symm h.1), walk_update_of_not_mem h.2]

/-- Cells `f 0, f 1, …` each linked to the next are read back in order. -/
theorem walk_of_links {next : α → α} {f : Nat → α} :
    ∀ {n : Nat}, (∀ i, i + 1 < n → next (f i) = f (i + 1)) → walk next (f 0) n = (List.range n).map f
  | 0, _ => rfl
  | 1, _ => rfl
  | n + 2, h => by
    have ih := walk_of_links (f := fun i => f (i + 1)) (n := n + 1) fun i hi => h (i + 1) (by omega)
    rw [walk_succ, h 0 (by omega), ih, List.range_succ_eq_map (n := n + 1), List.map_cons, List.map_map]
    rfl

end MemList
