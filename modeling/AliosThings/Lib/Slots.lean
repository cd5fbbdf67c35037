import Mathlib

/-!
# Counting the slots of a table

A table of `k` slots is a function from indices to contents, read below `k`. The number
of slots that hold a value changes under an update of one slot by what that slot held
and what it holds now; the statement adds each on the side where it counts, so that no
subtraction appears.
-/

namespace Slots

variable {α : Type*} [BEq α]

/-- The number of slots below `k` that hold `a`. -/
def count (f : Nat → α) (k : Nat) (a : α) : Nat :=
  ((List.range k).filter fun i => f i == a).length

theorem count_congr {f g : Nat → α} {k : Nat} (a : α) (h : ∀ i < k, f i = g i) :
    count f k a = count g k a := by
  unfold count
  congr 1
  apply List.filter_congr
  intro i hi
  rw [h i (List.mem_range.mp hi)]

theorem count_le (f : Nat → α) (k : Nat) (a : α) : count f k a ≤ k := by
  unfold count
  calc ((List.range k).filter fun i => f i == a).length ≤ (List.range k).length := List.length_filter_le _ _
    _ = k := List.length_range

variable [LawfulBEq α]

theorem count_pos {f : Nat → α} {i k : Nat} {a : α} (hi : i < k) (h : f i = a) : 0 < count f k a := by
  unfold count
  apply List.length_pos_of_mem (a := i)
  simp [hi, h]

theorem count_eq_zero_iff {f : Nat → α} {k : Nat} {a : α} : count f k a = 0 ↔ ∀ i < k, f i ≠ a := by
  unfold count
  simp [List.filter_eq_nil_iff]

variable [DecidableEq α]

theorem count_succ (f : Nat → α) (k : Nat) (a : α) :
    count f (k + 1) a = count f k a + if f k = a then 1 else 0 := by
  unfold count
  rw [List.range_succ, List.filter_append, List.length_append]
  by_cases h : f k = a <;> simp [h]

/-- Updating slot `i` below `k` takes away what it held and counts what it holds. -/
theorem count_update (f : Nat → α) {i k : Nat} (hi : i < k) (v a : α) :
    count (Function.update f i v) k a + (if f i = a then 1 else 0) =
      count f k a + if v = a then 1 else 0 := by
  induction k with
  | zero => omega
  | succ k ih =>
    rw [count_succ, count_succ]
    rcases Nat.lt_succ_iff_lt_or_eq.mp hi with hlt | rfl
    · -- the update lies below the last slot, which keeps its content
      rw [Function.update_of_ne (by omega)]
      have := ih hlt
      omega
    · -- the last slot is the one updated
      have hbelow : count (Function.update f i v) i a = count f i a :=
        count_congr a fun j hj => Function.update_of_ne (by omega) v f
      rw [hbelow, Function.update_self]
      omega

end Slots
