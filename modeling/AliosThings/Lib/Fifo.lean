import AliosThings.Lib.Machine

/-!
# Bounded FIFOs with weighted items

The abstract queue behind a buffer of fixed capacity: each item takes some room
(its weight), a push is accepted exactly when the item fits in the room left,
and a pop gives the oldest item back. A buffer of `m` equal blocks is the case
of a constant weight; a buffer of variable-size messages weighs each message by
the bytes it takes.
-/

namespace Fifo

variable {α : Type*}

/-- The room the queued items take. -/
def load (w : α → Nat) (q : List α) : Nat :=
  (q.map w).sum

/-- A call on the queue. -/
inductive Op (α : Type*) where
  | push (x : α)
  | pop

/-- The reply: whether a push was accepted, and the item a pop gave back. -/
inductive Out (α : Type*) where
  | pushed (ok : Bool)
  | popped (x : Option α)

/-- The queue of capacity `cap` answering one call. -/
def step (w : α → Nat) (cap : Nat) (q : List α) : Op α → List α × Out α
  | .push x => if load w q + w x ≤ cap then (q ++ [x], .pushed true) else (q, .pushed false)
  | .pop =>
    match q with
    | [] => ([], .popped none)
    | x :: q => (q, .popped (some x))

@[simp] theorem load_nil (w : α → Nat) : load w [] = 0 := rfl

@[simp] theorem load_cons (w : α → Nat) (x : α) (q : List α) :
    load w (x :: q) = w x + load w q := by
  simp [load]

@[simp] theorem load_append (w : α → Nat) (q r : List α) :
    load w (q ++ r) = load w q + load w r := by
  simp [load]

theorem load_const (c : Nat) (q : List α) : load (fun _ => c) q = c * q.length := by
  induction q with
  | nil => simp
  | cons x q ih => simp [ih, Nat.mul_succ, Nat.add_comm]

@[simp] theorem step_push (w : α → Nat) (cap : Nat) (q : List α) (x : α) :
    step w cap q (.push x) =
      if load w q + w x ≤ cap then (q ++ [x], .pushed true) else (q, .pushed false) := rfl

@[simp] theorem step_pop_nil (w : α → Nat) (cap : Nat) :
    step w cap ([] : List α) .pop = ([], .popped none) := rfl

@[simp] theorem step_pop_cons (w : α → Nat) (cap : Nat) (x : α) (q : List α) :
    step w cap (x :: q) .pop = (q, .popped (some x)) := rfl

/-- Every call keeps the queue within its capacity. -/
theorem load_step_le {w : α → Nat} {cap : Nat} {q : List α} (h : load w q ≤ cap) (op : Op α) :
    load w (step w cap q op).1 ≤ cap := by
  cases op with
  | push x =>
    rw [step_push]
    split
    · simpa using ‹_›
    · exact h
  | pop =>
    cases q with
    | nil => simp
    | cons x q => simp at h ⊢; omega

/-- Every run from the empty queue stays within the capacity. -/
theorem load_exec_le (w : α → Nat) (cap : Nat) (ops : List (Op α)) :
    load w (Machine.exec (step w cap) [] ops) ≤ cap :=
  Machine.exec_invariant (fun q => load w q ≤ cap) (fun _ => True)
    (fun _ op _ h => load_step_le h op) (by simp) (fun _ _ => trivial)

end Fifo
