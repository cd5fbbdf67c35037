import Mathlib

/-!
# Doubly linked lists threaded through a table

A list is threaded through a table of nodes when each node names the next node and the
one before it, `0` standing for `NULL`. `Chain next prev p b l` says that `l` is the
list of nodes met from `b` along `next` up to `0`, each naming the one before it along
`prev` and the first naming `p`. The chain reads only its own nodes; pushing a node at
the front and unlinking any node are its two updates.
-/

namespace DList

/-- The nodes of `l` follow one another from `b` along `next` to `0`, each naming the one
before it along `prev`, the first naming `p`. -/
def Chain (next prev : Nat → Nat) (p b : Nat) : List Nat → Prop
  | [] => b = 0
  | c :: l => b = c ∧ c ≠ 0 ∧ prev c = p ∧ Chain next prev c (next c) l

variable {next prev next' prev' : Nat → Nat}

theorem Chain.not_mem_zero {p b : Nat} {l : List Nat} (h : Chain next prev p b l) : 0 ∉ l := by
  induction l generalizing p b with
  | nil => exact List.not_mem_nil
  | cons c l ih =>
    obtain ⟨-, hc, -, hl⟩ := h
    rw [List.mem_cons, not_or]
    exact ⟨fun h => hc h.symm, ih hl⟩

theorem Chain.eq_zero_iff {p b : Nat} {l : List Nat} (h : Chain next prev p b l) : b = 0 ↔ l = [] := by
  cases l with
  | nil => exact ⟨fun _ => rfl, fun _ => h⟩
  | cons c l =>
    obtain ⟨rfl, hc, -⟩ := h
    exact ⟨fun h => absurd h hc, fun h => nomatch h⟩

/-- The node after a node of the chain is in the chain, or `0`. -/
theorem Chain.next_mem {p b x : Nat} {l : List Nat} (h : Chain next prev p b l) (hx : x ∈ l) :
    next x ∈ l ∨ next x = 0 := by
  induction l generalizing p b with
  | nil => exact absurd hx List.not_mem_nil
  | cons c l ih =>
    obtain ⟨-, -, -, hl⟩ := h
    rcases List.mem_cons.mp hx with rfl | hx
    · -- the next node starts the rest of the chain
      cases l with
      | nil => exact .inr hl
      | cons d l => exact .inl (List.mem_cons_of_mem _ (hl.1 ▸ List.mem_cons_self))
    · exact (ih hl hx).imp_left (List.mem_cons_of_mem c)

/-- The node before a node of the chain other than the first is in the chain. -/
theorem Chain.prev_mem {p b x : Nat} {l : List Nat} (h : Chain next prev p b l) (hx : x ∈ l) (hxb : x ≠ b) :
    prev x ∈ l := by
  induction l generalizing p b with
  | nil => exact absurd hx List.not_mem_nil
  | cons c l ih =>
    obtain ⟨rfl, -, -, hl⟩ := h
    rcases List.mem_cons.mp hx with rfl | hx
    · exact absurd rfl hxb
    · by_cases hxn : x = next b
      · -- `x` starts the rest of the chain, so it names `b`
        cases l with
        | nil => exact absurd hx List.not_mem_nil
        | cons d l =>
          obtain ⟨hd, -, hpd, -⟩ := hl
          rw [hxn, hd, hpd]
          exact List.mem_cons_self
      · exact List.mem_cons_of_mem _ (ih hl hx hxn)

/-- The node before a node of the chain is in the chain, or it is the node the chain
starts after. -/
theorem Chain.prev_mem_or {p b x : Nat} {l : List Nat} (h : Chain next prev p b l) (hx : x ∈ l) :
    prev x ∈ l ∨ prev x = p := by
  by_cases hxb : x = b
  · cases l with
    | nil => exact absurd hx List.not_mem_nil
    | cons c l =>
      obtain ⟨rfl, -, hpc, -⟩ := h
      rw [hxb]
      exact .inr hpc
  · exact .inl (h.prev_mem hx hxb)

/-- A node of a chain without repeats is not its own next node. -/
theorem Chain.next_ne {p b x : Nat} {l : List Nat} (h : Chain next prev p b l) (hnd : l.Nodup) (hx : x ∈ l) :
    next x ≠ x := by
  induction l generalizing p b with
  | nil => exact absurd hx List.not_mem_nil
  | cons c l ih =>
    obtain ⟨rfl, hc, -, hl⟩ := h
    obtain ⟨hbl, hndl⟩ := List.nodup_cons.mp hnd
    rcases List.mem_cons.mp hx with rfl | hx
    · -- the next node starts the rest, which does not hold `x`
      intro hxx
      cases l with
      | nil => exact hc (hxx ▸ hl)
      | cons d l =>
        obtain ⟨hd, -⟩ := hl
        exact hbl (hxx ▸ hd ▸ List.mem_cons_self)
    · exact ih hl hndl hx

/-- A node of a chain without repeats is not its own previous node. -/
theorem Chain.prev_ne {p b x : Nat} {l : List Nat} (h : Chain next prev p b l) (hnd : l.Nodup) (hpl : p ∉ l)
    (hx : x ∈ l) : prev x ≠ x := by
  induction l generalizing p b with
  | nil => exact absurd hx List.not_mem_nil
  | cons c l ih =>
    obtain ⟨rfl, -, hpc, hl⟩ := h
    obtain ⟨hbl, hndl⟩ := List.nodup_cons.mp hnd
    rcases List.mem_cons.mp hx with rfl | hx
    · intro hxx
      apply hpl
      rw [← hpc, hxx]
      exact List.mem_cons_self
    · exact ih hl hndl hbl hx

/-- The chain reads only its own nodes. -/
theorem Chain.frame {p b : Nat} {l : List Nat} (h : Chain next prev p b l)
    (hn : ∀ y ∈ l, next' y = next y) (hp : ∀ y ∈ l, prev' y = prev y) : Chain next' prev' p b l := by
  induction l generalizing p b with
  | nil => exact h
  | cons c l ih =>
    obtain ⟨rfl, hc, hpc, hl⟩ := h
    refine ⟨rfl, hc, (hp b List.mem_cons_self).trans hpc, ?_⟩
    rw [hn b List.mem_cons_self]
    exact ih hl (fun y hy => hn y (List.mem_cons_of_mem _ hy)) (fun y hy => hp y (List.mem_cons_of_mem _ hy))

/-- The first node may name another node before it. -/
theorem Chain.reparent {p q b : Nat} {l : List Nat} (h : Chain next prev p b l) (hnd : l.Nodup)
    (hq : b ≠ 0 → prev' b = q) (hn : ∀ y ∈ l, next' y = next y) (hp : ∀ y ∈ l, y ≠ b → prev' y = prev y) :
    Chain next' prev' q b l := by
  cases l with
  | nil => exact h
  | cons c l =>
    obtain ⟨rfl, hc, -, hl⟩ := h
    have hbl : b ∉ l := (List.nodup_cons.mp hnd).1
    refine ⟨rfl, hc, hq hc, ?_⟩
    rw [hn b List.mem_cons_self]
    exact hl.frame (fun y hy => hn y (List.mem_cons_of_mem _ hy))
      (fun y hy => hp y (List.mem_cons_of_mem _ hy) fun hyb => hbl (hyb ▸ hy))

/-- Pushing node `x` at the front: it names the old first node as next and `0` as
previous, and the old first node names it. -/
theorem Chain.push {b x : Nat} {l : List Nat} (h : Chain next prev 0 b l) (hnd : l.Nodup) (hx : x ≠ 0)
    (hnx : next' x = b) (hpx : prev' x = 0) (hpb : b ≠ 0 → prev' b = x)
    (hn : ∀ y ∈ l, next' y = next y) (hp : ∀ y ∈ l, y ≠ b → prev' y = prev y) :
    Chain next' prev' 0 x (x :: l) := by
  refine ⟨rfl, hx, hpx, ?_⟩
  rw [hnx]
  exact h.reparent hnd hpb hn hp

/-- Unlinking node `x`: the node before it takes its next, the node after it takes its
previous, and a chain that starts at `x` starts at its next. -/
theorem Chain.unlink {p b x : Nat} {l : List Nat} (h : Chain next prev p b l) (hnd : l.Nodup) (hpl : p ∉ l)
    (hx : x ∈ l) (hnp : prev x ≠ 0 → next' (prev x) = next x) (hn : ∀ y ∈ l, y ≠ x → y ≠ prev x → next' y = next y)
    (hpn : next x ≠ 0 → prev' (next x) = prev x) (hp : ∀ y ∈ l, y ≠ x → y ≠ next x → prev' y = prev y) :
    Chain next' prev' p (if b = x then next x else b) (l.erase x) := by
  induction l generalizing p b with
  | nil => exact absurd hx List.not_mem_nil
  | cons c l ih =>
    obtain ⟨rfl, hc, hpc, hl⟩ := h
    obtain ⟨hbl, hndl⟩ := List.nodup_cons.mp hnd
    by_cases hbx : b = x
    · -- the first node goes: the chain restarts at its next, which names `p`
      subst hbx
      rw [if_pos rfl, List.erase_cons_head]
      refine hl.reparent hndl (fun hne => (hpn hne).trans hpc) (fun y hy => ?_) (fun y hy hyn => ?_)
      · exact hn y (List.mem_cons_of_mem _ hy) (fun h => hbl (h ▸ hy)) (fun h => hpl (hpc ▸ h ▸ List.mem_cons_of_mem _ hy))
      · exact hp y (List.mem_cons_of_mem _ hy) (fun h => hbl (h ▸ hy)) hyn
    · rw [if_neg hbx, List.erase_cons_tail (by simpa using hbx)]
      have hxl : x ∈ l := (List.mem_cons.mp hx).resolve_left (Ne.symm hbx)
      -- `b` comes before `x`, so it is not the node after `x`
      have hbn : b ≠ next x := by
        rcases hl.next_mem hxl with hm | hz
        · exact fun h => hbl (h ▸ hm)
        · exact fun h => hc (h.trans hz)
      refine ⟨rfl, hc, (hp b List.mem_cons_self hbx hbn).trans hpc, ?_⟩
      have hrest := ih hl hndl hbl hxl (fun y hy hyx hyp => hn y (List.mem_cons_of_mem _ hy) hyx hyp)
        (fun y hy hyx hyn => hp y (List.mem_cons_of_mem _ hy) hyx hyn)
      by_cases hxn : next b = x
      · -- `x` came right after `b`, which now names the node after `x`
        rw [if_pos hxn] at hrest
        have hpx : prev x = b := by
          cases l with
          | nil => exact absurd hxl List.not_mem_nil
          | cons d l =>
            obtain ⟨hd, -, hpd, -⟩ := hl
            rw [← hxn, hd, hpd]
        rw [← hpx, hnp (hpx ▸ hc)]
        exact hpx ▸ hrest
      · rw [if_neg hxn] at hrest
        have hbp : b ≠ prev x := fun h => hbl (h ▸ hl.prev_mem hxl (Ne.symm hxn))
        rw [hn b List.mem_cons_self hbx hbp]
        exact hrest

end DList
