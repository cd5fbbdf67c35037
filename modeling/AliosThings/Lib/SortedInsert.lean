import Mathlib.Data.List.Sort

/-!
# Lists kept in the order of a key

A list kept in nondecreasing order of a key, into which a new element goes
before the first element of strictly larger key: `List.orderedInsert` for the
strict order of the keys. The insertion keeps the order. While an element is
being moved, the order is only asked of the others: the relation is weakened to
`fun a b => ¬E a → ¬E b → R a b` for the elements `E` in transit, which may then
stand anywhere.
-/

namespace SortedInsert

variable {α β : Type*}

/-- The relation `R` asked only of the elements outside `E`. -/
def Except (E : α → Prop) (R : α → α → Prop) (a b : α) : Prop :=
  ¬E a → ¬E b → R a b

theorem except_of_left {E : α → Prop} {R : α → α → Prop} {a : α} (ha : E a) (b : α) :
    Except E R a b := fun h => absurd ha h

theorem except_of_right {E : α → Prop} {R : α → α → Prop} {b : α} (hb : E b) (a : α) :
    Except E R a b := fun _ h => absurd hb h

/-- Inserting before the first element of a larger key keeps the list in
nondecreasing order of the key. -/
theorem orderedInsert_pairwise_le [LinearOrder β] (key : α → β) (x : α) {l : List α}
    (h : l.Pairwise fun a b => key a ≤ key b) :
    (l.orderedInsert (fun a b => key a < key b) x).Pairwise fun a b => key a ≤ key b := by
  induction l with
  | nil => simp
  | cons y l ih =>
    obtain ⟨hy, hl⟩ := List.pairwise_cons.mp h
    rw [List.orderedInsert_cons]
    split
    · rename_i hxy
      refine List.pairwise_cons.mpr ⟨fun z hz => ?_, h⟩
      rcases List.mem_cons.mp hz with rfl | hz
      · exact hxy.le
      · exact hxy.le.trans (hy z hz)
    · rename_i hxy
      refine List.pairwise_cons.mpr ⟨fun z hz => ?_, ih hl⟩
      rcases (List.mem_orderedInsert _).mp hz with rfl | hz
      · exact not_lt.mp hxy
      · exact hy z hz

/-- An element in transit may be inserted anywhere. -/
theorem orderedInsert_pairwise_except {E : α → Prop} {R : α → α → Prop} (r : α → α → Prop)
    [DecidableRel r] {x : α} (hx : E x) {l : List α} (h : l.Pairwise (Except E R)) :
    (l.orderedInsert r x).Pairwise (Except E R) := by
  induction l with
  | nil => simp
  | cons y l ih =>
    obtain ⟨hy, hl⟩ := List.pairwise_cons.mp h
    rw [List.orderedInsert_cons]
    split
    · exact List.pairwise_cons.mpr ⟨fun z _ => except_of_left hx z, h⟩
    · refine List.pairwise_cons.mpr ⟨fun z hz => ?_, ih hl⟩
      rcases (List.mem_orderedInsert _).mp hz with rfl | hz
      · exact except_of_right hx y
      · exact hy z hz

/-- An element in transit may be appended. -/
theorem pairwise_append_except {E : α → Prop} {R : α → α → Prop} {x : α} (hx : E x) {l : List α}
    (h : l.Pairwise (Except E R)) : (l ++ [x]).Pairwise (Except E R) :=
  List.pairwise_append.mpr ⟨h, List.pairwise_singleton _ _, fun a _ b hb => by
    rw [List.mem_singleton.mp hb]
    exact except_of_right hx a⟩

/-- Asking the order of fewer elements. -/
theorem pairwise_except_mono {E E' : α → Prop} {R : α → α → Prop} (hE : ∀ a, E a → E' a)
    {l : List α} (h : l.Pairwise (Except E R)) : l.Pairwise (Except E' R) :=
  h.imp fun hab ha hb => hab (fun h => ha (hE _ h)) (fun h => hb (hE _ h))

/-- A part of the list with no element in transit is in order. -/
theorem pairwise_of_except {E : α → Prop} {R : α → α → Prop} {l l' : List α}
    (h : l.Pairwise (Except E R)) (hs : List.Sublist l' l) (hl' : ∀ a ∈ l', ¬E a) : l'.Pairwise R :=
  (h.sublist hs).imp_of_mem fun ha hb hab => hab (hl' _ ha) (hl' _ hb)

/-- The order of every element, read off the order with no element in transit. -/
theorem pairwise_except_false_iff {R : α → α → Prop} {l : List α} :
    l.Pairwise (Except (fun _ => False) R) ↔ l.Pairwise R :=
  ⟨fun h => h.imp fun hab => hab not_false not_false, fun h => h.imp fun hab _ _ => hab⟩

end SortedInsert
