import Mathlib

/-!
# Blocks that tile an interval

A region of memory is tiled by blocks when each block ends where the next one starts.
`Tiles next b e l` says that the blocks of `l`, the first at `b`, follow one another
along `next` (where a block ends and the block after it starts), and that the last ends
at `e`. When every block ends past its start, the blocks are in increasing order and no
two of them overlap. Splitting a block in two and merging a block into the one before
it are the two edits of a tiling.
-/

namespace Tiling

/-- The blocks of `l` follow one another from `b`, each ending at its `next`, the last
at `e`. -/
def Tiles (next : Nat → Nat) (b e : Nat) : List Nat → Prop
  | [] => b = e
  | c :: l => b = c ∧ Tiles next (next c) e l

variable {next next' : Nat → Nat}

theorem Tiles.append_iff {b e : Nat} {l₁ l₂ : List Nat} :
    Tiles next b e (l₁ ++ l₂) ↔ ∃ m, Tiles next b m l₁ ∧ Tiles next m e l₂ := by
  induction l₁ generalizing b with
  | nil => exact ⟨fun h => ⟨b, rfl, h⟩, fun ⟨m, hm, h⟩ => hm ▸ h⟩
  | cons c l ih =>
    constructor
    · rintro ⟨rfl, h⟩
      obtain ⟨m, h₁, h₂⟩ := ih.mp h
      exact ⟨m, ⟨rfl, h₁⟩, h₂⟩
    · rintro ⟨m, ⟨rfl, h₁⟩, h₂⟩
      exact ⟨rfl, ih.mpr ⟨m, h₁, h₂⟩⟩

/-- The tiling reads `next` only at its own blocks. -/
theorem Tiles.frame {b e : Nat} {l : List Nat} (h : Tiles next b e l) (hn : ∀ c ∈ l, next' c = next c) :
    Tiles next' b e l := by
  induction l generalizing b with
  | nil => exact h
  | cons c l ih =>
    obtain ⟨rfl, hl⟩ := h
    refine ⟨rfl, ?_⟩
    rw [hn b List.mem_cons_self]
    exact ih hl fun c hc => hn c (List.mem_cons_of_mem _ hc)

/-- The block after a block of the tiling is a block of it, or the end. -/
theorem Tiles.next_mem {b e x : Nat} {l : List Nat} (h : Tiles next b e l) (hx : x ∈ l) :
    next x ∈ l ∨ next x = e := by
  induction l generalizing b with
  | nil => exact absurd hx List.not_mem_nil
  | cons c l ih =>
    obtain ⟨rfl, hl⟩ := h
    rcases List.mem_cons.mp hx with rfl | hx
    · cases l with
      | nil => exact .inr hl
      | cons d l => exact .inl (List.mem_cons_of_mem _ (hl.1 ▸ List.mem_cons_self))
    · exact (ih hl hx).imp_left (List.mem_cons_of_mem b)

/-- A block of the tiling other than the first follows a block of it. -/
theorem Tiles.pred_mem {b e x : Nat} {l : List Nat} (h : Tiles next b e l) (hx : x ∈ l) (hxb : x ≠ b) :
    ∃ p ∈ l, next p = x := by
  induction l generalizing b with
  | nil => exact absurd hx List.not_mem_nil
  | cons c l ih =>
    obtain ⟨rfl, hl⟩ := h
    rcases List.mem_cons.mp hx with rfl | hx
    · exact absurd rfl hxb
    · by_cases hxn : x = next b
      · exact ⟨b, List.mem_cons_self, hxn.symm⟩
      · obtain ⟨p, hp, hpx⟩ := ih hl hx hxn
        exact ⟨p, List.mem_cons_of_mem _ hp, hpx⟩

/-- A tiling has one end. -/
theorem Tiles.end_eq {b e e' : Nat} {l : List Nat} (h : Tiles next b e l) (h' : Tiles next b e' l) :
    e = e' := by
  induction l generalizing b with
  | nil => exact h.symm.trans h'
  | cons c l ih => exact ih h.2 h'.2

/-- The last block of a tiling ends at its end. -/
theorem Tiles.snoc_iff {b e x : Nat} {l : List Nat} :
    Tiles next b e (l ++ [x]) ↔ Tiles next b x l ∧ next x = e := by
  constructor
  · intro h
    obtain ⟨m, h₁, rfl, h₂⟩ := Tiles.append_iff.mp h
    exact ⟨h₁, h₂⟩
  · rintro ⟨h₁, h₂⟩
    exact Tiles.append_iff.mpr ⟨x, h₁, rfl, h₂⟩

/-- The blocks after a block start at its end. -/
theorem Tiles.cons_tail {b e x : Nat} {l : List Nat} (h : Tiles next b e (x :: l)) :
    (l = [] ∧ next x = e) ∨ ∃ l', l = next x :: l' := by
  obtain ⟨-, hl⟩ := h
  cases l with
  | nil => exact .inl ⟨rfl, hl⟩
  | cons c l' => exact .inr ⟨l', by rw [hl.1]⟩

/-- The block before a block that is not the first ends at it. -/
theorem Tiles.init_snoc {b e x : Nat} {l₁ l₂ : List Nat} (h : Tiles next b e (l₁ ++ x :: l₂)) (hne : l₁ ≠ []) :
    ∃ l₀ q, l₁ = l₀ ++ [q] ∧ next q = x := by
  obtain ⟨m, h₁, rfl, -⟩ := Tiles.append_iff.mp h
  obtain ⟨l₀, q, rfl⟩ := (List.eq_nil_or_concat l₁).resolve_left hne
  rw [List.concat_eq_append] at h₁ ⊢
  exact ⟨l₀, q, rfl, (Tiles.snoc_iff.mp h₁).2⟩

/-- A tiling cut around a non-empty middle part, tiling from `x` to `y`, is tiled from
its start to `x` before the middle and from `y` to its end after it. -/
theorem Tiles.around {b e x y : Nat} {l₁ l₂ l₃ : List Nat} (h : Tiles next b e (l₁ ++ l₂ ++ l₃))
    (hne : l₂ ≠ []) (hm : Tiles next x y l₂) : Tiles next b x l₁ ∧ Tiles next y e l₃ := by
  obtain ⟨m₁, h₁, h₂₃⟩ := Tiles.append_iff.mp (List.append_assoc l₁ l₂ l₃ ▸ h)
  obtain ⟨m₂, h₂, h₃⟩ := Tiles.append_iff.mp h₂₃
  obtain ⟨c, l, rfl⟩ := List.exists_cons_of_ne_nil hne
  -- both tilings of the middle start at its first block
  have hx : x = m₁ := hm.1.trans h₂.1.symm
  subst hx
  rw [hm.end_eq h₂]
  exact ⟨h₁, h₃⟩

section Order

/-! ## Blocks that end past their start -/

variable (hnext : ∀ c, c < next c)
include hnext

/-- The start lies below the end. -/
theorem Tiles.le {b e : Nat} {l : List Nat} (h : Tiles next b e l) : b ≤ e := by
  induction l generalizing b with
  | nil => exact le_of_eq h
  | cons c l ih =>
    obtain ⟨rfl, hl⟩ := h
    exact le_trans (le_of_lt (hnext b)) (ih hl)

/-- Every block lies between the start and the end. -/
theorem Tiles.le_of_mem {b e x : Nat} {l : List Nat} (h : Tiles next b e l) (hx : x ∈ l) :
    b ≤ x ∧ next x ≤ e := by
  induction l generalizing b with
  | nil => exact absurd hx List.not_mem_nil
  | cons c l ih =>
    obtain ⟨rfl, hl⟩ := h
    rcases List.mem_cons.mp hx with rfl | hx
    · exact ⟨le_rfl, hl.le hnext⟩
    · have := ih hl hx
      exact ⟨le_trans (le_of_lt (hnext b)) this.1, this.2⟩

/-- A block ends before every block that follows it in the list starts. -/
theorem Tiles.pairwise {b e : Nat} {l : List Nat} (h : Tiles next b e l) :
    l.Pairwise fun x y => next x ≤ y := by
  induction l generalizing b with
  | nil => exact .nil
  | cons c l ih =>
    obtain ⟨rfl, hl⟩ := h
    exact List.pairwise_cons.mpr ⟨fun y hy => (hl.le_of_mem hnext hy).1, ih hl⟩

theorem Tiles.nodup {b e : Nat} {l : List Nat} (h : Tiles next b e l) : l.Nodup :=
  (h.pairwise hnext).imp fun hxy => ne_of_lt (lt_of_lt_of_le (hnext _) hxy)

/-- Two blocks of the tiling are the same or do not overlap. -/
theorem Tiles.disjoint {b e x y : Nat} {l : List Nat} (h : Tiles next b e l) (hx : x ∈ l) (hy : y ∈ l) :
    x = y ∨ next x ≤ y ∨ next y ≤ x := by
  induction l generalizing b with
  | nil => exact absurd hx List.not_mem_nil
  | cons c l ih =>
    obtain ⟨rfl, hl⟩ := h
    rcases List.mem_cons.mp hx with rfl | hxl <;> rcases List.mem_cons.mp hy with rfl | hyl
    · exact .inl rfl
    · exact .inr (.inl (hl.le_of_mem hnext hyl).1)
    · exact .inr (.inr (hl.le_of_mem hnext hxl).1)
    · exact ih hl hxl hyl

/-- No block starts inside another, nor does the end. -/
theorem Tiles.not_mem_of_lt {b e x y : Nat} {l : List Nat} (h : Tiles next b e l) (hx : x ∈ l)
    (hxy : x < y) (hy : y < next x) : y ∉ l ∧ y ≠ e := by
  refine ⟨fun hyl => ?_, fun hye => ?_⟩
  · rcases h.disjoint hnext hx hyl with rfl | h1 | h1
    · exact lt_irrefl x hxy
    · exact absurd hy (not_lt.mpr h1)
    · exact absurd (lt_trans hxy (hnext y)) (not_lt.mpr h1)
  · have := (h.le_of_mem hnext hx).2
    omega

/-- Two blocks that end at the same place are the same. -/
theorem Tiles.next_inj {b e x y : Nat} {l : List Nat} (h : Tiles next b e l) (hx : x ∈ l) (hy : y ∈ l)
    (hxy : next x = next y) : x = y := by
  rcases h.disjoint hnext hx hy with hxy' | h1 | h1
  · exact hxy'
  · exact absurd (hxy ▸ h1) (not_le.mpr (hnext y))
  · exact absurd (hxy ▸ h1) (not_le.mpr (hnext x))

/-- A start and an end fix the tiling between them. -/
theorem Tiles.unique {b e : Nat} {l l' : List Nat} (h : Tiles next b e l) (h' : Tiles next b e l') : l = l' := by
  induction l generalizing b l' with
  | nil =>
    cases l' with
    | nil => rfl
    | cons c t =>
      -- a block ends past its start, so a tiling that ends where it starts is empty
      obtain ⟨rfl, ht⟩ := h'
      exact absurd (ht.le hnext) (not_le.mpr (h ▸ hnext b))
  | cons c t ih =>
    obtain ⟨rfl, ht⟩ := h
    cases l' with
    | nil => exact absurd (ht.le hnext) (not_le.mpr (h' ▸ hnext b))
    | cons c' t' =>
      obtain ⟨rfl, ht'⟩ := h'
      rw [ih ht ht']

end Order

/-! ## Splitting and merging -/

/-- Splitting block `x` at `m`: `x` now ends at `m`, and `m` ends where `x` ended. -/
theorem Tiles.split {b e x m : Nat} {pre post : List Nat} (h : Tiles next b e (pre ++ x :: post))
    (hx : next' x = m) (hm : next' m = next x) (hpre : ∀ c ∈ pre, next' c = next c)
    (hpost : ∀ c ∈ post, next' c = next c) : Tiles next' b e (pre ++ x :: m :: post) := by
  obtain ⟨s, h₁, rfl, h₂⟩ := Tiles.append_iff.mp h
  refine Tiles.append_iff.mpr ⟨s, h₁.frame hpre, rfl, hx ▸ rfl, ?_⟩
  rw [hm]
  exact h₂.frame hpost

/-- Merging block `y` into the block `x` before it: `x` now ends where `y` ended. -/
theorem Tiles.merge {b e x y : Nat} {pre post : List Nat} (h : Tiles next b e (pre ++ x :: y :: post))
    (hx : next' x = next y) (hpre : ∀ c ∈ pre, next' c = next c) (hpost : ∀ c ∈ post, next' c = next c) :
    Tiles next' b e (pre ++ x :: post) := by
  obtain ⟨s, h₁, rfl, -, h₂⟩ := Tiles.append_iff.mp h
  refine Tiles.append_iff.mpr ⟨s, h₁.frame hpre, rfl, ?_⟩
  rw [hx]
  exact h₂.frame hpost

end Tiling
