import AliosThings.Vfs.Tables

/-!
# The queries of the inode table

`inode_alloc` and `inode_open` scan `g_vfs_dev_nodes` from index `0` and stop at the
first inode their test takes, so each returns the least such index; `inode_open` takes
a name equal to the path, or for a file system a name followed by `/` that begins it.
`inode_avail_count` scans the same array, but it tests `g_vfs_dev_nodes[count]`, the
element at its running count, not at the loop index: it counts the free inodes in
front of the first used one. That is the number of free inodes exactly when no free
inode follows a used one.
-/

namespace Vfs

/-! ### A loop that indexes with its counter -/

/-- The invariant of a fold, indexed by the number of iterations done. -/
theorem foldl_invariant_indexed {α β : Type*} (f : β → α → β) (P : Nat → β → Prop)
    (step : ∀ j b x, P j b → P (j + 1) (f b x)) :
    ∀ (l : List α) {j : Nat} {b : β}, P j b → P (j + l.length) (l.foldl f b) := by
  intro l
  induction l with
  | nil => intro j b h; exact h
  | cons x l ih =>
    intro j b h
    rw [List.foldl_cons, List.length_cons, ← Nat.add_assoc, Nat.add_right_comm]
    exact ih (step j b x h)

section LeadingRun

variable (p : Nat → Prop) [DecidablePred p]

/-- After `j` iterations of a loop that tests the element at its own count, the count
`c` is the length of the run of passing elements at the front, stopped at `j`. -/
def LeadingRun (j c : Nat) : Prop :=
  c ≤ j ∧ (∀ i < c, p i) ∧ (c < j → ¬ p c)

theorem leadingRun_step {j c : Nat} (h : LeadingRun p j c) :
    LeadingRun p (j + 1) (if p c then c + 1 else c) := by
  obtain ⟨hle, hrun, hstop⟩ := h
  split
  · next hc =>
    -- the element at the count passes, so the count never stopped before
    have hj : c = j := by
      by_contra hne
      exact hstop (by omega) hc
    refine ⟨by omega, fun i hi => ?_, by omega⟩
    rcases Nat.lt_succ_iff_lt_or_eq.mp hi with hi | rfl
    · exact hrun i hi
    · exact hc
  · next hc => exact ⟨by omega, hrun, fun _ => hc⟩

/-- The count is the least failing index below `n`, or `n`. -/
theorem leadingRun_foldl {α : Type*} (l : List α) :
    LeadingRun p l.length (l.foldl (fun c _ => if p c then c + 1 else c) 0) := by
  have h := foldl_invariant_indexed (fun c (_ : α) => if p c then c + 1 else c) (LeadingRun p)
    (fun _ _ _ h => leadingRun_step p h) l (j := 0) ⟨le_refl 0, fun i hi => absurd hi (Nat.not_lt_zero i), by omega⟩
  rwa [Nat.zero_add] at h

/-- The leading run is the number of passing indices below `n` exactly when no passing
index follows a failing one. -/
theorem leadingRun_eq_card_iff {n c : Nat} (h : LeadingRun p n c) :
    c = ((Finset.range n).filter p).card ↔ ∀ d e, d < e → e < n → p e → p d := by
  obtain ⟨hle, hrun, hstop⟩ := h
  have hsub : Finset.range c ⊆ (Finset.range n).filter p := fun i hi => by
    rw [Finset.mem_range] at hi
    exact Finset.mem_filter.mpr ⟨Finset.mem_range.mpr (by omega), hrun i hi⟩
  constructor
  · intro hc d e hde hen he
    by_contra hd
    -- `d` fails, so the run stops at or before it, and `e` passes past the run
    have hcd : c ≤ d := by
      by_contra hlt
      exact hd (hrun d (by omega))
    have hnot : e ∉ Finset.range c := by
      rw [Finset.mem_range]
      omega
    have hins : insert e (Finset.range c) ⊆ (Finset.range n).filter p := by
      rw [Finset.insert_subset_iff]
      exact ⟨Finset.mem_filter.mpr ⟨Finset.mem_range.mpr hen, he⟩, hsub⟩
    have hcard := Finset.card_le_card hins
    rw [Finset.card_insert_of_notMem hnot, Finset.card_range] at hcard
    omega
  · intro hmono
    -- every passing index lies in the run
    have heq : (Finset.range n).filter p = Finset.range c := by
      refine Finset.Subset.antisymm (fun e he => ?_) hsub
      obtain ⟨hen, hpe⟩ := Finset.mem_filter.mp he
      rw [Finset.mem_range] at hen ⊢
      by_contra hce
      rcases Nat.lt_or_ge c e with hlt | hge
      · exact hstop (by omega) (hmono c e hlt hen hpe)
      · exact hstop (by omega) (by rwa [show c = e by omega])
    rw [heq, Finset.card_range]

end LeadingRun

/-! ### The three queries -/

namespace Tables

variable (s : Tables)

/-- `inode_avail_count`: the loop runs `e` over the table but tests
`g_vfs_dev_nodes[count]`. -/
def inodeAvailCount : Nat :=
  (List.range aosConfigVfsDevNodes).foldl
    (fun count _ => if (s.nodes count).type = .notInit then count + 1 else count) 0

/-- The number of free inodes, which `inode_avail_count` is meant to return. -/
def inodeFreeCount : Nat :=
  ((Finset.range aosConfigVfsDevNodes).filter fun e => (s.nodes e).type = .notInit).card

/-- What `inode_open` is meant to find: an inode named `path`, or a file system whose
name followed by `/` begins `path`. -/
def Qualifies (n : Inode) (path : List Char) : Prop :=
  ∃ name, n.name = some name ∧ (name = path ∨ (n.type = .fsDev ∧ name ++ ['/'] <+: path))

theorem inodeAvailCount_leadingRun :
    LeadingRun (fun e => (s.nodes e).type = .notInit) aosConfigVfsDevNodes s.inodeAvailCount := by
  have h := leadingRun_foldl (fun e => (s.nodes e).type = .notInit) (List.range aosConfigVfsDevNodes)
  rwa [List.length_range] at h

/-- A name and a `/` begin the path exactly when the name is a prefix and the byte
after it is `/`, the two tests of `inode_open`. -/
theorem append_slash_prefix_iff (name path : List Char) :
    name ++ ['/'] <+: path ↔ name <+: path ∧ path[name.length]? = some '/' := by
  constructor
  · rintro ⟨t, rfl⟩
    refine ⟨⟨['/'] ++ t, by rw [List.append_assoc]⟩, ?_⟩
    simp
  · rintro ⟨⟨t, rfl⟩, hslash⟩
    rw [List.getElem?_append_right (le_refl _), Nat.sub_self] at hslash
    obtain ⟨t', rfl⟩ : ∃ t', t = '/' :: t' := by
      cases t with
      | nil => cases hslash
      | cons c t' =>
        cases hslash
        exact ⟨t', rfl⟩
    exact ⟨t', by simp⟩

theorem nameMatches_iff (n : Inode) (path : List Char) : nameMatches n path = true ↔ Qualifies n path := by
  unfold nameMatches Qualifies
  cases hname : n.name with
  | none => simp
  | some name =>
    simp only [Option.some.injEq, exists_eq_left', Bool.or_eq_true, Bool.and_eq_true, beq_iff_eq,
      List.isPrefixOf_iff_prefix, append_slash_prefix_iff]
    tauto

theorem inodeAlloc_eq_some_iff {e : Nat} :
    s.inodeAlloc = some e ↔
      e < aosConfigVfsDevNodes ∧ (s.nodes e).type = .notInit ∧ ∀ d < e, (s.nodes d).type ≠ .notInit := by
  unfold inodeAlloc
  rw [List.find?_range_eq_some, List.mem_range]
  simp only [beq_iff_eq, Bool.not_eq_true', beq_eq_false_iff_ne, ne_eq]
  tauto

theorem inodeAlloc_eq_none_iff :
    s.inodeAlloc = none ↔ ∀ e < aosConfigVfsDevNodes, (s.nodes e).type ≠ .notInit := by
  unfold inodeAlloc
  rw [List.find?_range_eq_none]
  simp only [Bool.not_eq_true', beq_eq_false_iff_ne]

theorem inodeOpen_eq_some_iff {path : List Char} {e : Nat} :
    s.inodeOpen path = some e ↔
      e < aosConfigVfsDevNodes ∧ Qualifies (s.nodes e) path ∧ ∀ d < e, ¬ Qualifies (s.nodes d) path := by
  unfold inodeOpen
  rw [List.find?_range_eq_some, List.mem_range, nameMatches_iff]
  simp only [Bool.not_eq_true', ← Bool.not_eq_true, nameMatches_iff]
  tauto

theorem inodeOpen_eq_none_iff {path : List Char} :
    s.inodeOpen path = none ↔ ∀ e < aosConfigVfsDevNodes, ¬ Qualifies (s.nodes e) path := by
  unfold inodeOpen
  rw [List.find?_range_eq_none]
  simp only [Bool.not_eq_true', ← Bool.not_eq_true, nameMatches_iff]

end Tables

open Tables

/-- Two drivers registered, and the first one unregistered: inode `0` is free again
and inode `1` is used. -/
def dropFirstDriver : List (Nat × Step) :=
  [(0, .registerDriver "/dev/a".toList true), (0, .registerDriver "/dev/b".toList true),
   (0, .unregisterDriver "/dev/a".toList)]

set_option maxRecDepth 4000 in
theorem dropFirstDriver_counts :
    (Machine.exec vfsStep vfsInit dropFirstDriver).inodeAvailCount = 1 ∧
      (Machine.exec vfsStep vfsInit dropFirstDriver).inodeFreeCount = 24 :=
  ⟨by decide, by decide⟩

/-- `inode_alloc` and `inode_open` return the least inode their description asks for,
and nothing exactly when there is none; `inode_avail_count` returns the number of free
inodes exactly when no free inode follows a used one, so after `dropFirstDriver` it
counts `1` of the `24` free inodes. -/
theorem inodeAvailCount_counts_leading_run :
    (∀ s : Tables, s.inodeAvailCount = s.inodeFreeCount ↔
      ∀ d e, d < e → e < aosConfigVfsDevNodes → (s.nodes e).type = .notInit → (s.nodes d).type = .notInit) ∧
    (∀ (s : Tables) e, s.inodeAlloc = some e ↔
      e < aosConfigVfsDevNodes ∧ (s.nodes e).type = .notInit ∧ ∀ d < e, (s.nodes d).type ≠ .notInit) ∧
    (∀ s : Tables, s.inodeAlloc = none ↔ ∀ e < aosConfigVfsDevNodes, (s.nodes e).type ≠ .notInit) ∧
    (∀ (s : Tables) path e, s.inodeOpen path = some e ↔
      e < aosConfigVfsDevNodes ∧ Qualifies (s.nodes e) path ∧ ∀ d < e, ¬ Qualifies (s.nodes d) path) ∧
    (∀ (s : Tables) path, s.inodeOpen path = none ↔ ∀ e < aosConfigVfsDevNodes, ¬ Qualifies (s.nodes e) path) ∧
    (Machine.exec vfsStep vfsInit dropFirstDriver).inodeAvailCount = 1 ∧
      (Machine.exec vfsStep vfsInit dropFirstDriver).inodeFreeCount = 24 :=
  ⟨fun s => leadingRun_eq_card_iff _ s.inodeAvailCount_leadingRun, fun s _ => s.inodeAlloc_eq_some_iff,
    fun s => s.inodeAlloc_eq_none_iff, fun s _ _ => s.inodeOpen_eq_some_iff, fun s _ => s.inodeOpen_eq_none_iff,
    dropFirstDriver_counts⟩

end Vfs
