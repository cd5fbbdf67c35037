import Mathlib

/-!
# Flat memory, contiguous copies and circular regions

A memory is a total function from addresses to cells. `writeAt` and `readAt`
are the two directions of `memcpy` between a memory and a list of cells;
`ringWrite` and `ringRead` are the same copies taken modulo a region size `N`,
the view a circular buffer gives of the addresses `0, …, N-1`.

The lemmas relate the two views: a contiguous copy that stays below `N` is a
circular copy, consecutive circular copies compose, and a circular copy
placed right after a circular region extends that region by the copied cells.
Only addresses below `N` are compared: what lies above the region is never
read through `ringRead`.
-/

namespace RingMemory

variable {α : Type*}

/-- Copy `bs` to the addresses `off, off + 1, …`. -/
def writeAt (mem : Nat → α) (off : Nat) (bs : List α) : Nat → α :=
  fun i => if off ≤ i then (bs[i - off]?).getD (mem i) else mem i

/-- The `n` cells at addresses `off, off + 1, …`. -/
def readAt (mem : Nat → α) (off n : Nat) : List α :=
  (List.range n).map fun k => mem (off + k)

/-- Copy `bs` to the addresses `p, p + 1, …` taken modulo `N`. -/
def ringWrite (mem : Nat → α) (N p : Nat) (bs : List α) : Nat → α :=
  fun i => if i < N then (bs[(i + N - p % N) % N]?).getD (mem i) else mem i

/-- The `n` cells at addresses `p, p + 1, …` taken modulo `N`. -/
def ringRead (mem : Nat → α) (N p n : Nat) : List α :=
  (List.range n).map fun k => mem ((p + k) % N)

/-- Two memories that agree on the region `0, …, N-1`. -/
def EqBelow (N : Nat) (f g : Nat → α) : Prop :=
  ∀ i, i < N → f i = g i

@[simp] theorem readAt_length (mem : Nat → α) (off n : Nat) :
    (readAt mem off n).length = n := by
  simp [readAt]

@[simp] theorem ringRead_length (mem : Nat → α) (N p n : Nat) :
    (ringRead mem N p n).length = n := by
  simp [ringRead]

@[simp] theorem ringRead_zero (mem : Nat → α) (N p : Nat) : ringRead mem N p 0 = [] := rfl

@[simp] theorem readAt_zero (mem : Nat → α) (off : Nat) : readAt mem off 0 = [] := rfl

theorem mod_of_lt_two {x N : Nat} (h : x < 2 * N) :
    x % N = if x < N then x else x - N := by
  split
  · exact Nat.mod_eq_of_lt ‹_›
  · rw [Nat.mod_eq_sub_mod (by omega), Nat.mod_eq_of_lt (by omega)]

theorem eqBelow_refl (N : Nat) (f : Nat → α) : EqBelow N f f := fun _ _ => rfl

theorem EqBelow.trans {N : Nat} {f g h : Nat → α} (hfg : EqBelow N f g)
    (hgh : EqBelow N g h) : EqBelow N f h :=
  fun i hi => (hfg i hi).trans (hgh i hi)

theorem EqBelow.symm {N : Nat} {f g : Nat → α} (h : EqBelow N f g) : EqBelow N g f :=
  fun i hi => (h i hi).symm

theorem ringRead_add (mem : Nat → α) (N p n m : Nat) :
    ringRead mem N p (n + m) = ringRead mem N p n ++ ringRead mem N (p + n) m := by
  simp only [ringRead, List.range_add, List.map_append, List.map_map]
  congr 1
  apply List.map_congr_left
  intro k _
  simp [Nat.add_assoc]

/-- A region read as the concatenation of two lists is read as each part in turn. -/
theorem ringRead_add_eq {mem : Nat → α} {N p n m : Nat} {xs ys : List α}
    (h : ringRead mem N p (n + m) = xs ++ ys) (hx : xs.length = n) :
    ringRead mem N p n = xs ∧ ringRead mem N (p + n) m = ys := by
  rw [ringRead_add] at h
  exact List.append_inj h (by simp [hx])

theorem ringRead_one (mem : Nat → α) (N p : Nat) : ringRead mem N p 1 = [mem (p % N)] := by
  simp [ringRead]

theorem ringRead_mod (mem : Nat → α) (N p n : Nat) :
    ringRead mem N (p % N) n = ringRead mem N p n := by
  simp only [ringRead]
  apply List.map_congr_left
  intro k _
  simp

theorem ringRead_congr {N : Nat} {f g : Nat → α} (hN : 0 < N) (h : EqBelow N f g)
    (p n : Nat) : ringRead f N p n = ringRead g N p n := by
  simp only [ringRead]
  apply List.map_congr_left
  intro k _
  exact h _ (Nat.mod_lt _ hN)

theorem readAt_eq_ringRead {mem : Nat → α} {N off n : Nat} (h : off + n ≤ N) :
    readAt mem off n = ringRead mem N off n := by
  simp only [readAt, ringRead]
  apply List.map_congr_left
  intro k hk
  rw [List.mem_range] at hk
  rw [Nat.mod_eq_of_lt (by omega)]

theorem writeAt_congr {N : Nat} {f g : Nat → α} (h : EqBelow N f g) (off : Nat)
    (bs : List α) : EqBelow N (writeAt f off bs) (writeAt g off bs) := by
  intro i hi
  simp only [writeAt, h i hi]

theorem ringWrite_congr {N : Nat} {f g : Nat → α} (h : EqBelow N f g) (p : Nat)
    (bs : List α) : EqBelow N (ringWrite f N p bs) (ringWrite g N p bs) := by
  intro i hi
  simp only [ringWrite, h i hi]

@[simp] theorem ringWrite_mod (mem : Nat → α) (N p : Nat) (bs : List α) :
    ringWrite mem N (p % N) bs = ringWrite mem N p bs := by
  funext i
  simp [ringWrite]

@[simp] theorem writeAt_nil (mem : Nat → α) (off : Nat) : writeAt mem off [] = mem := by
  funext i
  simp [writeAt]

theorem ringWrite_nil (mem : Nat → α) (N p : Nat) : EqBelow N (ringWrite mem N p []) mem := by
  intro i hi
  simp [ringWrite, hi]

/-- A copy that ends at or before `N` is the circular copy at the same place. -/
theorem writeAt_eq_ringWrite {mem : Nat → α} {N off : Nat} {bs : List α}
    (h : off + bs.length ≤ N) : EqBelow N (writeAt mem off bs) (ringWrite mem N off bs) := by
  intro i hi
  cases bs with
  | nil => simp [writeAt, ringWrite]
  | cons b bs =>
    simp only [List.length_cons] at h
    simp only [writeAt, ringWrite, hi, if_true, Nat.mod_eq_of_lt (show off < N by omega)]
    by_cases hle : off ≤ i
    · rw [if_pos hle, Nat.mod_eq_sub_mod (by omega), Nat.mod_eq_of_lt (by omega)]
      congr 2
      omega
    · rw [if_neg hle, List.getElem?_eq_none]
      · simp
      · rw [mod_of_lt_two (by omega)]
        split <;> simp only [List.length_cons] <;> omega

/-- The offset of address `i` from the start `p` of a circular copy. -/
theorem ring_offset {N i : Nat} (p : Nat) (hi : i < N) :
    (i + N - p % N) % N = if p % N ≤ i then i - p % N else i + N - p % N := by
  have hr : p % N < N := Nat.mod_lt _ (by omega)
  rw [mod_of_lt_two (by omega)]
  split_ifs <;> omega

/-- Circular copies of `xs` and then of `ys` right after it are one copy of `xs ++ ys`. -/
theorem ringWrite_append {mem : Nat → α} {N : Nat} (p : Nat) {xs ys : List α}
    (h : xs.length + ys.length ≤ N) :
    EqBelow N (ringWrite mem N p (xs ++ ys))
      (ringWrite (ringWrite mem N p xs) N (p + xs.length) ys) := by
  intro i hi
  have hr : p % N < N := Nat.mod_lt _ (by omega)
  obtain ⟨d, hd, hdN⟩ : ∃ d, (i + N - p % N) % N = d ∧ d < N :=
    ⟨_, rfl, Nat.mod_lt _ (by omega)⟩
  -- the offset of `i` from the start of `ys` is that from the start of `xs`, less `xs.length`
  have he : (i + N - (p + xs.length) % N) % N =
      if xs.length ≤ d then d - xs.length else d + N - xs.length := by
    rw [ring_offset _ hi] at hd
    rw [ring_offset _ hi, ← Nat.mod_add_mod, mod_of_lt_two (by omega)]
    split_ifs at hd ⊢ <;> omega
  simp only [ringWrite, hi, if_true, hd, he]
  by_cases hdx : d < xs.length
  · rw [if_neg (by omega), List.getElem?_append_left hdx,
      List.getElem?_eq_none (show ys.length ≤ d + N - xs.length by omega)]
    rfl
  · rw [if_pos (by omega), List.getElem?_append_right (by omega),
      List.getElem?_eq_none (l := xs) (by omega)]
    simp

/-- A circular copy placed right after a region of `n` cells extends the region by
the copied cells. -/
theorem ringRead_ringWrite {mem : Nat → α} {N p q n : Nat} {bs : List α} (hN : 0 < N)
    (hfit : n + bs.length ≤ N) (hpos : p % N = (q + n) % N) :
    ringRead (ringWrite mem N p bs) N q (n + bs.length) = ringRead mem N q n ++ bs := by
  have hq : q % N < N := Nat.mod_lt _ hN
  -- the offset from `p` of the `k`-th cell of the region read from `q`
  have hoff : ∀ k, k < N → ((q + k) % N + N - p % N) % N =
      if n ≤ k then k - n else k + N - n := by
    intro k hk
    rw [ring_offset _ (Nat.mod_lt _ hN), hpos, ← Nat.mod_add_mod q N k, ← Nat.mod_add_mod q N n,
      mod_of_lt_two (show q % N + k < 2 * N by omega),
      mod_of_lt_two (show q % N + n < 2 * N by omega)]
    split_ifs <;> omega
  rw [ringRead_add]
  congr 1
  · simp only [ringRead]
    apply List.map_congr_left
    intro k hk
    rw [List.mem_range] at hk
    simp only [ringWrite, Nat.mod_lt _ hN, if_true, hoff k (by omega), if_neg (show ¬ n ≤ k by omega)]
    rw [List.getElem?_eq_none (by omega)]
    rfl
  · apply List.ext_getElem (by simp)
    intro k hk _
    simp only [ringRead_length] at hk
    simp only [ringRead, List.getElem_map, List.getElem_range, ringWrite, Nat.mod_lt _ hN, if_true]
    rw [Nat.add_assoc, hoff (n + k) (by omega), if_pos (by omega), Nat.add_sub_cancel_left,
      List.getElem?_eq_getElem hk]
    rfl

/-- A copy that is split at `N` when `sp` holds, its first `s` cells ending at `N` and
the rest starting over at `0`, is one circular copy. -/
theorem writeAt_split {mem : Nat → α} {N x s : Nat} {bs : List α} (sp : Prop) [Decidable sp]
    (hs : s = if sp then N - x else 0) (hlen : bs.length ≤ N)
    (hsp : sp → x < N ∧ N - x < bs.length) (hnsp : ¬ sp → x + bs.length ≤ N) :
    EqBelow N (writeAt (if sp then writeAt mem x (bs.take s) else mem)
      (if sp then 0 else x) (bs.drop s)) (ringWrite mem N x bs) := by
  subst hs
  by_cases h : sp
  · obtain ⟨hx, hlt⟩ := hsp h
    simp only [h, if_true]
    have h1 : EqBelow N (writeAt mem x (bs.take (N - x))) (ringWrite mem N x (bs.take (N - x))) :=
      writeAt_eq_ringWrite (by simp; omega)
    have h2 : EqBelow N (writeAt (writeAt mem x (bs.take (N - x))) 0 (bs.drop (N - x)))
        (ringWrite (writeAt mem x (bs.take (N - x))) N 0 (bs.drop (N - x))) :=
      writeAt_eq_ringWrite (by simp; omega)
    have h3 : EqBelow N (ringWrite mem N x (bs.take (N - x) ++ bs.drop (N - x)))
        (ringWrite (ringWrite mem N x (bs.take (N - x))) N (x + (bs.take (N - x)).length)
          (bs.drop (N - x))) :=
      ringWrite_append x (by simp; omega)
    have hpos : (x + (bs.take (N - x)).length) % N = 0 := by
      simp [Nat.min_eq_left (show N - x ≤ bs.length by omega), Nat.add_sub_cancel' hx.le]
    rw [List.take_append_drop] at h3
    rw [← ringWrite_mod _ N (x + _), hpos] at h3
    exact h2.trans ((ringWrite_congr h1 0 _).trans h3.symm)
  · simp only [h, if_false, List.drop_zero]
    exact writeAt_eq_ringWrite (hnsp h)

/-- A read that is split at `N` when `sp` holds is one circular read. -/
theorem readAt_split (mem : Nat → α) {N x s n : Nat} (sp : Prop) [Decidable sp]
    (hs : s = if sp then N - x else 0) (hn : n ≤ N)
    (hsp : sp → x < N ∧ N - x < n) (hnsp : ¬ sp → x + n ≤ N) :
    (if sp then readAt mem x s else []) ++
      readAt mem (if sp then 0 else x) (n - s) = ringRead mem N x n := by
  subst hs
  by_cases h : sp
  · obtain ⟨hx, hlt⟩ := hsp h
    simp only [h, if_true]
    have hn : n = (N - x) + (n - (N - x)) := by omega
    conv => rhs; rw [hn]
    rw [ringRead_add, @readAt_eq_ringRead _ mem N x (N - x) (by omega),
      @readAt_eq_ringRead _ mem N 0 (n - (N - x)) (by omega),
      ← ringRead_mod mem N (x + (N - x)),
      Nat.add_sub_cancel' hx.le, Nat.mod_self]
  · simp only [h, if_false, List.nil_append, Nat.sub_zero]
    exact readAt_eq_ringRead (hnsp h)

/-- Where a split copy of `n` cells ends. -/
theorem split_end {N x s n : Nat} (sp : Prop) [Decidable sp]
    (hs : s = if sp then N - x else 0) (hn : n ≤ N)
    (hsp : sp → x < N ∧ N - x < n) (hnsp : ¬ sp → x + n ≤ N) :
    (if sp then 0 else x) + (n - s) ≤ N ∧
      ((if sp then 0 else x) + (n - s)) % N = (x + n) % N := by
  subst hs
  by_cases h : sp
  · obtain ⟨hx, hlt⟩ := hsp h
    simp only [h, if_true]
    refine ⟨by omega, ?_⟩
    rw [mod_of_lt_two (show 0 + (n - (N - x)) < 2 * N by omega),
      mod_of_lt_two (show x + n < 2 * N by omega)]
    split_ifs <;> omega
  · simp only [h, if_false, Nat.sub_zero]
    exact ⟨hnsp h, trivial⟩

/-! ### Contiguous copies -/

/-- The memory a pointer to the cells of `l` gives: `d` past its end. -/
def ofList (l : List α) (d : α) : Nat → α :=
  fun i => l.getD i d

/-- The memory holds `bs` at `off`. -/
def Stores (mem : Nat → α) (off : Nat) (bs : List α) : Prop :=
  readAt mem off bs.length = bs

theorem readAt_add (mem : Nat → α) (off n m : Nat) :
    readAt mem off (n + m) = readAt mem off n ++ readAt mem (off + n) m := by
  simp only [readAt, List.range_add, List.map_append, List.map_map]
  congr 1
  apply List.map_congr_left
  intro k _
  simp [Nat.add_assoc]

@[simp] theorem readAt_ofList (l : List α) (d : α) : readAt (ofList l d) 0 l.length = l := by
  apply List.ext_getElem (by simp)
  intro i _ hi
  simp [readAt, ofList, List.getElem?_eq_getElem hi]

/-- A pointer to `l ++ r` reads `l` first. -/
theorem readAt_ofList_append (l r : List α) (d : α) : readAt (ofList (l ++ r) d) 0 l.length = l := by
  apply List.ext_getElem (by simp)
  intro i _ hi
  simp [readAt, ofList, List.getElem?_append_left hi, List.getElem?_eq_getElem hi]

@[simp] theorem stores_nil (mem : Nat → α) (off : Nat) : Stores mem off [] := rfl

theorem stores_append {mem : Nat → α} {off : Nat} {xs ys : List α} :
    Stores mem off (xs ++ ys) ↔ Stores mem off xs ∧ Stores mem (off + xs.length) ys := by
  unfold Stores
  rw [List.length_append, readAt_add]
  constructor
  · intro h
    exact List.append_inj h (by simp)
  · rintro ⟨h₁, h₂⟩
    rw [h₁, h₂]

theorem stores_cons {mem : Nat → α} {off : Nat} {b : α} {bs : List α} :
    Stores mem off (b :: bs) ↔ mem off = b ∧ Stores mem (off + 1) bs := by
  rw [← List.singleton_append, stores_append]
  simp [Stores, readAt]

theorem Stores.apply {mem : Nat → α} {off : Nat} {bs : List α} (h : Stores mem off bs) {i : Nat}
    (hi : i < bs.length) : mem (off + i) = bs[i] := by
  have := List.getElem_of_eq h (by simpa [readAt] using hi)
  simpa [readAt] using this

theorem writeAt_apply_of_lt (mem : Nat → α) {off i : Nat} (bs : List α) (h : i < off) :
    writeAt mem off bs i = mem i := by
  simp [writeAt, Nat.not_le.mpr h]

theorem writeAt_apply_of_le (mem : Nat → α) {off i : Nat} (bs : List α) (h : off + bs.length ≤ i) :
    writeAt mem off bs i = mem i := by
  simp [writeAt, show off ≤ i by omega, List.getElem?_eq_none (show bs.length ≤ i - off by omega)]

theorem stores_writeAt (mem : Nat → α) (off : Nat) (bs : List α) : Stores (writeAt mem off bs) off bs := by
  apply List.ext_getElem (by simp)
  intro i _ hi
  simp [readAt, writeAt, List.getElem?_eq_getElem hi]

/-- A copy placed at or after the end of a stored list leaves it stored. -/
theorem Stores.writeAt_of_le {mem : Nat → α} {off p : Nat} {bs : List α} (h : Stores mem off bs)
    (hle : off + bs.length ≤ p) (cs : List α) : Stores (writeAt mem p cs) off bs := by
  unfold Stores at h ⊢
  rw [← h, readAt_length]
  simp only [readAt]
  apply List.map_congr_left
  intro k hk
  rw [writeAt_apply_of_lt _ _ (by simp at hk; omega)]

/-- Two copies side by side are one copy of both. -/
theorem writeAt_append (mem : Nat → α) (off : Nat) (xs ys : List α) :
    writeAt (writeAt mem off xs) (off + xs.length) ys = writeAt mem off (xs ++ ys) := by
  funext i
  by_cases h₁ : off + xs.length ≤ i
  · simp [writeAt, h₁, show off ≤ i by omega, List.getElem?_append_right (show xs.length ≤ i - off by omega),
      List.getElem?_eq_none (show xs.length ≤ i - off by omega), Nat.sub_add_eq]
  · by_cases h₂ : off ≤ i
    · simp [writeAt, h₁, h₂, List.getElem?_append_left (show i - off < xs.length by omega)]
    · simp [writeAt, h₁, h₂]

/-- Writing back what a memory holds changes nothing. -/
theorem writeAt_readAt (mem : Nat → α) (off n : Nat) : writeAt mem off (readAt mem off n) = mem := by
  funext i
  by_cases h : off ≤ i
  · by_cases hi : i - off < n
    · simp [writeAt, readAt, h, hi, Nat.add_sub_cancel' h]
    · simp [writeAt, readAt, h, hi]
  · simp [writeAt, h]

/-- A short copy is the copy padded with the cells already behind it. -/
theorem writeAt_pad (mem : Nat → α) (off n : Nat) (bs : List α) :
    writeAt mem off (bs ++ readAt mem (off + bs.length) n) = writeAt mem off bs := by
  have hr : readAt mem (off + bs.length) n = readAt (writeAt mem off bs) (off + bs.length) n := by
    simp only [readAt]
    refine List.map_congr_left fun j _ => ?_
    rw [writeAt_apply_of_le]
    omega
  rw [hr, ← writeAt_append, writeAt_readAt]

end RingMemory
