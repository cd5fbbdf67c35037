import AliosThings.Rhino.Sched

/-!
# What the run queue represents

`RunQueue.Repr rq prio R` says that the run queue holds exactly the tasks of `R`:
each in the list of its priority `prio`, once; the bitmap marks the non-empty
lists; `highest_pri` is the first of them, or `RHINO_CONFIG_PRI_MAX` when there is
none. The operations of `k_sched.c` move tasks in and out of the set, and
`preferred_cpu_ready_task_get` then picks a task of `R` of the best priority.

Removing the last task empties the set and `krhino_find_first_bit` finds no bit:
the code stops in `k_err_proc` there, so `ready_list_rm` is only described when
another task stays.
-/

namespace Rhino

theorem rotateLeft_one_eq_rotate {α : Type} (l : List α) : l.rotateLeft 1 = l.rotate 1 := by
  match l with
  | [] => rfl
  | [_] => simp [List.rotateLeft]
  | a :: b :: rest => simp [List.rotateLeft, List.rotate_cons_succ]

namespace RunQueue

/-- The run queue holds the tasks of `R` by their priorities `prio`. -/
structure Repr (rq : RunQueue) (prio : Nat → Nat) (R : Nat → Prop) : Prop where
  mem : ∀ p t, t ∈ rq.curListItem p ↔ R t ∧ prio t = p
  nodup : ∀ p, (rq.curListItem p).Nodup
  bound : ∀ t, R t → prio t < rhinoConfigPriMax
  bit : ∀ p < 32 * numWords, Bitmap.test rq.taskBitMap p = !(rq.curListItem p).isEmpty
  highest_le : rq.highestPri ≤ rhinoConfigPriMax
  below : ∀ p < rq.highestPri, rq.curListItem p = []
  at_highest : rq.highestPri < rhinoConfigPriMax → rq.curListItem rq.highestPri ≠ []

/-- The empty run queue of `runqueue_init`. -/
theorem repr_init (prio : Nat → Nat) :
    Repr ⟨fun _ => [], fun _ => 0, rhinoConfigPriMax⟩ prio (fun _ => False) where
  mem := by simp
  nodup := by simp
  bound := by simp
  bit := by simp [Bitmap.test]
  highest_le := le_rfl
  below := by simp
  at_highest := by simp

variable {rq : RunQueue} {prio : Nat → Nat} {R : Nat → Prop}

theorem Repr.ne_nil_iff (h : Repr rq prio R) (p : Nat) :
    rq.curListItem p ≠ [] ↔ ∃ t, R t ∧ prio t = p := by
  constructor
  · intro hne
    obtain ⟨t, ht⟩ := List.exists_mem_of_ne_nil _ hne
    exact ⟨t, (h.mem p t).mp ht⟩
  · rintro ⟨t, ht, rfl⟩ hnil
    have := (h.mem _ t).mpr ⟨ht, rfl⟩
    rw [hnil] at this
    cases this

theorem Repr.nil_of_ge (h : Repr rq prio R) {p : Nat} (hp : rhinoConfigPriMax ≤ p) :
    rq.curListItem p = [] := by
  by_contra hne
  obtain ⟨t, ht, rfl⟩ := (h.ne_nil_iff p).mp hne
  exact absurd (h.bound t ht) (by omega)

/-- The set and the priorities may change where the queue does not see them. -/
theorem Repr.mono (h : Repr rq prio R) {prio' : Nat → Nat} {R' : Nat → Prop}
    (hR : ∀ t, R' t ↔ R t) (hp : ∀ t, R t → prio' t = prio t) : Repr rq prio' R' where
  mem p t := by
    rw [h.mem, hR]
    exact and_congr_right fun ht => by rw [hp t ht]
  nodup := h.nodup
  bound t ht := by
    rw [hp t ((hR t).mp ht)]
    exact h.bound t ((hR t).mp ht)
  bit := h.bit
  highest_le := h.highest_le
  below := h.below
  at_highest := h.at_highest

/-- Replacing the list of priority `p` by one that is empty exactly when it was. -/
theorem Repr.setList (h : Repr rq prio R) {p : Nat} {l : List Nat} {R' : Nat → Prop}
    (hmem : ∀ t, t ∈ l ↔ R' t ∧ prio t = p) (hR : ∀ t, prio t ≠ p → (R' t ↔ R t))
    (hnd : l.Nodup) (hne : l = [] ↔ rq.curListItem p = [])
    (hbound : ∀ t, R' t → prio t < rhinoConfigPriMax) :
    Repr { rq with curListItem := fun q => if q = p then l else rq.curListItem q } prio R' where
  mem q t := by
    by_cases hq : q = p
    · subst hq
      simpa using hmem t
    · simp only [hq, if_false, h.mem]
      constructor
      · rintro ⟨ht, rfl⟩
        exact ⟨(hR t hq).mpr ht, rfl⟩
      · rintro ⟨ht, rfl⟩
        exact ⟨(hR t hq).mp ht, rfl⟩
  nodup q := by
    by_cases hq : q = p
    · simpa [hq] using hnd
    · simpa [hq] using h.nodup q
  bound := hbound
  bit q hq := by
    rw [h.bit q hq]
    by_cases hqp : q = p
    · subst hqp
      simp only [if_true]
      rw [Bool.eq_iff_iff]
      simp [hne]
    · simp [hqp]
  highest_le := h.highest_le
  below q hq := by
    by_cases hqp : q = p
    · subst hqp
      simpa [hne] using h.below q hq
    · simpa [hqp] using h.below q hq
  at_highest hlt := by
    by_cases hqp : rq.highestPri = p
    · subst hqp
      simpa [hne] using h.at_highest hlt
    · simpa [hqp] using h.at_highest hlt

/-- `ready_list_init` puts a task into its empty list. -/
theorem Repr.readyListInit (h : Repr rq prio R) {t : Nat} (ht : ¬R t)
    (hp : prio t < rhinoConfigPriMax) (hempty : rq.curListItem (prio t) = []) :
    Repr (rq.readyListInit t (prio t)) prio (fun u => R u ∨ u = t) where
  mem q u := by
    simp only [RunQueue.readyListInit]
    by_cases hq : q = prio t
    · subst hq
      simp only [if_true, List.mem_singleton]
      constructor
      · rintro rfl
        exact ⟨Or.inr rfl, rfl⟩
      · rintro ⟨hu | rfl, hpu⟩
        · have := (h.mem _ u).mpr ⟨hu, hpu⟩
          rw [hempty] at this
          cases this
        · rfl
    · simp only [hq, if_false, h.mem]
      constructor
      · rintro ⟨hu, rfl⟩
        exact ⟨Or.inl hu, rfl⟩
      · rintro ⟨hu | rfl, rfl⟩
        · exact ⟨hu, rfl⟩
        · exact absurd rfl hq
  nodup q := by
    simp only [RunQueue.readyListInit]
    split
    · exact List.nodup_singleton t
    · exact h.nodup q
  bound u hu := by
    rcases hu with hu | rfl
    · exact h.bound u hu
    · exact hp
  bit q hq := by
    simp only [RunQueue.readyListInit, krhinoBitmapSet_eq, Bitmap.test_set, h.bit q hq]
    by_cases hqt : q = prio t <;> simp [hqt]
  highest_le := by
    simp only [RunQueue.readyListInit]
    split <;> omega
  below q hq := by
    simp only [RunQueue.readyListInit] at hq ⊢
    have hqt : q ≠ prio t := by split at hq <;> omega
    rw [if_neg hqt]
    exact h.below q (by split at hq <;> omega)
  at_highest hlt := by
    simp only [RunQueue.readyListInit] at hlt ⊢
    by_cases hpt : prio t < rq.highestPri
    · simp [hpt]
    · rw [if_neg hpt] at hlt ⊢
      by_cases hqt : rq.highestPri = prio t
      · simp [hqt]
      · simpa [hqt] using h.at_highest hlt

/-- `_ready_list_add_tail`. -/
theorem Repr.readyListAddTail (h : Repr rq prio R) {t : Nat} (ht : ¬R t)
    (hp : prio t < rhinoConfigPriMax) :
    Repr (rq.readyListAddTail t (prio t)) prio (fun u => R u ∨ u = t) := by
  unfold RunQueue.readyListAddTail
  split
  · rename_i hempty
    exact h.readyListInit ht hp (List.isEmpty_iff.mp hempty)
  · rename_i hne
    have hne' : rq.curListItem (prio t) ≠ [] := by simpa [RunQueue.isReadyListEmpty] using hne
    refine h.setList (fun u => ?_) (fun u hu => ?_) ?_ (by simp [hne']) ?_
    · rw [List.mem_append, h.mem, List.mem_singleton]
      constructor
      · rintro (⟨hu, hpu⟩ | rfl)
        · exact ⟨Or.inl hu, hpu⟩
        · exact ⟨Or.inr rfl, rfl⟩
      · rintro ⟨hu | rfl, hpu⟩
        · exact Or.inl ⟨hu, hpu⟩
        · exact Or.inr rfl
    · exact ⟨fun hu' => hu'.resolve_right (by rintro rfl; exact hu rfl), Or.inl⟩
    · refine List.nodup_append.mpr ⟨h.nodup _, List.nodup_singleton t, ?_⟩
      rintro a ha b hb rfl
      rw [List.mem_singleton] at hb
      subst hb
      exact ht ((h.mem _ a).mp ha).1
    · rintro u (hu | rfl)
      · exact h.bound u hu
      · exact hp

/-- `_ready_list_add_head`. -/
theorem Repr.readyListAddHead (h : Repr rq prio R) {t : Nat} (ht : ¬R t)
    (hp : prio t < rhinoConfigPriMax) :
    Repr (rq.readyListAddHead t (prio t)) prio (fun u => R u ∨ u = t) := by
  unfold RunQueue.readyListAddHead
  split
  · rename_i hempty
    exact h.readyListInit ht hp (List.isEmpty_iff.mp hempty)
  · rename_i hne
    have hne' : rq.curListItem (prio t) ≠ [] := by simpa [RunQueue.isReadyListEmpty] using hne
    refine h.setList (fun u => ?_) (fun u hu => ?_) ?_ (by simp [hne']) ?_
    · rw [List.mem_cons, h.mem]
      constructor
      · rintro (rfl | ⟨hu, hpu⟩)
        · exact ⟨Or.inr rfl, rfl⟩
        · exact ⟨Or.inl hu, hpu⟩
      · rintro ⟨hu | rfl, hpu⟩
        · exact Or.inr ⟨hu, hpu⟩
        · exact Or.inl rfl
    · exact ⟨fun hu' => hu'.resolve_right (by rintro rfl; exact hu rfl), Or.inl⟩
    · exact List.nodup_cons.mpr ⟨fun hmem => ht ((h.mem _ t).mp hmem).1, h.nodup _⟩
    · rintro u (hu | rfl)
      · exact h.bound u hu
      · exact hp

/-- `ready_list_add`, at the head or the tail. -/
theorem Repr.readyListAdd (h : Repr rq prio R) {t : Nat} (ht : ¬R t)
    (hp : prio t < rhinoConfigPriMax) (activePri : Nat) :
    Repr (rq.readyListAdd t (prio t) activePri) prio (fun u => R u ∨ u = t) := by
  unfold RunQueue.readyListAdd
  split
  · exact h.readyListAddTail ht hp
  · exact h.readyListAddHead ht hp

/-- The bits below 64 mark the non-empty lists also after the last task of
priority `p` has gone. -/
theorem Repr.test_clear (h : Repr rq prio R) {p q : Nat} (hq : q < 32 * numWords) :
    Bitmap.test (krhinoBitmapClear rq.taskBitMap p) q =
      !(if q = p then ([] : List Nat) else rq.curListItem q).isEmpty := by
  rw [krhinoBitmapClear_eq, Bitmap.test_clear, h.bit q hq]
  by_cases hqp : q = p <;> simp [hqp]

/-- `ready_list_rm` of a task of `R` while another task of `R` stays. -/
theorem Repr.readyListRm (h : Repr rq prio R) {t : Nat} (ht : R t) (hother : ∃ u, R u ∧ u ≠ t) :
    Repr (rq.readyListRm t (prio t)) prio (fun u => R u ∧ u ≠ t) := by
  have htmem : t ∈ rq.curListItem (prio t) := (h.mem _ t).mpr ⟨ht, rfl⟩
  have hR : ∀ u, prio u ≠ prio t → (R u ∧ u ≠ t ↔ R u) := fun u hu =>
    ⟨And.left, fun hu' => ⟨hu', by rintro rfl; exact hu rfl⟩⟩
  have hbound : ∀ u, R u ∧ u ≠ t → prio u < rhinoConfigPriMax := fun u hu => h.bound u hu.1
  by_cases hlen : 1 < (rq.curListItem (prio t)).length
  · -- other tasks of the priority stay: the task is unlinked
    simp only [RunQueue.readyListRm, hlen, if_true]
    refine h.setList (fun u => ?_) hR ((h.nodup _).erase t) ?_ hbound
    · rw [(h.nodup _).mem_erase_iff, h.mem]
      exact ⟨fun ⟨hne, hu, hp⟩ => ⟨⟨hu, hne⟩, hp⟩, fun ⟨⟨hu, hne⟩, hp⟩ => ⟨hne, hu, hp⟩⟩
    · have hlen' := List.length_erase_of_mem htmem
      constructor
      · intro he
        rw [he] at hlen'
        simp at hlen'
        omega
      · intro he
        rw [he] at hlen
        simp at hlen
  · -- the task was alone: its list empties and its bit is cleared
    simp only [RunQueue.readyListRm, hlen, if_false]
    have hone : rq.curListItem (prio t) = [t] := by
      match hl : rq.curListItem (prio t), htmem with
      | [u], hu => rw [List.mem_singleton.mp hu]
      | _ :: _ :: _, _ => rw [hl] at hlen; simp at hlen
    set L : Nat → List Nat := fun q => if q = prio t then [] else rq.curListItem q with hL
    have hmemL : ∀ q u, u ∈ L q ↔ (R u ∧ u ≠ t) ∧ prio u = q := by
      intro q u
      by_cases hq : q = prio t
      · subst hq
        simp only [hL, if_true, List.not_mem_nil, false_iff]
        rintro ⟨⟨hu, hne⟩, hpu⟩
        have := (h.mem _ u).mpr ⟨hu, hpu⟩
        rw [hone, List.mem_singleton] at this
        exact hne this
      · simp only [hL, hq, if_false, h.mem]
        constructor
        · rintro ⟨hu, rfl⟩
          exact ⟨(hR u hq).mpr hu, rfl⟩
        · rintro ⟨hu, rfl⟩
          exact ⟨hu.1, rfl⟩
    have hbitL : ∀ q < 32 * numWords,
        Bitmap.test (krhinoBitmapClear rq.taskBitMap (prio t)) q = !(L q).isEmpty :=
      fun q hq => h.test_clear hq
    -- the queue is left non-empty, so a first set bit exists below `RHINO_CONFIG_PRI_MAX`
    have hfirst : ∃ i, krhinoFindFirstBit (krhinoBitmapClear rq.taskBitMap (prio t)) = some i ∧
        i < rhinoConfigPriMax ∧ L i ≠ [] ∧ ∀ q < i, L q = [] := by
      rw [krhinoFindFirstBit_eq]
      cases hff : Bitmap.findFirst (krhinoBitmapClear rq.taskBitMap (prio t)) 0 numWords with
      | none =>
        obtain ⟨u, hu, hne⟩ := hother
        have hlt := h.bound u hu
        have hclear := Bitmap.findFirst_none hff (prio u) (by omega) (by simp [numWords, rhinoConfigPriMax] at hlt ⊢; omega)
        rw [hbitL _ (by simp [numWords, rhinoConfigPriMax] at hlt ⊢; omega)] at hclear
        have : u ∈ L (prio u) := (hmemL _ u).mpr ⟨⟨hu, hne⟩, rfl⟩
        simp [List.isEmpty_iff] at hclear
        rw [hclear] at this
        cases this
      | some i =>
        obtain ⟨-, hi, hset, hbelow⟩ := Bitmap.findFirst_some hff
        have hiw : i < 32 * numWords := by simpa using hi
        rw [hbitL i hiw] at hset
        have hne : L i ≠ [] := by simpa [List.isEmpty_iff] using hset
        obtain ⟨u, hu⟩ := List.exists_mem_of_ne_nil _ hne
        obtain ⟨hu', rfl⟩ := (hmemL _ u).mp hu
        refine ⟨prio u, rfl, h.bound u hu'.1, hne, fun q hq => ?_⟩
        have := hbelow q (by omega) hq
        rw [hbitL q (by omega)] at this
        simpa [List.isEmpty_iff] using this
    have hhigh : rq.highestPri ≤ prio t := by
      by_contra hlt
      have := h.below (prio t) (by omega)
      rw [this] at htmem
      cases htmem
    obtain ⟨i, hi, hiMax, hiNe, hiBelow⟩ := hfirst
    refine ⟨hmemL, fun q => ?_, hbound, hbitL, ?_, ?_, ?_⟩
    · by_cases hq : q = prio t
      · simp [hL, hq]
      · simpa [hL, hq] using h.nodup q
    · dsimp only
      split
      · exact h.highest_le
      · simp [hi]
        omega
    · intro q hq
      dsimp only at hq ⊢
      split at hq
      · rename_i hpt
        have hqt : q ≠ prio t := by omega
        simpa [hL, hqt] using h.below q hq
      · simp [hi] at hq
        exact hiBelow q hq
    · intro hlt
      dsimp only at hlt ⊢
      by_cases hpt : prio t ≠ rq.highestPri
      · rw [if_pos hpt] at hlt ⊢
        have hqt : rq.highestPri ≠ prio t := hpt ∘ Eq.symm
        simpa [hL, hqt] using h.at_highest hlt
      · rw [if_neg hpt]
        simpa [hi] using hiNe

/-- `ready_list_head_to_tail`: the list turns by one. -/
theorem Repr.readyListHeadToTail (h : Repr rq prio R) (p : Nat) :
    Repr (rq.readyListHeadToTail p) prio R := by
  unfold RunQueue.readyListHeadToTail
  refine h.setList (fun u => ?_) (fun _ _ => Iff.rfl) ?_ ?_ h.bound
  · rw [rotateLeft_one_eq_rotate, List.mem_rotate, h.mem]
  · rw [rotateLeft_one_eq_rotate, List.nodup_rotate]
    exact h.nodup p
  · rw [rotateLeft_one_eq_rotate, List.rotate_eq_nil_iff]

/-- `preferred_cpu_ready_task_get` reads a task of `R` of the best priority: the head
of the list at `highest_pri`. -/
theorem Repr.head (h : Repr rq prio R) (hex : ∃ u, R u) :
    ∃ t rest, rq.curListItem rq.highestPri = t :: rest ∧ R t ∧ ∀ u, R u → prio t ≤ prio u := by
  obtain ⟨u, hu⟩ := hex
  have hle : rq.highestPri ≤ prio u := by
    by_contra hlt
    have := (h.mem _ u).mpr ⟨hu, rfl⟩
    rw [h.below (prio u) (by omega)] at this
    cases this
  have hne := h.at_highest (lt_of_le_of_lt hle (h.bound u hu))
  obtain ⟨t, rest, hl⟩ := List.exists_cons_of_ne_nil hne
  have ht := (h.mem _ t).mp (by rw [hl]; exact List.mem_cons_self)
  refine ⟨t, rest, hl, ht.1, fun v hv => ?_⟩
  rw [ht.2]
  by_contra hlt
  have := (h.mem _ v).mpr ⟨hv, rfl⟩
  rw [h.below (prio v) (by omega)] at this
  cases this

/-- `highest_pri` is the first priority whose bit is set. -/
theorem Repr.highest_first (h : Repr rq prio R) (hex : ∃ u, R u) :
    Bitmap.test rq.taskBitMap rq.highestPri = true ∧
      ∀ p < rq.highestPri, Bitmap.test rq.taskBitMap p = false := by
  obtain ⟨t, rest, hl, ht, -⟩ := h.head hex
  have hlt : rq.highestPri < rhinoConfigPriMax := by
    have := (h.mem _ t).mp (by rw [hl]; exact List.mem_cons_self)
    rw [← this.2]
    exact h.bound t ht
  have hw : rhinoConfigPriMax ≤ 32 * numWords := by decide
  refine ⟨by rw [h.bit _ (by omega), hl]; rfl, fun p hp => ?_⟩
  rw [h.bit p (by omega), h.below p hp]
  rfl

end RunQueue

end Rhino
