import AliosThings.Lib.SortedInsert
import AliosThings.Rhino.SchedRun

/-!
# The wait lists and the tick list, operation by operation

`WaitInv k` says how the blocked lists of the objects and the tick list link the
tasks. A task is on the blocked list of an object exactly when it waits
(`K_PEND` or `K_PEND_SUSPENDED`) with `blk_obj` pointing at that object, and
then once; a waiting task always has a `blk_obj`; a list under
`BLK_POLICY_PRI` is in nondecreasing order of priority. The tick list holds
once each the tasks whose `tick_head` is set, all of them sleeping or waiting,
and every sleeping task is on it; a waiting task is on it exactly when the
timeout it blocked with (the ghost `pendTimeout`) is not `RHINO_WAIT_FOREVER`.
Every waiting task is on the ghost list `blocked` of the tasks `pend_to_blk_obj`
has blocked, which bounds the chains that `task_pri_change` follows.

Inside a call a task moves from one list to another in several steps, and the
invariant does not hold of it in between: `WaitInvE k E` asks it only of the
tasks outside `E`. A composite step makes its task leave `E` again by showing
the invariant of that one task (`WaitInvE.exit`).
-/

namespace Rhino

open SortedInsert

/-- `K_PEND` or `K_PEND_SUSPENDED`: the task is on a blocked list. -/
def KTask.IsPend (task : KTask) : Prop :=
  task.taskState = .pend ∨ task.taskState = .pendSuspended

/-- `K_SLEEP` or `K_SLEEP_SUSPENDED`: the task is on the tick list only. -/
def KTask.IsSleep (task : KTask) : Prop :=
  task.taskState = .sleep ∨ task.taskState = .sleepSuspended

instance : DecidablePred KTask.IsPend := fun _ =>
  inferInstanceAs (Decidable (_ ∨ _))

instance : DecidablePred KTask.IsSleep := fun _ =>
  inferInstanceAs (Decidable (_ ∨ _))

/-- Two control blocks that the wait lists cannot tell apart. -/
structure KTask.SameWait (a b : KTask) : Prop where
  pend : b.IsPend ↔ a.IsPend
  sleep : b.IsSleep ↔ a.IsSleep
  blkObj : b.blkObj = a.blkObj
  prio : b.prio = a.prio
  tickHead : b.tickHead = a.tickHead
  pendTimeout : b.pendTimeout = a.pendTimeout

theorem KTask.SameWait.refl (a : KTask) : a.SameWait a :=
  ⟨Iff.rfl, Iff.rfl, rfl, rfl, rfl, rfl⟩

namespace Kernel

variable {k k' : Kernel} {E : Nat → Prop}

/-- A blocked list in nondecreasing order of priority, asked of the tasks outside `E`. -/
def PrioSorted (k : Kernel) (E : Nat → Prop) (l : List Nat) : Prop :=
  l.Pairwise (Except E fun a b => (k.tasks a).prio ≤ (k.tasks b).prio)

/-- The wait lists and the tick list, asked of the tasks outside `E`. -/
structure WaitInvE (k : Kernel) (E : Nat → Prop) : Prop where
  mem : ∀ r t, ¬E t → (t ∈ (k.blkObj r).blkList ↔ (k.tasks t).blkObj = some r ∧ (k.tasks t).IsPend)
  pend_obj : ∀ t, ¬E t → (k.tasks t).IsPend → (k.tasks t).blkObj ≠ none
  nodup : ∀ r, (k.blkObj r).blkList.Nodup
  sorted : ∀ r, (k.blkObj r).blkPolicy = .pri → k.PrioSorted E (k.blkObj r).blkList
  tick_mem : ∀ t, ¬E t → (t ∈ k.tickList ↔ (k.tasks t).tickHead = true)
  tick_nodup : k.tickList.Nodup
  tick_state : ∀ t, ¬E t → (k.tasks t).tickHead = true → (k.tasks t).IsSleep ∨ (k.tasks t).IsPend
  sleep_tick : ∀ t, ¬E t → (k.tasks t).IsSleep → (k.tasks t).tickHead = true
  pend_tick : ∀ t, ¬E t → (k.tasks t).IsPend →
    ((k.tasks t).tickHead = true ↔ (k.tasks t).pendTimeout ≠ rhinoWaitForever)
  pend_blocked : ∀ t, ¬E t → (k.tasks t).IsPend → t ∈ k.blocked

/-- The wait lists and the tick list between two steps. -/
def WaitInv (k : Kernel) : Prop :=
  k.WaitInvE fun _ => False

/-! ### Steps that the lists do not see -/

@[simp] theorem setTask_tickList (t : Nat) (f : KTask → KTask) : (k.setTask t f).tickList = k.tickList :=
  rfl

@[simp] theorem setTask_blocked (t : Nat) (f : KTask → KTask) : (k.setTask t f).blocked = k.blocked :=
  rfl

@[simp] theorem setBlkList_tickList (r : ObjRef) (l : List Nat) : (k.setBlkList r l).tickList = k.tickList := by
  cases r <;> rfl

@[simp] theorem setBlkList_blocked (r : ObjRef) (l : List Nat) : (k.setBlkList r l).blocked = k.blocked := by
  cases r <;> rfl

@[simp] theorem withBlocked_blkObj (l : List Nat) (r : ObjRef) :
    ({ k with blocked := l } : Kernel).blkObj r = k.blkObj r := by
  cases r <;> rfl

/-- A state that agrees on everything the invariant reads keeps it. -/
theorem WaitInvE.congr (h : k.WaitInvE E) (htask : ∀ u, (k.tasks u).SameWait (k'.tasks u))
    (hlist : ∀ r, (k'.blkObj r).blkList = (k.blkObj r).blkList)
    (hpol : ∀ r, (k'.blkObj r).blkPolicy = (k.blkObj r).blkPolicy)
    (htick : k'.tickList = k.tickList) (hbl : k.blocked ⊆ k'.blocked) : k'.WaitInvE E where
  mem r t ht := by
    rw [hlist, (htask t).blkObj, (htask t).pend]
    exact h.mem r t ht
  pend_obj t ht hp := by
    rw [(htask t).blkObj]
    exact h.pend_obj t ht ((htask t).pend.mp hp)
  nodup r := hlist r ▸ h.nodup r
  sorted r hr := by
    unfold PrioSorted
    rw [hlist]
    refine (h.sorted r (hpol r ▸ hr)).imp fun hab ha hb => ?_
    show (k'.tasks _).prio ≤ (k'.tasks _).prio
    rw [(htask _).prio, (htask _).prio]
    exact hab ha hb
  tick_mem t ht := by
    rw [htick, (htask t).tickHead]
    exact h.tick_mem t ht
  tick_nodup := htick ▸ h.tick_nodup
  tick_state t ht hh := by
    rw [(htask t).sleep, (htask t).pend]
    exact h.tick_state t ht ((htask t).tickHead ▸ hh)
  sleep_tick t ht hs := by
    rw [(htask t).tickHead]
    exact h.sleep_tick t ht ((htask t).sleep.mp hs)
  pend_tick t ht hp := by
    rw [(htask t).tickHead, (htask t).pendTimeout]
    exact h.pend_tick t ht ((htask t).pend.mp hp)
  pend_blocked t ht hp := hbl (h.pend_blocked t ht ((htask t).pend.mp hp))

/-- The same tasks, lists and tick list. -/
theorem WaitInvE.of_tasks (h : k.WaitInvE E) (htasks : k'.tasks = k.tasks)
    (hblk : ∀ r, (k'.blkObj r).blkList = (k.blkObj r).blkList ∧
      (k'.blkObj r).blkPolicy = (k.blkObj r).blkPolicy)
    (htick : k'.tickList = k.tickList) (hbl : k'.blocked = k.blocked) : k'.WaitInvE E :=
  h.congr (fun _ => htasks ▸ KTask.SameWait.refl _) (fun r => (hblk r).1) (fun r => (hblk r).2) htick
    (hbl ▸ List.Subset.refl _)

/-- The ghost list may only grow. -/
theorem WaitInvE.withBlocked (h : k.WaitInvE E) {l : List Nat} (hl : k.blocked ⊆ l) :
    ({ k with blocked := l } : Kernel).WaitInvE E :=
  h.congr (fun _ => KTask.SameWait.refl _) (fun r => by cases r <;> rfl) (fun r => by cases r <;> rfl) rfl hl

theorem WaitInvE.readyListAdd (h : k.WaitInvE E) (t : Nat) : (k.readyListAdd t).WaitInvE E :=
  h.of_tasks rfl (fun r => by cases r <;> exact ⟨rfl, rfl⟩) rfl rfl

theorem WaitInvE.readyListAddTail (h : k.WaitInvE E) (t : Nat) : (k.readyListAddTail t).WaitInvE E :=
  h.of_tasks rfl (fun r => by cases r <;> exact ⟨rfl, rfl⟩) rfl rfl

theorem WaitInvE.readyListAddHead (h : k.WaitInvE E) (t : Nat) : (k.readyListAddHead t).WaitInvE E :=
  h.of_tasks rfl (fun r => by cases r <;> exact ⟨rfl, rfl⟩) rfl rfl

theorem WaitInvE.readyListRm (h : k.WaitInvE E) (t : Nat) : (k.readyListRm t).WaitInvE E :=
  h.of_tasks rfl (fun r => by cases r <;> exact ⟨rfl, rfl⟩) rfl rfl

theorem WaitInvE.readyListHeadToTail (h : k.WaitInvE E) (t : Nat) :
    (k.readyListHeadToTail t).WaitInvE E :=
  h.of_tasks rfl (fun r => by cases r <;> exact ⟨rfl, rfl⟩) rfl rfl

theorem WaitInvE.coreSched (h : k.WaitInvE E) : k.coreSched.WaitInvE E := by
  obtain ⟨a, p, hc⟩ := k.coreSched_eq
  rw [hc]
  exact h.of_tasks rfl (fun r => by cases r <;> exact ⟨rfl, rfl⟩) rfl rfl

/-- Writing fields of a control block that the lists do not read. -/
theorem WaitInvE.setTask_of (h : k.WaitInvE E) {t : Nat} {f : KTask → KTask}
    (hf : (k.tasks t).SameWait (f (k.tasks t))) : (k.setTask t f).WaitInvE E := by
  refine h.congr (fun u => ?_) (fun r => by rw [setTask_blkObj]) (fun r => by rw [setTask_blkObj]) rfl
    (List.Subset.refl _)
  by_cases hu : u = t
  · subst hu
    simpa using hf
  · simpa [hu] using KTask.SameWait.refl (k.tasks u)

/-- Writing an object without touching its blocked list or policy. -/
theorem WaitInvE.setSem (h : k.WaitInvE E) {s : Nat} {f : KSem → KSem}
    (hf : ∀ x, (f x).blkObj.blkList = x.blkObj.blkList ∧ (f x).blkObj.blkPolicy = x.blkObj.blkPolicy) :
    (k.setSem s f).WaitInvE E := by
  refine h.of_tasks rfl (fun r => ?_) rfl rfl
  rw [blkObj_setSem]
  split
  · rename_i hr
    subst hr
    exact hf _
  · exact ⟨rfl, rfl⟩

theorem WaitInvE.setMutex (h : k.WaitInvE E) {m : Nat} {f : KMutex → KMutex}
    (hf : ∀ x, (f x).blkObj.blkList = x.blkObj.blkList ∧ (f x).blkObj.blkPolicy = x.blkObj.blkPolicy) :
    (k.setMutex m f).WaitInvE E := by
  refine h.of_tasks rfl (fun r => ?_) rfl rfl
  rw [blkObj_setMutex]
  split
  · rename_i hr
    subst hr
    exact hf _
  · exact ⟨rfl, rfl⟩

theorem WaitInvE.setQueue (h : k.WaitInvE E) {q : Nat} {f : KQueue → KQueue}
    (hf : ∀ x, (f x).blkObj.blkList = x.blkObj.blkList ∧ (f x).blkObj.blkPolicy = x.blkObj.blkPolicy) :
    (k.setQueue q f).WaitInvE E := by
  refine h.of_tasks rfl (fun r => ?_) rfl rfl
  rw [blkObj_setQueue]
  split
  · rename_i hr
    subst hr
    exact hf _
  · exact ⟨rfl, rfl⟩

theorem WaitInvE.setBufQueue (h : k.WaitInvE E) {q : Nat} {f : KBufQueue → KBufQueue}
    (hf : ∀ x, (f x).blkObj.blkList = x.blkObj.blkList ∧ (f x).blkObj.blkPolicy = x.blkObj.blkPolicy) :
    (k.setBufQueue q f).WaitInvE E := by
  refine h.of_tasks rfl (fun r => ?_) rfl rfl
  rw [blkObj_setBufQueue]
  split
  · rename_i hr
    subst hr
    exact hf _
  · exact ⟨rfl, rfl⟩

theorem WaitInvE.setEvent (h : k.WaitInvE E) {e : Nat} {f : KEvent → KEvent}
    (hf : ∀ x, (f x).blkObj.blkList = x.blkObj.blkList ∧ (f x).blkObj.blkPolicy = x.blkObj.blkPolicy) :
    (k.setEvent e f).WaitInvE E := by
  refine h.of_tasks rfl (fun r => ?_) rfl rfl
  rw [blkObj_setEvent]
  split
  · rename_i hr
    subst hr
    exact hf _
  · exact ⟨rfl, rfl⟩

/-- Objects rewritten with their blocked lists kept; a list may take another policy
only where no task waits on it, as when an object is created again. -/
theorem WaitInvE.of_objects (h : k.WaitInvE E) (htasks : k'.tasks = k.tasks)
    (htick : k'.tickList = k.tickList) (hbl : k'.blocked = k.blocked)
    (hlist : ∀ r, (k'.blkObj r).blkList = (k.blkObj r).blkList)
    (hpol : ∀ r, (k'.blkObj r).blkPolicy = .pri →
      (k.blkObj r).blkPolicy = .pri ∨ (k.blkObj r).blkList = []) : k'.WaitInvE E where
  mem r t ht := by
    rw [hlist, htasks]
    exact h.mem r t ht
  pend_obj t ht := by
    rw [htasks]
    exact h.pend_obj t ht
  nodup r := hlist r ▸ h.nodup r
  sorted r hr := by
    unfold PrioSorted
    rw [hlist, htasks]
    rcases hpol r hr with hp | hnil
    · exact h.sorted r hp
    · rw [hnil]
      exact List.Pairwise.nil
  tick_mem t ht := by
    rw [htick, htasks]
    exact h.tick_mem t ht
  tick_nodup := htick ▸ h.tick_nodup
  tick_state t ht := by
    rw [htasks]
    exact h.tick_state t ht
  sleep_tick t ht := by
    rw [htasks]
    exact h.sleep_tick t ht
  pend_tick t ht := by
    rw [htasks]
    exact h.pend_tick t ht
  pend_blocked t ht := by
    rw [htasks, hbl]
    exact h.pend_blocked t ht

/-! ### Steps on a task in transit -/

theorem WaitInvE.mono (h : k.WaitInvE E) {E' : Nat → Prop} (hE : ∀ u, E u → E' u) : k.WaitInvE E' where
  mem r t ht := h.mem r t fun he => ht (hE t he)
  pend_obj t ht := h.pend_obj t fun he => ht (hE t he)
  nodup := h.nodup
  sorted r hr := pairwise_except_mono hE (h.sorted r hr)
  tick_mem t ht := h.tick_mem t fun he => ht (hE t he)
  tick_nodup := h.tick_nodup
  tick_state t ht := h.tick_state t fun he => ht (hE t he)
  sleep_tick t ht := h.sleep_tick t fun he => ht (hE t he)
  pend_tick t ht := h.pend_tick t fun he => ht (hE t he)
  pend_blocked t ht := h.pend_blocked t fun he => ht (hE t he)

/-- Any field of a task in transit may change. -/
theorem WaitInvE.setTask_in (h : k.WaitInvE E) {t : Nat} (ht : E t) (f : KTask → KTask) :
    (k.setTask t f).WaitInvE E where
  mem r u hu := by
    have hut : u ≠ t := fun he => hu (he ▸ ht)
    simpa [hut] using h.mem r u hu
  pend_obj u hu := by
    have hut : u ≠ t := fun he => hu (he ▸ ht)
    simpa [hut] using h.pend_obj u hu
  nodup r := by simpa using h.nodup r
  sorted r hr := by
    rw [setTask_blkObj] at hr ⊢
    refine (h.sorted r hr).imp fun {a b} hab ha hb => ?_
    have hat : a ≠ t := fun he => ha (he ▸ ht)
    have hbt : b ≠ t := fun he => hb (he ▸ ht)
    simpa [hat, hbt] using hab ha hb
  tick_mem u hu := by
    have hut : u ≠ t := fun he => hu (he ▸ ht)
    simpa [hut] using h.tick_mem u hu
  tick_nodup := h.tick_nodup
  tick_state u hu := by
    have hut : u ≠ t := fun he => hu (he ▸ ht)
    simpa [hut] using h.tick_state u hu
  sleep_tick u hu := by
    have hut : u ≠ t := fun he => hu (he ▸ ht)
    simpa [hut] using h.sleep_tick u hu
  pend_tick u hu := by
    have hut : u ≠ t := fun he => hu (he ▸ ht)
    simpa [hut] using h.pend_tick u hu
  pend_blocked u hu := by
    have hut : u ≠ t := fun he => hu (he ▸ ht)
    simpa [hut] using h.pend_blocked u hu

/-- A blocked list changed only at a task in transit. -/
theorem WaitInvE.setBlkList (h : k.WaitInvE E) {t : Nat} (ht : E t) {r : ObjRef} {l : List Nat}
    (hmem : ∀ u, u ≠ t → (u ∈ l ↔ u ∈ (k.blkObj r).blkList)) (hnd : l.Nodup)
    (hs : (k.blkObj r).blkPolicy = .pri → k.PrioSorted E l) : (k.setBlkList r l).WaitInvE E where
  mem r' u hu := by
    rw [blkObj_setBlkList, setBlkList_tasks]
    split
    · rename_i hr
      subst hr
      rw [hmem u fun he => hu (he ▸ ht)]
      exact h.mem _ u hu
    · exact h.mem r' u hu
  pend_obj u hu := by
    rw [setBlkList_tasks]
    exact h.pend_obj u hu
  nodup r' := by
    rw [blkObj_setBlkList]
    split
    · exact hnd
    · exact h.nodup r'
  sorted r' hr := by
    unfold PrioSorted
    rw [blkObj_setBlkList] at hr ⊢
    rw [setBlkList_tasks]
    split
    · rename_i he
      subst he
      rw [if_pos rfl] at hr
      exact hs hr
    · rename_i he
      rw [if_neg he] at hr
      exact h.sorted r' hr
  tick_mem u hu := by
    rw [setBlkList_tasks, setBlkList_tickList]
    exact h.tick_mem u hu
  tick_nodup := by
    rw [setBlkList_tickList]
    exact h.tick_nodup
  tick_state u hu := by
    rw [setBlkList_tasks]
    exact h.tick_state u hu
  sleep_tick u hu := by
    rw [setBlkList_tasks]
    exact h.sleep_tick u hu
  pend_tick u hu := by
    rw [setBlkList_tasks]
    exact h.pend_tick u hu
  pend_blocked u hu := by
    rw [setBlkList_tasks, setBlkList_blocked]
    exact h.pend_blocked u hu

/-- `klist_rm` of a task in transit from the list of its `blk_obj`. -/
theorem WaitInvE.blkListRm (h : k.WaitInvE E) {t : Nat} (ht : E t) : (k.blkListRm t).WaitInvE E := by
  unfold Kernel.blkListRm
  split
  · rename_i r _
    refine h.setBlkList ht (fun u hu => (h.nodup r).mem_erase_iff.trans (and_iff_right hu))
      ((h.nodup r).erase t) fun hr => ?_
    exact (h.sorted r hr).sublist List.erase_sublist
  · exact h

/-- The tick list changed only at a task in transit. -/
theorem WaitInvE.setTickList (h : k.WaitInvE E) {t : Nat} (ht : E t) {l : List Nat}
    (hmem : ∀ u, u ≠ t → (u ∈ l ↔ u ∈ k.tickList)) (hnd : l.Nodup) :
    ({ k with tickList := l } : Kernel).WaitInvE E where
  mem := h.mem
  pend_obj := h.pend_obj
  nodup := h.nodup
  sorted := h.sorted
  tick_mem u hu := (hmem u fun he => hu (he ▸ ht)).trans (h.tick_mem u hu)
  tick_nodup := hnd
  tick_state := h.tick_state
  sleep_tick := h.sleep_tick
  pend_tick := h.pend_tick
  pend_blocked := h.pend_blocked

theorem WaitInvE.tickListRm (h : k.WaitInvE E) {t : Nat} (ht : E t) : (k.tickListRm t).WaitInvE E := by
  unfold Kernel.tickListRm
  split
  · refine (h.setTickList ht (fun u hu => ?_) (h.tick_nodup.erase t)).setTask_in ht _
    exact h.tick_nodup.mem_erase_iff.trans (and_iff_right hu)
  · exact h

theorem WaitInvE.tickListInsert (h : k.WaitInvE E) {t : Nat} (ht : E t) (hn : t ∉ k.tickList)
    (time : Nat) : (k.tickListInsert t time).WaitInvE E := by
  unfold Kernel.tickListInsert
  split
  · refine ((h.setTask_in ht _).setTickList ht (fun u hu => ?_) ?_).setTask_in ht _
    · simp [hu]
    · rw [tickListPriInsert_eq_orderedInsert, (List.perm_orderedInsert _ _ _).nodup_iff]
      exact List.nodup_cons.mpr ⟨hn, h.tick_nodup⟩
  · exact h

/-! ### Leaving transit -/

theorem WaitInv.enter (h : k.WaitInv) (t : Nat) : k.WaitInvE (· = t) :=
  WaitInvE.mono h fun _ he => he.elim

/-- A task leaves transit once the invariant holds of it. -/
theorem WaitInvE.exit {t : Nat} (h : k.WaitInvE (· = t))
    (hmem : ∀ r, t ∈ (k.blkObj r).blkList ↔ (k.tasks t).blkObj = some r ∧ (k.tasks t).IsPend)
    (hobj : (k.tasks t).IsPend → (k.tasks t).blkObj ≠ none)
    (hsort : ∀ r, (k.blkObj r).blkPolicy = .pri → t ∈ (k.blkObj r).blkList →
      (k.blkObj r).blkList.Pairwise fun a b => (k.tasks a).prio ≤ (k.tasks b).prio)
    (htick : t ∈ k.tickList ↔ (k.tasks t).tickHead = true)
    (hstate : (k.tasks t).tickHead = true → (k.tasks t).IsSleep ∨ (k.tasks t).IsPend)
    (hsleep : (k.tasks t).IsSleep → (k.tasks t).tickHead = true)
    (hpend : (k.tasks t).IsPend → ((k.tasks t).tickHead = true ↔ (k.tasks t).pendTimeout ≠ rhinoWaitForever))
    (hbl : (k.tasks t).IsPend → t ∈ k.blocked) :
    k.WaitInv where
  mem r u _ := by
    by_cases hu : u = t
    · subst hu
      exact hmem r
    · exact h.mem r u hu
  pend_obj u _ := by
    by_cases hu : u = t
    · subst hu
      exact hobj
    · exact h.pend_obj u hu
  nodup := h.nodup
  sorted r hr := by
    rw [PrioSorted, pairwise_except_false_iff]
    by_cases ht : t ∈ (k.blkObj r).blkList
    · exact hsort r hr ht
    · exact pairwise_of_except (h.sorted r hr) (List.Sublist.refl _) fun a ha he => ht (he ▸ ha)
  tick_mem u _ := by
    by_cases hu : u = t
    · subst hu
      exact htick
    · exact h.tick_mem u hu
  tick_nodup := h.tick_nodup
  tick_state u _ := by
    by_cases hu : u = t
    · subst hu
      exact hstate
    · exact h.tick_state u hu
  sleep_tick u _ := by
    by_cases hu : u = t
    · subst hu
      exact hsleep
    · exact h.sleep_tick u hu
  pend_tick u _ := by
    by_cases hu : u = t
    · subst hu
      exact hpend
    · exact h.pend_tick u hu
  pend_blocked u _ := by
    by_cases hu : u = t
    · subst hu
      exact hbl
    · exact h.pend_blocked u hu

/-- A task leaves transit on no list, neither waiting nor sleeping. -/
theorem WaitInvE.exit_quiet {t : Nat} (h : k.WaitInvE (· = t)) (hl : ∀ r, t ∉ (k.blkObj r).blkList)
    (hp : ¬(k.tasks t).IsPend) (hs : ¬(k.tasks t).IsSleep) (ht : t ∉ k.tickList)
    (hh : (k.tasks t).tickHead = false) : k.WaitInv :=
  h.exit (fun r => iff_of_false (hl r) fun hr => hp hr.2) (fun hr => absurd hr hp)
    (fun r _ hr => absurd hr (hl r)) (iff_of_false ht (by simp [hh])) (by simp [hh])
    (fun hr => absurd hr hs) (fun hr => absurd hr hp) (fun hr => absurd hr hp)

/-- A task that is on no list may be rewritten into another such task. -/
theorem WaitInv.setTask_quiet (h : k.WaitInv) {t : Nat} {f : KTask → KTask}
    (hp : ¬(k.tasks t).IsPend) (hh : (k.tasks t).tickHead = false) (hp' : ¬(f (k.tasks t)).IsPend)
    (hs' : ¬(f (k.tasks t)).IsSleep) (hh' : (f (k.tasks t)).tickHead = false) :
    (k.setTask t f).WaitInv := by
  refine ((h.enter t).setTask_in rfl f).exit_quiet (fun r hr => ?_) (by simpa using hp')
    (by simpa using hs') (fun ht => ?_) (by simpa using hh')
  · rw [setTask_blkObj] at hr
    exact hp ((h.mem r t not_false).mp hr).2
  · have := (h.tick_mem t not_false).mp ht
    rw [hh] at this
    exact Bool.false_ne_true this

/-! ### Frame lemmas of the list operations -/

@[simp] theorem blkObj_readyListAdd (t : Nat) (r : ObjRef) : (k.readyListAdd t).blkObj r = k.blkObj r := by
  cases r <;> rfl

@[simp] theorem blkObj_readyListRm (t : Nat) (r : ObjRef) : (k.readyListRm t).blkObj r = k.blkObj r := by
  cases r <;> rfl

@[simp] theorem blkObj_tickListRm (t : Nat) (r : ObjRef) : (k.tickListRm t).blkObj r = k.blkObj r := by
  unfold Kernel.tickListRm
  split
  · cases r <;> rfl
  · rfl

@[simp] theorem blkObj_tickListInsert (t time : Nat) (r : ObjRef) :
    (k.tickListInsert t time).blkObj r = k.blkObj r := by
  unfold Kernel.tickListInsert
  split
  · cases r <;> rfl
  · rfl

@[simp] theorem readyListAdd_tickList (t : Nat) : (k.readyListAdd t).tickList = k.tickList :=
  rfl

@[simp] theorem readyListRm_tickList (t : Nat) : (k.readyListRm t).tickList = k.tickList :=
  rfl

@[simp] theorem blkListRm_tickList (t : Nat) : (k.blkListRm t).tickList = k.tickList := by
  unfold Kernel.blkListRm
  split
  · rename_i r _
    cases r <;> rfl
  · rfl

@[simp] theorem tickListRm_taskBlkObj (t u : Nat) :
    ((k.tickListRm t).tasks u).blkObj = (k.tasks u).blkObj := by
  unfold Kernel.tickListRm
  split
  · by_cases hu : u = t <;> simp [hu]
  · rfl

@[simp] theorem isPend_tickListRm (t u : Nat) : ((k.tickListRm t).tasks u).IsPend ↔ (k.tasks u).IsPend := by
  simp [KTask.IsPend]

@[simp] theorem isSleep_tickListRm (t u : Nat) :
    ((k.tickListRm t).tasks u).IsSleep ↔ (k.tasks u).IsSleep := by
  simp [KTask.IsSleep]

theorem tickListRm_of_tickHead_false {t : Nat} (hh : (k.tasks t).tickHead = false) :
    k.tickListRm t = k := by
  unfold Kernel.tickListRm
  rw [if_neg (by simp [hh])]

/-- `tick_list_rm` takes the task off the tick list and clears its mark. -/
theorem tickListRm_off {t : Nat} (hm : t ∈ k.tickList ↔ (k.tasks t).tickHead = true)
    (hnd : k.tickList.Nodup) :
    t ∉ (k.tickListRm t).tickList ∧ ((k.tickListRm t).tasks t).tickHead = false := by
  unfold Kernel.tickListRm
  split
  · exact ⟨fun hmem => (hnd.mem_erase_iff.mp hmem).1 rfl, by simp⟩
  · rename_i hh
    exact ⟨fun hmem => hh (hm.mp hmem), by simpa using hh⟩

/-- `klist_rm` reads only the task's `blk_obj` and the blocked lists, which
`tick_list_rm` leaves alone. -/
@[simp] theorem blkObj_blkListRm_tickListRm (t : Nat) (r : ObjRef) :
    ((k.tickListRm t).blkListRm t).blkObj r = (k.blkListRm t).blkObj r := by
  unfold Kernel.blkListRm
  rw [tickListRm_taskBlkObj]
  split <;> simp

/-- A waiting task taken off the list of its `blk_obj` is on no list. -/
theorem WaitInvE.not_mem_blkListRm (h : k.WaitInvE E) {t : Nat} (ht : ¬E t) (hp : (k.tasks t).IsPend)
    (r : ObjRef) : t ∉ ((k.blkListRm t).blkObj r).blkList := by
  obtain ⟨r₀, hr₀⟩ := Option.ne_none_iff_exists'.mp (h.pend_obj t ht hp)
  unfold Kernel.blkListRm
  rw [hr₀]
  simp only [blkObj_setBlkList]
  split
  · exact fun hm => (((h.nodup r₀).mem_erase_iff).mp hm).1 rfl
  · rename_i hne
    exact fun hm => hne (Option.some_injective _ (((h.mem r t ht).mp hm).1.symm.trans hr₀))

/-! ### Waking a waiter -/

/-- `pend_task_wakeup` and `pend_task_rm` take a waiting task off its blocked list
and the tick list; on a task that is neither waiting nor sleeping they only clear
its `blk_obj`. -/
theorem WaitInv.pendTaskEnd (h : k.WaitInv) {t : Nat} (hs : ¬(k.tasks t).IsSleep) (st : BlkState) :
    (k.pendTaskEnd t st).WaitInv := by
  unfold Kernel.pendTaskEnd Kernel.pendTaskLeave
  split
  · -- `K_PEND`: back to the ready queue
    rename_i hst
    have hp : (k.tasks t).IsPend := Or.inl hst
    set k₁ := ((k.blkListRm t).readyListAdd t).setTask t fun task => { task with taskState := .rdy }
    have h₁ : k₁.WaitInvE (· = t) := (((h.enter t).blkListRm rfl).readyListAdd t).setTask_in rfl _
    have hoff := tickListRm_off (k := k₁) (t := t) (by simpa [k₁] using h.tick_mem t not_false)
      (by simpa [k₁] using h.tick_nodup)
    refine ((h₁.tickListRm rfl).setTask_in rfl _).exit_quiet (fun r => ?_) ?_ ?_ ?_ ?_
    · simpa [k₁] using h.not_mem_blkListRm not_false hp r
    · simp [KTask.IsPend, k₁]
    · simp [KTask.IsSleep, k₁]
    · simpa using hoff.1
    · simpa using hoff.2
  · -- `K_PEND_SUSPENDED`: suspended, off every list
    rename_i hst
    have hp : (k.tasks t).IsPend := Or.inr hst
    set k₁ := (k.blkListRm t).setTask t fun task => { task with taskState := .suspended }
    have h₁ : k₁.WaitInvE (· = t) := ((h.enter t).blkListRm rfl).setTask_in rfl _
    have hoff := tickListRm_off (k := k₁) (t := t) (by simpa [k₁] using h.tick_mem t not_false)
      (by simpa [k₁] using h.tick_nodup)
    refine ((h₁.tickListRm rfl).setTask_in rfl _).exit_quiet (fun r => ?_) ?_ ?_ ?_ ?_
    · simpa [k₁] using h.not_mem_blkListRm not_false hp r
    · simp [KTask.IsPend, k₁]
    · simp [KTask.IsSleep, k₁]
    · simpa using hoff.1
    · simpa using hoff.2
  · -- neither waiting nor sleeping: on no list
    rename_i hn₁ hn₂
    have hp : ¬(k.tasks t).IsPend := by
      rintro (hst | hst)
      · exact hn₁ hst
      · exact hn₂ hst
    have hh : (k.tasks t).tickHead = false := by
      by_contra hh
      rcases h.tick_state t not_false (by simpa using hh) with hs' | hp'
      · exact hs hs'
      · exact hp hp'
    rw [tickListRm_of_tickHead_false hh]
    exact h.setTask_quiet hp hh hp hs hh

/-- Waking a task makes no task sleep. -/
theorem isSleep_pendTaskEnd {t u : Nat} {st : BlkState} (hs : ((k.pendTaskEnd t st).tasks u).IsSleep) :
    (k.tasks u).IsSleep := by
  unfold Kernel.pendTaskEnd Kernel.pendTaskLeave at hs
  by_cases hu : u = t
  · subst hu
    split at hs <;> simp_all [KTask.IsSleep]
  · split at hs <;> simpa [hu, KTask.IsSleep] using hs

theorem WaitInv.pendTaskRmAll (h : k.WaitInv) {l : List Nat} (hl : ∀ u ∈ l, ¬(k.tasks u).IsSleep) :
    (k.pendTaskRmAll l).WaitInv := by
  induction l generalizing k with
  | nil => exact h
  | cons t l ih =>
    exact ih (h.pendTaskEnd (hl t List.mem_cons_self) .del)
      fun u hu hs => hl u (List.mem_cons_of_mem _ hu) (isSleep_pendTaskEnd hs)

theorem WaitInv.pendTaskWakeupAll (h : k.WaitInv) {l : List Nat}
    (hl : ∀ u ∈ l, ¬(k.tasks u).IsSleep) : (k.pendTaskWakeupAll l).WaitInv := by
  induction l generalizing k with
  | nil => exact h
  | cons t l ih =>
    exact ih (h.pendTaskEnd (hl t List.mem_cons_self) .finish)
      fun u hu hs => hl u (List.mem_cons_of_mem _ hu) (isSleep_pendTaskEnd hs)

/-- The waiters of an object wait, so none of them sleeps. -/
theorem WaitInv.not_sleep_of_mem (h : k.WaitInv) {r : ObjRef} {u : Nat}
    (hu : u ∈ (k.blkObj r).blkList) : ¬(k.tasks u).IsSleep := by
  have hp := ((h.mem r u not_false).mp hu).2
  rintro (hs | hs) <;> rcases hp with hp | hp <;> simp_all

theorem WaitInv.taskMsgRecv (h : k.WaitInv) {t : Nat} (hs : ¬(k.tasks t).IsSleep) (p : Nat) :
    (k.taskMsgRecv t p).WaitInv := by
  have h₁ : (k.setTask t fun task => { task with qMsg := p }).WaitInv :=
    WaitInvE.setTask_of h ⟨Iff.rfl, Iff.rfl, rfl, rfl, rfl, rfl⟩
  exact WaitInv.pendTaskEnd h₁ (by simpa [KTask.IsSleep] using hs) .finish

theorem WaitInv.taskMsgRecvAll (h : k.WaitInv) (p : Nat) {l : List Nat}
    (hl : ∀ u ∈ l, ¬(k.tasks u).IsSleep) : (k.taskMsgRecvAll p l).WaitInv := by
  induction l generalizing k with
  | nil => exact h
  | cons t l ih =>
    refine ih (h.taskMsgRecv (hl t List.mem_cons_self) p) fun u hu hs => ?_
    refine hl u (List.mem_cons_of_mem _ hu) ?_
    have := isSleep_pendTaskEnd hs
    by_cases hut : u = t
    · subst hut
      simpa [KTask.IsSleep] using this
    · simpa [hut] using this

theorem WaitInv.eventSetWake (h : k.WaitInv) (e : Nat) (cur : UInt32) {l : List Nat}
    (hl : ∀ u ∈ l, ¬(k.tasks u).IsSleep) : (k.eventSetWake e cur l).WaitInv := by
  induction l generalizing k with
  | nil => exact h
  | cons t l ih =>
    unfold Kernel.eventSetWake
    dsimp only
    have hl' : ∀ u ∈ l, ¬(k.tasks u).IsSleep := fun u hu => hl u (List.mem_cons_of_mem _ hu)
    split
    · -- the waiter is woken, and its flags cleared if it asked for it
      have h₀ : (k.setTask t fun task => { task with pendInfo := cur }).WaitInv :=
        WaitInvE.setTask_of h ⟨Iff.rfl, Iff.rfl, rfl, rfl, rfl, rfl⟩
      have h₁ := WaitInv.pendTaskEnd (t := t) h₀ (by simpa [KTask.IsSleep] using hl t List.mem_cons_self)
        .finish
      have hl₁ : ∀ u ∈ l, ¬(((k.setTask t fun task => { task with pendInfo := cur }).pendTaskWakeup t).tasks
          u).IsSleep := fun u hu hs => by
        have := isSleep_pendTaskEnd hs
        by_cases hut : u = t
        · subst hut
          exact hl' u hu (by simpa [KTask.IsSleep] using this)
        · exact hl' u hu (by simpa [hut] using this)
      split
      · exact ih (h₁.setEvent fun _ => ⟨rfl, rfl⟩) hl₁
      · exact ih h₁ hl₁
    · exact ih h hl'

/-! ### Blocking a task -/

/-- A task that neither waits nor sleeps is not on the tick list. -/
theorem WaitInv.tickHead_false (h : k.WaitInv) {t : Nat} (hp : ¬(k.tasks t).IsPend)
    (hs : ¬(k.tasks t).IsSleep) : (k.tasks t).tickHead = false := by
  by_contra hh
  rcases h.tick_state t not_false (by simpa using hh) with hs' | hp'
  · exact hs hs'
  · exact hp hp'

/-- `tick_list_insert` puts a task that was not on the tick list on it exactly
when the time is not `0`, and marks it so. -/
theorem tickListInsert_on {t : Nat} (hn : t ∉ k.tickList) (hh : (k.tasks t).tickHead = false)
    (time : Nat) :
    t ∈ (k.tickListInsert t time).tickList ↔ ((k.tickListInsert t time).tasks t).tickHead = true := by
  unfold Kernel.tickListInsert
  split
  · simp
  · simpa [hh] using hn

/-- `pend_to_blk_obj` of a task that neither waits nor sleeps, with a timeout other
than `RHINO_NO_WAIT` (every caller returns before it otherwise): the task joins the
blocked list of `r` in its priority order, or at the end under `BLK_POLICY_FIFO`,
and the tick list when the timeout is finite. -/
theorem WaitInv.pendToBlkObj (h : k.WaitInv) {t : Nat} (hp : ¬(k.tasks t).IsPend)
    (hs : ¬(k.tasks t).IsSleep) (r : ObjRef) {timeout : Nat} (hto : timeout ≠ rhinoNoWait) :
    (k.pendToBlkObj r t timeout).WaitInv := by
  have hh := h.tickHead_false hp hs
  have hnl : ∀ r', t ∉ (k.blkObj r').blkList := fun r' hm => hp ((h.mem r' t not_false).mp hm).2
  have hnt : t ∉ k.tickList := fun hm => by
    have := (h.tick_mem t not_false).mp hm
    rw [hh] at this
    exact Bool.false_ne_true this
  unfold Kernel.pendToBlkObj
  dsimp only
  set k₁ := k.setTask t fun task => { task with blkObj := some r, pendTimeout := timeout }
  set k₂ := if timeout ≠ rhinoWaitForever then k₁.tickListInsert t timeout else k₁ with hk₂
  set k₃ := (k₂.setTask t fun task => { task with taskState := .pend }).readyListRm t with hk₃
  have h₁ : k₁.WaitInvE (· = t) := (h.enter t).setTask_in rfl _
  -- what the waiting time does to the tick fields
  have h₂ : k₂.WaitInvE (· = t) ∧ (∀ r', k₂.blkObj r' = k.blkObj r') ∧ (k₂.tasks t).blkObj = some r ∧
      (t ∈ k₂.tickList ↔ (k₂.tasks t).tickHead = true) ∧
      ((k₂.tasks t).tickHead = true ↔ (k₂.tasks t).pendTimeout ≠ rhinoWaitForever) := by
    rw [hk₂]
    split
    · rename_i hfin
      refine ⟨h₁.tickListInsert rfl (by simpa [k₁] using hnt) timeout, fun r' => by simp [k₁], ?_,
        tickListInsert_on (by simpa [k₁] using hnt) (by simpa [k₁] using hh) timeout, ?_⟩
      · unfold Kernel.tickListInsert
        split <;> simp [k₁]
      · -- a finite timeout that is not `RHINO_NO_WAIT` puts the task on the tick list
        unfold Kernel.tickListInsert
        rw [if_pos (Nat.pos_of_ne_zero hto)]
        simpa [k₁] using hfin
    · rename_i hforever
      exact ⟨h₁, fun r' => by simp [k₁], by simp [k₁], by simpa [k₁, hh] using hnt,
        by simpa [k₁, hh] using hforever⟩
  obtain ⟨h₂, hl₂, hb₂, ht₂, hpt₂⟩ := h₂
  have h₃ : k₃.WaitInvE (· = t) := (h₂.setTask_in rfl _).readyListRm t
  have hl₃ : ∀ r', k₃.blkObj r' = k.blkObj r' := fun r' => by simp [k₃, hl₂]
  have hst₃ : (k₃.tasks t).blkObj = some r ∧ (k₃.tasks t).IsPend := by
    simp [k₃, hb₂, KTask.IsPend]
  have htick₃ : t ∈ k₃.tickList ↔ (k₃.tasks t).tickHead = true := by
    simpa [k₃] using ht₂
  have hpt₃ : (k₃.tasks t).tickHead = true ↔ (k₃.tasks t).pendTimeout ≠ rhinoWaitForever := by
    simpa [k₃] using hpt₂
  have hn₃ : t ∉ (k₃.blkObj r).blkList := by
    rw [hl₃]
    exact hnl r
  -- where the task is afterwards: on the list of `r` and no other
  have hmem : ∀ l, t ∈ l → ∀ r', t ∈ ((k₃.setBlkList r l).blkObj r').blkList ↔
      ((k₃.setBlkList r l).tasks t).blkObj = some r' ∧ ((k₃.setBlkList r l).tasks t).IsPend := by
    intro l hl r'
    rw [blkObj_setBlkList, setBlkList_tasks]
    split
    · rename_i he
      subst he
      exact iff_of_true hl hst₃
    · rename_i hne
      refine iff_of_false (by rw [hl₃]; exact hnl r') fun hr => hne ?_
      exact Option.some_injective _ (hr.1.symm.trans hst₃.1)
  have hfin : ∀ l, t ∈ l → (∀ u, u ≠ t → (u ∈ l ↔ u ∈ (k₃.blkObj r).blkList)) → l.Nodup →
      ((k₃.blkObj r).blkPolicy = .pri → k₃.PrioSorted (· = t) l) →
      ((k₃.blkObj r).blkPolicy = .pri →
        l.Pairwise fun a b => (k₃.tasks a).prio ≤ (k₃.tasks b).prio) →
      ({ k₃.setBlkList r l with blocked := (k₃.setBlkList r l).blocked.insert t } : Kernel).WaitInv := by
    intro l hl hm hnd hs' hsort
    refine ((h₃.setBlkList rfl hm hnd hs').withBlocked (List.subset_insert t _)).exit (hmem l hl)
      (fun _ => by simp [hst₃.1]) (fun r' hr' ht' => ?_) (by simpa using htick₃)
      (fun _ => Or.inr (by simpa using hst₃.2)) (fun hs' => ?_) (fun _ => by simpa using hpt₃)
      fun _ => List.mem_insert_self
    · rw [withBlocked_blkObj, blkObj_setBlkList] at hr' ht' ⊢
      split at ht'
      · rename_i he
        subst he
        rw [if_pos rfl] at hr'
        simpa using hsort hr'
      · exact absurd ht' (by rw [hl₃]; exact hnl r')
    · have hp' := hst₃.2
      simp only [setBlkList_tasks] at hs'
      rcases hs' with hs' | hs' <;> rcases hp' with hp' | hp' <;> simp_all
  split
  · -- `BLK_POLICY_FIFO`: at the end
    rename_i hpol
    refine hfin _ (List.mem_append_right _ (List.mem_singleton_self t)) (fun u hu => ?_)
      (List.nodup_append.mpr ⟨h₃.nodup r, List.nodup_singleton t, fun a ha b hb he => ?_⟩)
      (fun hr => absurd (hr.symm.trans hpol) (by decide)) (fun hr => absurd (hr.symm.trans hpol) (by decide))
    · simp [hu]
    · rw [List.mem_singleton.mp hb] at he
      exact hn₃ (he ▸ ha)
  · -- `BLK_POLICY_PRI`: before the first task of a larger priority number
    rename_i hpol
    have hsorted : ∀ hr : (k₃.blkObj r).blkPolicy = .pri,
        (k₃.blkObj r).blkList.Pairwise fun a b => (k₃.tasks a).prio ≤ (k₃.tasks b).prio := fun hr =>
      pairwise_of_except (h₃.sorted r hr) (List.Sublist.refl _) fun a ha he => hn₃ (he ▸ ha)
    rw [pendListAdd_eq_orderedInsert]
    refine hfin _ ((List.mem_orderedInsert _).mpr (Or.inl rfl)) (fun u hu => ?_) ?_
      (fun hr => orderedInsert_pairwise_except (E := (· = t)) _ rfl (h₃.sorted r hr))
      (fun hr => orderedInsert_pairwise_le (fun a => (k₃.tasks a).prio) t (hsorted hr))
    · rw [List.mem_orderedInsert]
      simp [hu]
    · rw [(List.perm_orderedInsert _ _ _).nodup_iff]
      exact List.nodup_cons.mpr ⟨hn₃, h₃.nodup r⟩

/-! ### Steps on a task that does not wait -/

/-- A task that does not wait may be rewritten into another that does not wait, in
the same sleeping state and on the tick list as before. -/
theorem WaitInv.setTask_notPend (h : k.WaitInv) {t : Nat} {f : KTask → KTask}
    (hp : ¬(k.tasks t).IsPend) (hp' : ¬(f (k.tasks t)).IsPend)
    (hs : (f (k.tasks t)).IsSleep ↔ (k.tasks t).IsSleep)
    (hh : (f (k.tasks t)).tickHead = (k.tasks t).tickHead) : (k.setTask t f).WaitInv := by
  refine ((h.enter t).setTask_in rfl f).exit (fun r => ?_) (fun hr => absurd (by simpa using hr) hp')
    (fun r _ hr => ?_) ?_ ?_ ?_ (fun hr => absurd (by simpa using hr) hp') (fun hr => absurd (by simpa using hr) hp')
  · refine iff_of_false (fun hr => hp ((h.mem r t not_false).mp (by simpa using hr)).2) fun hr => hp' ?_
    simpa using hr.2
  · exact absurd ((h.mem r t not_false).mp (by simpa using hr)).2 hp
  · simpa [hh] using h.tick_mem t not_false
  · intro hh'
    rcases h.tick_state t not_false (by simpa [hh] using hh') with hs' | hp''
    · exact Or.inl (by simpa [hs] using hs')
    · exact absurd hp'' hp
  · intro hs'
    simpa [hh] using h.sleep_tick t not_false (hs.mp (by simpa using hs'))

/-- `krhino_task_sleep` of a task that neither waits nor sleeps, for `ticks > 0`:
it goes on the tick list. -/
theorem WaitInv.sleep (h : k.WaitInv) {t : Nat} (hp : ¬(k.tasks t).IsPend) (hs : ¬(k.tasks t).IsSleep)
    {ticks : Nat} (hticks : 0 < ticks) :
    ((k.setTask t fun task => { task with taskState := .sleep }).tickListInsert t ticks).WaitInv := by
  have hh := h.tickHead_false hp hs
  have hnt : t ∉ k.tickList := fun hm => by
    have := (h.tick_mem t not_false).mp hm
    rw [hh] at this
    exact Bool.false_ne_true this
  set k₁ := k.setTask t fun task => { task with taskState := .sleep }
  have h₁ : (k₁.tickListInsert t ticks).WaitInvE (· = t) :=
    ((h.enter t).setTask_in rfl _).tickListInsert rfl (by simpa [k₁] using hnt) ticks
  have hon := tickListInsert_on (k := k₁) (t := t) (by simpa [k₁] using hnt) (by simpa [k₁] using hh) ticks
  have hth : ((k₁.tickListInsert t ticks).tasks t).tickHead = true := by
    unfold Kernel.tickListInsert
    rw [if_pos hticks]
    simp
  have hst : ((k₁.tickListInsert t ticks).tasks t).taskState = .sleep := by simp [k₁]
  have hnp : ¬((k₁.tickListInsert t ticks).tasks t).IsPend := by
    rw [KTask.IsPend, hst]
    simp
  refine h₁.exit (fun r => iff_of_false (fun hr => ?_) fun hr => hnp hr.2) (fun hp' => absurd hp' hnp)
    (fun r _ hr => ?_) hon (fun _ => Or.inl (Or.inl hst)) (fun _ => hth) (fun hp' => absurd hp' hnp)
    fun hp' => absurd hp' hnp
  · exact hp ((h.mem r t not_false).mp (by simpa [k₁] using hr)).2
  · exact absurd ((h.mem r t not_false).mp (by simpa [k₁] using hr)).2 hp

/-- A sleeping task taken off the tick list, then woken. -/
theorem WaitInv.unsleep (h : k.WaitInv) {t : Nat} (hs : (k.tasks t).IsSleep) {f : KTask → KTask}
    (hp' : ∀ x, ¬(f x).IsPend) (hs' : ∀ x, ¬(f x).IsSleep) (hh' : ∀ x, (f x).tickHead = x.tickHead) :
    ((k.tickListRm t).setTask t f).WaitInv := by
  have hp : ¬(k.tasks t).IsPend := by
    rcases hs with hs | hs <;> rintro (hp | hp) <;> simp_all
  have hoff := tickListRm_off (h.tick_mem t not_false) h.tick_nodup
  refine (((h.enter t).tickListRm rfl).setTask_in rfl f).exit_quiet (fun r hr => ?_) (by simpa using hp' _)
    (by simpa using hs' _) (by simpa using hoff.1) (by simpa [hh'] using hoff.2)
  exact hp ((h.mem r t not_false).mp (by simpa using hr)).2

/-- The same, the task being queued as ready before it is made so. -/
theorem WaitInv.unsleep_ready (h : k.WaitInv) {t : Nat} (hs : (k.tasks t).IsSleep) {f : KTask → KTask}
    (hp' : ∀ x, ¬(f x).IsPend) (hs' : ∀ x, ¬(f x).IsSleep) (hh' : ∀ x, (f x).tickHead = x.tickHead) :
    (((k.tickListRm t).readyListAdd t).setTask t f).WaitInv :=
  WaitInvE.of_tasks (h.unsleep hs hp' hs' hh') rfl (fun r => by cases r <;> exact ⟨rfl, rfl⟩) rfl rfl

/-! ### Priority changes -/

/-- `pend_list_reorder` of a task in transit: out of its list and in again. -/
theorem WaitInvE.pendListReorder (h : k.WaitInvE E) {t : Nat} (ht : E t) :
    (k.pendListReorder t).WaitInvE E := by
  unfold Kernel.pendListReorder
  split
  · rename_i r _
    split
    · have hnd := (h.nodup r).erase t
      refine h.setBlkList ht (fun u hu => ?_) ?_ fun hr => ?_
      · rw [pendListAdd_eq_orderedInsert, List.mem_orderedInsert, (h.nodup r).mem_erase_iff]
        simp [hu]
      · rw [pendListAdd_eq_orderedInsert, (List.perm_orderedInsert _ _ _).nodup_iff]
        exact List.nodup_cons.mpr ⟨fun hm => ((h.nodup r).mem_erase_iff.mp hm).1 rfl, hnd⟩
      · rw [pendListAdd_eq_orderedInsert]
        exact orderedInsert_pairwise_except _ ht ((h.sorted r hr).sublist List.erase_sublist)
    · exact h
  · exact h

/-- A waiting task takes a new priority and is put back in its list at it. -/
theorem WaitInv.setPrio_reorder (h : k.WaitInv) {t : Nat} (hp : (k.tasks t).IsPend) (p : Nat) :
    ((k.setTask t fun task => { task with prio := p }).pendListReorder t).WaitInv := by
  obtain ⟨r₀, hr₀⟩ := Option.ne_none_iff_exists'.mp (h.pend_obj t not_false hp)
  set k₁ := k.setTask t fun task => { task with prio := p }
  have h₁ : k₁.WaitInvE (· = t) := (h.enter t).setTask_in rfl _
  have hin : t ∈ (k.blkObj r₀).blkList := (h.mem r₀ t not_false).mpr ⟨hr₀, hp⟩
  -- the task is on no other list
  have hother : ∀ r, r ≠ r₀ → t ∉ (k.blkObj r).blkList := fun r hne hm =>
    hne (Option.some_injective _ (((h.mem r t not_false).mp hm).1.symm.trans hr₀))
  have hk₁ : (k₁.tasks t).blkObj = some r₀ ∧ (k₁.tasks t).IsPend := by
    simpa [k₁, hr₀, KTask.IsPend] using hp
  have htick : ∀ k' : Kernel, k'.tickList = k.tickList → (k'.tasks t).tickHead = (k.tasks t).tickHead →
      (k'.tasks t).taskState = (k.tasks t).taskState →
      (k'.tasks t).pendTimeout = (k.tasks t).pendTimeout →
      (t ∈ k'.tickList ↔ (k'.tasks t).tickHead = true) ∧
        ((k'.tasks t).tickHead = true → (k'.tasks t).IsSleep ∨ (k'.tasks t).IsPend) ∧
        ((k'.tasks t).IsSleep → (k'.tasks t).tickHead = true) ∧
        ((k'.tasks t).IsPend → ((k'.tasks t).tickHead = true ↔ (k'.tasks t).pendTimeout ≠ rhinoWaitForever)) := by
    intro k' hl hh hs hto
    refine ⟨by rw [hl, hh]; exact h.tick_mem t not_false, fun hh' => ?_, fun hs' => ?_, fun _ => ?_⟩
    · rcases h.tick_state t not_false (hh ▸ hh') with hs' | hp'
      · exact Or.inl (by unfold KTask.IsSleep at hs' ⊢; rwa [hs])
      · exact Or.inr (by unfold KTask.IsPend at hp' ⊢; rwa [hs])
    · rw [hh]
      exact h.sleep_tick t not_false (by unfold KTask.IsSleep at hs' ⊢; rwa [← hs])
    · rw [hh, hto]
      exact h.pend_tick t not_false hp
  have hbl : t ∈ k₁.blocked := h.pend_blocked t not_false hp
  have h₂ := h₁.pendListReorder rfl
  unfold Kernel.pendListReorder at h₂ ⊢
  rw [hk₁.1] at h₂ ⊢
  dsimp only at h₂ ⊢
  split
  · -- under `BLK_POLICY_PRI` the task goes back in at its new priority
    rename_i hpol
    rw [if_pos hpol] at h₂
    obtain ⟨ht₁, ht₂, ht₃, ht₄⟩ := htick (k₁.setBlkList r₀ (pendListAdd k₁.tasks ((k₁.blkObj r₀).blkList.erase t) t))
      (by simp [k₁]) (by simp [k₁]) (by simp [k₁]) (by simp [k₁])
    refine h₂.exit (fun r => ?_) (fun _ => by simp [hk₁.1]) (fun r hr hm => ?_) ht₁ ht₂ ht₃ ht₄
      fun _ => by simpa using hbl
    · rw [blkObj_setBlkList, setBlkList_tasks]
      split
      · rename_i he
        subst he
        refine iff_of_true ?_ hk₁
        rw [pendListAdd_eq_orderedInsert, List.mem_orderedInsert]
        exact Or.inl rfl
      · rename_i hne
        refine iff_of_false (by simpa [k₁] using hother r hne) fun hr => hne ?_
        exact Option.some_injective _ (hr.1.symm.trans hk₁.1)
    · rw [blkObj_setBlkList] at hr hm ⊢
      rw [setBlkList_tasks]
      split at hm
      · rename_i he
        subst he
        rw [if_pos rfl, pendListAdd_eq_orderedInsert]
        refine orderedInsert_pairwise_le (fun a => (k₁.tasks a).prio) t ?_
        refine pairwise_of_except (h₁.sorted r hpol) List.erase_sublist fun a ha he => ?_
        exact (((h₁.nodup r).mem_erase_iff).mp (he ▸ ha)).1 rfl
      · rename_i hne
        exact absurd hm (by simpa [k₁] using hother r hne)
  · -- otherwise the list keeps its order
    rename_i hpol
    rw [if_neg hpol] at h₂
    obtain ⟨ht₁, ht₂, ht₃, ht₄⟩ := htick k₁ rfl (by simp [k₁]) (by simp [k₁]) (by simp [k₁])
    refine h₂.exit (fun r => ?_) (fun _ => by simp [hk₁.1]) (fun r hr hm => ?_) ht₁ ht₂ ht₃ ht₄
      fun _ => hbl
    · by_cases he : r = r₀
      · subst he
        exact iff_of_true (by simpa [k₁] using hin) hk₁
      · refine iff_of_false (by simpa [k₁] using hother r he) fun hr => he ?_
        exact Option.some_injective _ (hr.1.symm.trans hk₁.1)
    · by_cases he : r = r₀
      · subst he
        exact absurd hr hpol
      · exact absurd hm (by simpa [k₁] using hother r he)

/-- The loop of `task_pri_change` keeps the lists. Induction on the fuel: a ready,
sleeping or suspended task only takes its priority, a waiting one is also put back
in its list at it, and the loop goes on to the owner of the mutex it waits on. -/
theorem WaitInv.taskPriChangeLoop (fuel : Nat) :
    ∀ {k : Kernel} {t newPri : Nat}, k.WaitInv → (taskPriChangeLoop fuel k t newPri).1.WaitInv := by
  induction fuel with
  | zero => intro k _ _ h; exact h
  | succ fuel ih =>
    intro k t newPri h
    have hprio : ∀ k' : Kernel, k'.WaitInv → (k'.tasks t).taskState ≠ .pend →
        (k'.tasks t).taskState ≠ .pendSuspended →
        (k'.setTask t fun task => { task with prio := newPri }).WaitInv := fun k' h' hs₁ hs₂ =>
      h'.setTask_notPend (by simp [KTask.IsPend, hs₁, hs₂]) (by simp [KTask.IsPend, hs₁, hs₂])
        Iff.rfl rfl
    unfold Rhino.Kernel.taskPriChangeLoop
    split
    · exact h
    split
    · -- ready: out of the ready queue, then in again at the new priority
      rename_i hs
      have h₁ := hprio (k.readyListRm t) (WaitInvE.readyListRm h t) (by simp [hs]) (by simp [hs])
      dsimp only
      split
      · exact WaitInvE.readyListAddHead h₁ t
      · exact WaitInvE.readyListAddTail h₁ t
    · rename_i hs
      exact hprio k h (by simp [hs]) (by simp [hs])
    · rename_i hs
      exact hprio k h (by simp [hs]) (by simp [hs])
    · rename_i hs
      exact hprio k h (by simp [hs]) (by simp [hs])
    -- waiting: back in its list at the new priority, and the loop may go on
    · rename_i hs
      have h₁ := h.setPrio_reorder (Or.inl hs) newPri
      dsimp only
      split
      · exact ih h₁
      · exact h₁
    · rename_i hs
      have h₁ := h.setPrio_reorder (Or.inr hs) newPri
      dsimp only
      split
      · exact ih h₁
      · exact h₁
    · exact h

/-- The step from `k` to `k'` changes no task's state, `blk_obj`, tick mark or
`mm_alloc_flag`, nor the tick list: what a priority change does besides priorities
and the order of lists. -/
structure StatesKept (k k' : Kernel) : Prop where
  state : ∀ u, (k'.tasks u).taskState = (k.tasks u).taskState
  blkObj : ∀ u, (k'.tasks u).blkObj = (k.tasks u).blkObj
  tickHead : ∀ u, (k'.tasks u).tickHead = (k.tasks u).tickHead
  tickList : k'.tickList = k.tickList
  mmAllocFlag : ∀ u, (k'.tasks u).mmAllocFlag = (k.tasks u).mmAllocFlag

theorem StatesKept.refl (k : Kernel) : StatesKept k k :=
  ⟨fun _ => rfl, fun _ => rfl, fun _ => rfl, rfl, fun _ => rfl⟩

theorem StatesKept.trans {k'' : Kernel} (h₁ : StatesKept k k') (h₂ : StatesKept k' k'') :
    StatesKept k k'' :=
  ⟨fun u => (h₂.state u).trans (h₁.state u), fun u => (h₂.blkObj u).trans (h₁.blkObj u),
    fun u => (h₂.tickHead u).trans (h₁.tickHead u), h₂.tickList.trans h₁.tickList,
    fun u => (h₂.mmAllocFlag u).trans (h₁.mmAllocFlag u)⟩

theorem StatesKept.of_tasks (htasks : k'.tasks = k.tasks) (htick : k'.tickList = k.tickList) :
    StatesKept k k' :=
  ⟨fun u => by rw [htasks], fun u => by rw [htasks], fun u => by rw [htasks], htick, fun u => by rw [htasks]⟩

theorem statesKept_setPrio (t p : Nat) :
    StatesKept k (k.setTask t fun task => { task with prio := p }) := by
  refine ⟨fun u => ?_, fun u => ?_, fun u => ?_, rfl, fun u => ?_⟩ <;> by_cases hu : u = t <;> simp [hu]

theorem statesKept_setMutexList (t : Nat) (l : List Nat) :
    StatesKept k (k.setTask t fun task => { task with mutexList := l }) := by
  refine ⟨fun u => ?_, fun u => ?_, fun u => ?_, rfl, fun u => ?_⟩ <;> by_cases hu : u = t <;> simp [hu]

theorem statesKept_pendListReorder (t : Nat) : StatesKept k (k.pendListReorder t) := by
  refine StatesKept.of_tasks (pendListReorder_tasks k t) ?_
  unfold Kernel.pendListReorder
  split
  · split
    · exact setBlkList_tickList _ _
    · rfl
  · rfl

theorem statesKept_taskPriChangeLoop (fuel : Nat) :
    ∀ (k : Kernel) (t newPri : Nat), StatesKept k (taskPriChangeLoop fuel k t newPri).1 := by
  induction fuel with
  | zero => intro k _ _; exact StatesKept.refl k
  | succ fuel ih =>
    intro k t newPri
    unfold Rhino.Kernel.taskPriChangeLoop
    split
    · exact StatesKept.refl k
    split
    · have h₀ : StatesKept k (k.readyListRm t) := StatesKept.of_tasks rfl rfl
      have h₁ : StatesKept k ((k.readyListRm t).setTask t fun task => { task with prio := newPri }) :=
        h₀.trans (statesKept_setPrio t newPri)
      dsimp only
      split
      · exact h₁.trans (StatesKept.of_tasks rfl rfl)
      · exact h₁.trans (StatesKept.of_tasks rfl rfl)
    all_goals dsimp only
    · exact statesKept_setPrio t newPri
    · exact statesKept_setPrio t newPri
    · exact statesKept_setPrio t newPri
    -- a waiter: reordered, then perhaps the owner
    all_goals try split
    all_goals first
      | exact StatesKept.refl k
      | exact ((statesKept_setPrio t newPri).trans (statesKept_pendListReorder t)).trans (ih _ _ _)
      | exact (statesKept_setPrio t newPri).trans (statesKept_pendListReorder t)

theorem statesKept_mutexRelease (t : Nat) (rel : Option Nat) : StatesKept k (k.mutexRelease t rel) := by
  unfold Kernel.mutexRelease
  rcases k.mutexPriLook t rel with ⟨newPri, chain⟩
  dsimp only
  split
  · exact (statesKept_setMutexList t chain).trans (statesKept_taskPriChangeLoop _ _ _ _)
  · exact statesKept_setMutexList t chain

theorem statesKept_mutexTaskPriReset (t : Nat) : StatesKept k (k.mutexTaskPriReset t) := by
  unfold Kernel.mutexTaskPriReset
  split
  · split
    · split
      · split
        · exact statesKept_mutexRelease _ _
        · exact StatesKept.refl k
      · exact StatesKept.refl k
    · exact StatesKept.refl k
  · exact StatesKept.refl k

theorem WaitInv.mutexRelease (h : k.WaitInv) (t : Nat) (rel : Option Nat) :
    (k.mutexRelease t rel).WaitInv := by
  unfold Kernel.mutexRelease
  rcases k.mutexPriLook t rel with ⟨newPri, chain⟩
  have h₁ : (k.setTask t fun task => { task with mutexList := chain }).WaitInv :=
    WaitInvE.setTask_of h ⟨Iff.rfl, Iff.rfl, rfl, rfl, rfl, rfl⟩
  dsimp only
  split
  · exact WaitInv.taskPriChangeLoop _ h₁
  · exact h₁

theorem WaitInv.mutexTaskPriReset (h : k.WaitInv) (t : Nat) : (k.mutexTaskPriReset t).WaitInv := by
  unfold Kernel.mutexTaskPriReset
  split
  · split
    · split
      · split
        · exact h.mutexRelease _ none
        · exact h
      · exact h
    · exact h
  · exact h

/-- `task_mutex_free` wakes the first waiter of each mutex the task holds. -/
theorem WaitInv.taskMutexFree (h : k.WaitInv) (t : Nat) : (k.taskMutexFree t).WaitInv := by
  unfold Kernel.taskMutexFree
  generalize (k.tasks t).mutexList = ms
  induction ms generalizing k with
  | nil => exact h
  | cons m ms ih =>
    unfold Kernel.taskMutexFree.go
    split
    · rename_i w _ hl
      have hw : ¬(k.tasks w).IsSleep := h.not_sleep_of_mem (r := .mutex m)
        (by show w ∈ (k.mutexes m).blkObj.blkList; rw [hl]; exact List.mem_cons_self)
      have h₁ := WaitInvE.setMutex (h.pendTaskEnd hw .finish) (m := m)
        (f := fun mx => { mx with mutexTask := some w }) fun _ => ⟨rfl, rfl⟩
      exact ih (WaitInvE.setTask_of h₁ ⟨Iff.rfl, Iff.rfl, rfl, rfl, rfl, rfl⟩)
    · exact ih (WaitInvE.setMutex h fun _ => ⟨rfl, rfl⟩)

/-! ### The tick -/

/-- A waiting task whose wait ends early (a timeout, an abort, its deletion) leaves
the tick list and its blocked list for a state in which it neither waits nor
sleeps. -/
theorem WaitInv.endWait (h : k.WaitInv) {t : Nat} (hp : (k.tasks t).IsPend) {f : KTask → KTask}
    (hp' : ∀ x, ¬(f x).IsPend) (hs' : ∀ x, ¬(f x).IsSleep) (hh' : ∀ x, (f x).tickHead = x.tickHead) :
    (((k.tickListRm t).blkListRm t).setTask t f).WaitInv := by
  have hoff := tickListRm_off (h.tick_mem t not_false) h.tick_nodup
  refine ((((h.enter t).tickListRm rfl).blkListRm rfl).setTask_in rfl f).exit_quiet (fun r => ?_)
    (by simpa using hp' _) (by simpa using hs' _) (by simpa using hoff.1) (by simpa [hh'] using hoff.2)
  rw [setTask_blkObj, blkObj_blkListRm_tickListRm]
  exact h.not_mem_blkListRm not_false hp r

/-- The same, the task being queued as ready before it is made so. -/
theorem WaitInv.endWait_ready (h : k.WaitInv) {t : Nat} (hp : (k.tasks t).IsPend) {f : KTask → KTask}
    (hp' : ∀ x, ¬(f x).IsPend) (hs' : ∀ x, ¬(f x).IsSleep) (hh' : ∀ x, (f x).tickHead = x.tickHead) :
    ((((k.tickListRm t).blkListRm t).readyListAdd t).setTask t f).WaitInv :=
  WaitInvE.of_tasks (h.endWait hp hp' hs' hh') rfl (fun r => by cases r <;> exact ⟨rfl, rfl⟩) rfl rfl

/-- After a wait ends, `mutex_task_pri_reset` and `task->blk_obj = NULL`. -/
theorem WaitInv.resetBlkObj (h : k.WaitInv) {t : Nat} (hp : ¬(k.tasks t).IsPend) :
    ((k.mutexTaskPriReset t).setTask t fun task => { task with blkObj := none }).WaitInv := by
  have hst := (statesKept_mutexTaskPriReset (k := k) t).state t
  exact (h.mutexTaskPriReset t).setTask_notPend (by simpa [KTask.IsPend, hst] using hp)
    (by simpa [KTask.IsPend, hst] using hp) Iff.rfl rfl

/-- A sleeping task whose time is up is off the tick list in a state where it
neither waits nor sleeps. -/
theorem WaitInv.wake_sleeper (h : k.WaitInv) {t : Nat} (hs : (k.tasks t).IsSleep) {f : KTask → KTask}
    (hp' : ¬(f (k.tasks t)).IsPend) (hs' : ¬(f (k.tasks t)).IsSleep)
    (hh : (f (k.tasks t)).tickHead = (k.tasks t).tickHead) :
    ((k.setTask t f).tickListRm t).WaitInv := by
  have hp : ¬(k.tasks t).IsPend := by
    rcases hs with hs | hs <;> rintro (hp | hp) <;> simp_all
  have hoff := tickListRm_off (k := k.setTask t f) (t := t) (by simpa [hh] using h.tick_mem t not_false)
    (by simpa using h.tick_nodup)
  refine (((h.enter t).setTask_in rfl f).tickListRm rfl).exit_quiet (fun r hr => ?_) (by simpa using hp')
    (by simpa using hs') hoff.1 hoff.2
  exact hp ((h.mem r t not_false).mp (by simpa using hr)).2

theorem WaitInv.tickExpire (h : k.WaitInv) (t : Nat) : (k.tickExpire t).WaitInv := by
  unfold Kernel.tickExpire
  split
  · -- `K_SLEEP`: ready again
    rename_i hs
    exact WaitInvE.readyListAdd (h.wake_sleeper (Or.inl hs) (by simp [KTask.IsPend])
      (by simp [KTask.IsSleep]) rfl) t
  · -- `K_PEND`: off both lists and ready; the owner of a mutex recomputes its priority
    rename_i hs
    exact (h.endWait_ready (Or.inl hs) (f := fun task => { task with blkState := .timeout, taskState := .rdy })
      (fun _ => by simp [KTask.IsPend]) (fun _ => by simp [KTask.IsSleep]) fun _ => rfl).resetBlkObj
      (t := t) (by simp [KTask.IsPend])
  · -- `K_PEND_SUSPENDED`: the same, left suspended
    rename_i hs
    exact (h.endWait (Or.inr hs) (f := fun task => { task with blkState := .timeout, taskState := .suspended })
      (fun _ => by simp [KTask.IsPend]) (fun _ => by simp [KTask.IsSleep]) fun _ => rfl).resetBlkObj
      (t := t) (by simp [KTask.IsPend])
  · -- `K_SLEEP_SUSPENDED`: suspended
    rename_i hs
    exact h.wake_sleeper (Or.inr hs) (by simp [KTask.IsPend]) (by simp [KTask.IsSleep]) rfl
  · exact h

theorem WaitInv.tickListUpdate_go (l : List Nat) :
    ∀ {k : Kernel}, k.WaitInv → (tickListUpdate.go k l).WaitInv := by
  induction l with
  | nil => intro k h; exact h
  | cons t l ih =>
    intro k h
    unfold Kernel.tickListUpdate.go
    split
    · exact ih (h.tickExpire t)
    · exact h

theorem WaitInv.tickListUpdate (h : k.WaitInv) (ticks : Nat) : (k.tickListUpdate ticks).WaitInv := by
  unfold Kernel.tickListUpdate
  exact WaitInv.tickListUpdate_go _ (WaitInvE.of_tasks h rfl (fun r => by cases r <;> exact ⟨rfl, rfl⟩) rfl rfl)

theorem WaitInv.timeSliceUpdate (h : k.WaitInv) : k.timeSliceUpdate.WaitInv := by
  unfold Kernel.timeSliceUpdate
  dsimp only
  split
  · exact h
  · rename_i t rest _
    split
    · exact h
    split
    · exact h
    generalize (if 0 < (k.tasks t).timeSlice then (k.tasks t).timeSlice - 1
      else (k.tasks t).timeSlice) = slice
    have h₁ : (k.setTask t fun task => { task with timeSlice := slice }).WaitInv :=
      WaitInvE.setTask_of h ⟨Iff.rfl, Iff.rfl, rfl, rfl, rfl, rfl⟩
    split
    · exact h₁
    · exact WaitInvE.setTask_of (WaitInvE.readyListHeadToTail h₁ t) ⟨Iff.rfl, Iff.rfl, rfl, rfl, rfl, rfl⟩

end Kernel

end Rhino
