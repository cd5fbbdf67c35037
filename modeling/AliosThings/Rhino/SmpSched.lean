import AliosThings.Rhino.ReadyQueue

/-!
# Task selection on more than one CPU

With `RHINO_CONFIG_CPU_NUM > 1`, `preferred_cpu_ready_task_get(rq, cpu)` cannot just
read the head of the best list: the task there may run on another CPU (`cur_exc`) or
be bound to one (`cpu_binded`, `cpu_num`). It walks the circular list of
`highest_pri` from `cur_list_item`; when the list is exhausted it clears that
priority in a local copy of the bitmap and goes on at the next set bit. It stops at
the CPU's running task, which it keeps, or at the first task that runs nowhere and
is free or bound to the CPU, which it marks as running there and makes the CPU's
preferred task.

The loop has no bound of its own. It ends because a ready task always stops it: the
CPU's idle task, which is either free to run or the running task. When it ends it
has passed every task of a better priority, so what it keeps or takes is of the best
priority among the eligible ready tasks. It passes the running task only when that
task is not in the queue: `core_sched` right after a task blocks takes the best
eligible task, whatever the priority of the task that blocked.
-/

namespace Rhino

/-- The fields of a `ktask_t` that the search reads and writes. -/
structure SmpTask where
  prio : Nat
  /-- `cur_exc`: the task runs on some CPU. -/
  curExc : Bool
  cpuBinded : Bool
  cpuNum : Nat
  deriving DecidableEq, Repr

/-- The globals `core_sched` reads with more than one CPU: the run queue, the control
blocks, and per CPU the running task, the preferred task, the interrupt level and
the scheduler lock. -/
structure SmpSched where
  readyQueue : RunQueue
  tasks : Nat → SmpTask
  activeTask : Nat → Nat
  preferredReadyTask : Nat → Nat
  intrptNested : Nat → Nat
  schedLock : Nat → Nat

/-- How the search ends: at the CPU's running task, or at a task it takes. -/
inductive SmpPick where
  | keep
  | pick (t : Nat)
  deriving DecidableEq, Repr

/-- The `flag` of the search: the task runs nowhere and is free, or bound to `cpu`. -/
def smpFlag (task : SmpTask) (cpu : Nat) : Bool :=
  (!task.curExc && !task.cpuBinded) || (!task.curExc && task.cpuBinded && task.cpuNum == cpu)

namespace SmpSched

/-- The loop of `preferred_cpu_ready_task_get`, for at most `fuel` nodes: `bm` is the
local copy of the bitmap, `pri` the local `highest_pri`, and `rest` the nodes of its
list from `iter` on. `none` when the fuel runs out, or where the code would read an
empty list or past the bitmap. -/
def searchLoop (s : SmpSched) (cpu : Nat) :
    Nat → (Nat → UInt32) → Nat → List Nat → Option SmpPick
  | 0, _, _, _ => none
  | _ + 1, _, _, [] => none
  | fuel + 1, bm, pri, t :: rest =>
    if s.activeTask cpu = t then some .keep
    else if smpFlag (s.tasks t) cpu then some (.pick t)
    else match rest with
      | [] =>
        -- the list is exhausted: its bit leaves the copy, and the search goes on at the
        -- next set bit
        match krhinoFindFirstBit (krhinoBitmapClear bm pri) with
        | some p => searchLoop s cpu fuel (krhinoBitmapClear bm pri) p (s.readyQueue.curListItem p)
        | none => none
      | u :: rest => searchLoop s cpu fuel bm pri (u :: rest)

/-- The nodes the run queue links; the search visits none of them twice. -/
def readyCount (rq : RunQueue) : Nat :=
  ∑ p ∈ Finset.range rhinoConfigPriMax, (rq.curListItem p).length

/-- The search of `preferred_cpu_ready_task_get(rq, cpu)`, from
`cur_list_item[highest_pri]` with the queue's own bitmap. -/
def preferredCpuReadyTaskGet (s : SmpSched) (cpu : Nat) : Option SmpPick :=
  s.searchLoop cpu (readyCount s.readyQueue) s.readyQueue.taskBitMap s.readyQueue.highestPri
    (s.readyQueue.curListItem s.readyQueue.highestPri)

/-- What the search writes when it takes `t`: `cpu_num`, `cur_exc` and
`g_preferred_ready_task[cpu]`. Keeping the running task writes nothing. -/
def takePick (s : SmpSched) (cpu : Nat) : SmpPick → SmpSched
  | .keep => s
  | .pick t =>
    { s with
      tasks := fun u => if u = t then { s.tasks t with cpuNum := cpu, curExc := true } else s.tasks u
      preferredReadyTask := fun c => if c = cpu then t else s.preferredReadyTask c }

/-- `g_active_task[cpu]->cur_exc = 0` and `cpu_task_switch`: the preferred task runs
on `cpu`. -/
def switchTask (s : SmpSched) (cpu : Nat) : SmpSched :=
  { s with
    tasks := fun u => if u = s.activeTask cpu then { s.tasks u with curExc := false } else s.tasks u
    activeTask := fun c => if c = cpu then s.preferredReadyTask cpu else s.activeTask c }

/-- `core_sched` on `cpu` with more than one CPU: nothing under an interrupt or the
scheduler lock; else the search, and a switch when the preferred task is not the
running one. `none` where the search does not end. -/
def coreSched (s : SmpSched) (cpu : Nat) : Option SmpSched :=
  if 0 < s.intrptNested cpu then some s
  else if 0 < s.schedLock cpu then some s
  else (s.preferredCpuReadyTaskGet cpu).map fun r =>
    if (s.takePick cpu r).preferredReadyTask cpu = (s.takePick cpu r).activeTask cpu then s.takePick cpu r
    else (s.takePick cpu r).switchTask cpu

/-! ## What the search is for -/

/-- The task may be taken by `cpu`: it runs nowhere, and it is free or bound to `cpu`. -/
def Eligible (s : SmpSched) (cpu t : Nat) : Prop :=
  (s.tasks t).curExc = false ∧ ((s.tasks t).cpuBinded = false ∨ (s.tasks t).cpuNum = cpu)

theorem smpFlag_eq_true (task : SmpTask) (cpu : Nat) :
    smpFlag task cpu = true ↔ task.curExc = false ∧ (task.cpuBinded = false ∨ task.cpuNum = cpu) := by
  obtain ⟨prio, curExc, cpuBinded, cpuNum⟩ := task
  cases curExc <;> cases cpuBinded <;> simp [smpFlag]

/-- What a selection over the ready set `R` must be. Keeping the running task: it is
ready and no eligible ready task beats it. Taking `t`: an eligible ready task other
than the running one, which no eligible ready task beats, nor the running task when
that task is ready. -/
def SelectSpec (s : SmpSched) (R : Nat → Prop) (cpu : Nat) : SmpPick → Prop
  | .keep => R (s.activeTask cpu) ∧
      ∀ u, R u → s.Eligible cpu u → (s.tasks (s.activeTask cpu)).prio ≤ (s.tasks u).prio
  | .pick t => R t ∧ t ≠ s.activeTask cpu ∧ s.Eligible cpu t ∧
      (∀ u, R u → s.Eligible cpu u → (s.tasks t).prio ≤ (s.tasks u).prio) ∧
      (R (s.activeTask cpu) → (s.tasks t).prio ≤ (s.tasks (s.activeTask cpu)).prio)

/-- Between two scheduling points `cur_exc` marks running tasks: a marked task is the
running task of the CPU its `cpu_num` names. -/
def ExcInv (s : SmpSched) : Prop :=
  ∀ t, (s.tasks t).curExc = true → s.activeTask (s.tasks t).cpuNum = t

/-! ## The loop's invariant -/

/-- The search goes past the task: it is not the running task and its flag is clear. -/
def Passed (s : SmpSched) (cpu t : Nat) : Prop :=
  s.activeTask cpu ≠ t ∧ smpFlag (s.tasks t) cpu = false

/-- The invariant of the loop at `(bm, pri, rest)`: `rest` is a non-empty end of the
list at `pri` whose beginning the search passed, it passed every list below `pri`,
and the copy of the bitmap marks the non-empty lists from `pri` on. -/
structure SearchInv (s : SmpSched) (cpu : Nat) (bm : Nat → UInt32) (pri : Nat) (rest : List Nat) :
    Prop where
  suffix : ∃ pre, pre ++ rest = s.readyQueue.curListItem pri ∧ ∀ u ∈ pre, s.Passed cpu u
  ne_nil : rest ≠ []
  below : ∀ p < pri, ∀ u ∈ s.readyQueue.curListItem p, s.Passed cpu u
  bits : ∀ p < 32 * numWords,
    Bitmap.test bm p = (!(s.readyQueue.curListItem p).isEmpty && decide (pri ≤ p))
  pri_lt : pri < rhinoConfigPriMax

/-- The nodes the search can still visit from `(pri, rest)`. -/
def pending (rq : RunQueue) (pri : Nat) (rest : List Nat) : Nat :=
  rest.length + ∑ p ∈ Finset.Ico (pri + 1) rhinoConfigPriMax, (rq.curListItem p).length

variable {s : SmpSched} {R : Nat → Prop} {cpu : Nat} {bm : Nat → UInt32} {pri t : Nat}
  {rest : List Nat}

theorem not_passed_of_eligible {u : Nat} (h : s.Eligible cpu u) : ¬s.Passed cpu u := by
  rintro ⟨-, hflag⟩
  rw [← Bool.not_eq_true, smpFlag_eq_true] at hflag
  exact hflag h

/-- A ready task the search has not passed is not below `pri`. -/
theorem SearchInv.prio_le (hR : s.readyQueue.Repr (fun t => (s.tasks t).prio) R)
    (hinv : s.SearchInv cpu bm pri rest) {u : Nat} (hu : R u) (hp : ¬s.Passed cpu u) :
    pri ≤ (s.tasks u).prio := by
  by_contra hlt
  exact hp (hinv.below _ (by omega) u ((hR.mem _ u).mpr ⟨hu, rfl⟩))

/-- The node the search looks at is a ready task of priority `pri`. -/
theorem SearchInv.mem_head (hR : s.readyQueue.Repr (fun t => (s.tasks t).prio) R)
    (hinv : s.SearchInv cpu bm pri (t :: rest)) : R t ∧ (s.tasks t).prio = pri := by
  obtain ⟨pre, hpre, -⟩ := hinv.suffix
  exact (hR.mem pri t).mp (by rw [← hpre]; simp)

theorem SearchInv.spec_keep (hR : s.readyQueue.Repr (fun t => (s.tasks t).prio) R)
    (hinv : s.SearchInv cpu bm pri (t :: rest)) (ha : s.activeTask cpu = t) :
    s.SelectSpec R cpu .keep := by
  obtain ⟨ht, hprio⟩ := hinv.mem_head hR
  subst ha
  exact ⟨ht, fun u hu he => hprio ▸ hinv.prio_le hR hu (not_passed_of_eligible he)⟩

theorem SearchInv.spec_pick (hR : s.readyQueue.Repr (fun t => (s.tasks t).prio) R)
    (hinv : s.SearchInv cpu bm pri (t :: rest)) (ha : ¬s.activeTask cpu = t)
    (hflag : smpFlag (s.tasks t) cpu = true) : s.SelectSpec R cpu (.pick t) := by
  obtain ⟨ht, hprio⟩ := hinv.mem_head hR
  refine ⟨ht, Ne.symm ha, (smpFlag_eq_true _ _).mp hflag, fun u hu he => ?_, fun hr => ?_⟩
  · exact hprio ▸ hinv.prio_le hR hu (not_passed_of_eligible he)
  · -- the running task is ready, so the search would have stopped at it below `pri`
    exact hprio ▸ hinv.prio_le hR hr fun hp => hp.1 rfl

/-- Going on in the same list: the node passed joins the beginning. -/
theorem SearchInv.tail {u : Nat} (hinv : s.SearchInv cpu bm pri (t :: u :: rest))
    (ht : s.Passed cpu t) : s.SearchInv cpu bm pri (u :: rest) where
  suffix := by
    obtain ⟨pre, hpre, hpass⟩ := hinv.suffix
    refine ⟨pre ++ [t], by rw [← hpre]; simp, fun v hv => ?_⟩
    rcases List.mem_append.mp hv with hv | hv
    · exact hpass v hv
    · rw [List.mem_singleton.mp hv]
      exact ht
  ne_nil := List.cons_ne_nil _ _
  below := hinv.below
  bits := hinv.bits
  pri_lt := hinv.pri_lt

/-- The copy with the bit of `pri` cleared, read through the invariant. -/
theorem SearchInv.test_clear (hinv : s.SearchInv cpu bm pri rest) {q : Nat} (hq : q < 32 * numWords) :
    Bitmap.test (krhinoBitmapClear bm pri) q =
      (decide (q ≠ pri) && (!(s.readyQueue.curListItem q).isEmpty && decide (pri ≤ q))) := by
  rw [krhinoBitmapClear_eq, Bitmap.test_clear, hinv.bits q hq]

/-- When the list at `pri` is exhausted and a ready task is still ahead, the next set
bit of the cleared copy is the next non-empty list, and the invariant holds there. -/
theorem SearchInv.next (hR : s.readyQueue.Repr (fun t => (s.tasks t).prio) R)
    (hsent : ∃ u, R u ∧ ¬s.Passed cpu u) (hinv : s.SearchInv cpu bm pri [t])
    (ht : s.Passed cpu t) :
    ∃ p, krhinoFindFirstBit (krhinoBitmapClear bm pri) = some p ∧ pri < p ∧
      p < rhinoConfigPriMax ∧ (∀ q, pri < q → q < p → s.readyQueue.curListItem q = []) ∧
      s.SearchInv cpu (krhinoBitmapClear bm pri) p (s.readyQueue.curListItem p) := by
  obtain ⟨u, hu, hup⟩ := hsent
  have hw : rhinoConfigPriMax ≤ 32 * numWords := by decide
  have hub := hR.bound u hu
  -- the list at `pri` is passed whole, so the task ahead is above `pri`
  have hall : ∀ v ∈ s.readyQueue.curListItem pri, s.Passed cpu v := by
    obtain ⟨pre, hpre, hpass⟩ := hinv.suffix
    intro v hv
    rw [← hpre, List.mem_append, List.mem_singleton] at hv
    rcases hv with hv | rfl
    · exact hpass v hv
    · exact ht
  have hgt : pri < (s.tasks u).prio := by
    have hle := hinv.prio_le hR hu hup
    have hne : (s.tasks u).prio ≠ pri := fun heq => hup (hall u ((hR.mem _ u).mpr ⟨hu, heq⟩))
    omega
  have hbit : Bitmap.test (krhinoBitmapClear bm pri) (s.tasks u).prio = true := by
    have hmem : u ∈ s.readyQueue.curListItem (s.tasks u).prio := (hR.mem _ u).mpr ⟨hu, rfl⟩
    rw [hinv.test_clear (by omega)]
    simp [List.ne_nil_of_mem hmem, hgt.ne', hgt.le]
  rw [krhinoFindFirstBit_eq]
  cases hf : Bitmap.findFirst (krhinoBitmapClear bm pri) 0 numWords with
  | none =>
    have hoff := Bitmap.findFirst_none hf (s.tasks u).prio (Nat.zero_le _) (by omega)
    rw [hbit] at hoff
    cases hoff
  | some p =>
    obtain ⟨-, hpw, hpt, hbefore⟩ := Bitmap.findFirst_some hf
    rw [hinv.test_clear (by omega)] at hpt
    simp only [Bool.and_eq_true, decide_eq_true_eq, Bool.not_eq_true', List.isEmpty_eq_false_iff]
      at hpt
    obtain ⟨hpne, hpl, hle⟩ := hpt
    -- the first set bit is not past the task ahead
    have hpu : p ≤ (s.tasks u).prio := by
      by_contra hlt
      rw [hbefore _ (Nat.zero_le _) (by omega)] at hbit
      cases hbit
    have hempty : ∀ q, pri < q → q < p → s.readyQueue.curListItem q = [] := by
      intro q hq hqp
      have hoff := hbefore q (Nat.zero_le _) hqp
      rw [hinv.test_clear (by omega)] at hoff
      simpa [hq.ne', hq.le] using hoff
    refine ⟨p, rfl, by omega, by omega, hempty, ⟨⟨[], by simp, by simp⟩, hpl, ?_, ?_, by omega⟩⟩
    · intro q hq v hv
      rcases lt_trichotomy q pri with hlt | heq | hgt'
      · exact hinv.below q hlt v hv
      · exact hall v (heq ▸ hv)
      · rw [hempty q hgt' hq] at hv
        cases hv
    · intro q hq
      rw [hinv.test_clear hq]
      by_cases hqp : p ≤ q
      · simp [show q ≠ pri by omega, show pri ≤ q by omega, hqp]
      · -- below `p` the cleared copy has no bit: below `pri`, at `pri`, or an empty list
        rcases lt_trichotomy q pri with hlt | heq | hgt'
        · simp [hqp, show ¬pri ≤ q by omega]
        · subst heq
          simp [hqp]
        · simp [hempty q hgt' (by omega)]

/-- The jump to the next non-empty list costs the one node left of the list at `pri`. -/
theorem pending_next (rq : RunQueue) {p : Nat} (hlt : pri < p) (hp : p < rhinoConfigPriMax)
    (hempty : ∀ q, pri < q → q < p → rq.curListItem q = []) :
    pending rq p (rq.curListItem p) + 1 = pending rq pri [t] := by
  unfold pending
  rw [← Finset.sum_Ico_consecutive _ (show pri + 1 ≤ p by omega) hp.le,
    Finset.sum_eq_sum_Ico_succ_bot hp]
  have hzero : ∑ q ∈ Finset.Ico (pri + 1) p, (rq.curListItem q).length = 0 := by
    refine Finset.sum_eq_zero fun q hq => ?_
    rw [Finset.mem_Ico] at hq
    rw [hempty q (by omega) hq.2, List.length_nil]
  rw [hzero, List.length_singleton]
  omega

/-- The loop ends within `pending` nodes, where a ready task it has not passed lies
ahead, and it ends with a selection of the specification. -/
theorem searchLoop_spec (hR : s.readyQueue.Repr (fun t => (s.tasks t).prio) R)
    (hsent : ∃ u, R u ∧ ¬s.Passed cpu u) :
    ∀ fuel bm pri rest, s.SearchInv cpu bm pri rest → pending s.readyQueue pri rest ≤ fuel →
      ∃ r, s.searchLoop cpu fuel bm pri rest = some r ∧ s.SelectSpec R cpu r := by
  intro fuel
  induction fuel with
  | zero =>
    intro bm pri rest hinv hf
    have hpos : 0 < rest.length := List.length_pos_iff.mpr hinv.ne_nil
    unfold pending at hf
    omega
  | succ fuel ih =>
    intro bm pri rest hinv hf
    obtain ⟨t, rest, rfl⟩ := List.exists_cons_of_ne_nil hinv.ne_nil
    by_cases ha : s.activeTask cpu = t
    · exact ⟨.keep, by simp [searchLoop, ha], hinv.spec_keep hR ha⟩
    by_cases hflag : smpFlag (s.tasks t) cpu = true
    · exact ⟨.pick t, by simp [searchLoop, ha, hflag], hinv.spec_pick hR ha hflag⟩
    have hpass : s.Passed cpu t := ⟨ha, by simpa using hflag⟩
    cases rest with
    | nil =>
      -- the list at `pri` is exhausted: the search jumps to the next non-empty one
      obtain ⟨p, hp, hlt, hpm, hempty, hinv'⟩ := hinv.next hR hsent hpass
      have hpend := pending_next (t := t) s.readyQueue hlt hpm hempty
      obtain ⟨r, hr, hspec⟩ := ih _ _ _ hinv' (by omega)
      exact ⟨r, by simp [searchLoop, ha, hflag, hp, hr], hspec⟩
    | cons u rest =>
      have hpend : pending s.readyQueue pri (u :: rest) + 1 = pending s.readyQueue pri (t :: u :: rest) := by
        simp only [pending, List.length_cons]
        omega
      obtain ⟨r, hr, hspec⟩ := ih _ _ _ (hinv.tail hpass) (by omega)
      exact ⟨r, by simp [searchLoop, ha, hflag, hr], hspec⟩

/-- At the start the search is at the head of the first non-empty list with the
queue's own bitmap. -/
theorem searchInv_init (hR : s.readyQueue.Repr (fun t => (s.tasks t).prio) R) (hex : ∃ u, R u) :
    s.SearchInv cpu s.readyQueue.taskBitMap s.readyQueue.highestPri
      (s.readyQueue.curListItem s.readyQueue.highestPri) := by
  obtain ⟨t, rest, hl, ht, -⟩ := hR.head hex
  have hlt : s.readyQueue.highestPri < rhinoConfigPriMax := by
    have hmem := (hR.mem _ t).mp (by rw [hl]; exact List.mem_cons_self)
    rw [← hmem.2]
    exact hR.bound t ht
  refine ⟨⟨[], by simp, by simp⟩, by simp [hl], fun p hp u hu => ?_, fun p hp => ?_, hlt⟩
  · rw [hR.below p hp] at hu
    cases hu
  · rw [hR.bit p hp]
    by_cases hph : s.readyQueue.highestPri ≤ p
    · simp [hph]
    · simp [hph, hR.below p (by omega)]

theorem pending_init_le (hlt : s.readyQueue.highestPri < rhinoConfigPriMax) :
    pending s.readyQueue s.readyQueue.highestPri (s.readyQueue.curListItem s.readyQueue.highestPri) ≤
      readyCount s.readyQueue := by
  have hsplit := Finset.sum_eq_sum_Ico_succ_bot hlt fun p => (s.readyQueue.curListItem p).length
  unfold pending readyCount
  rw [← hsplit]
  refine Finset.sum_le_sum_of_subset fun q hq => ?_
  rw [Finset.mem_Ico] at hq
  exact Finset.mem_range.mpr hq.2

/-- The CPU's idle task stops the search: it is free to run, or it is the running task. -/
theorem idle_not_passed (hexc : s.ExcInv) {i : Nat} (hic : (s.tasks i).cpuNum = cpu) :
    ¬s.Passed cpu i := by
  rintro ⟨hna, hflag⟩
  cases hc : (s.tasks i).curExc
  · -- free to run: the flag holds whether or not it is bound
    rw [← Bool.not_eq_true, smpFlag_eq_true] at hflag
    exact hflag ⟨hc, by cases (s.tasks i).cpuBinded <;> simp [hic]⟩
  · have hrun := hexc i hc
    rw [hic] at hrun
    exact hna hrun

/-- The search ends with a selection of the specification wherever a ready task it
cannot pass is in the queue. -/
theorem preferredCpuReadyTaskGet_spec (hR : s.readyQueue.Repr (fun t => (s.tasks t).prio) R)
    (hsent : ∃ u, R u ∧ ¬s.Passed cpu u) :
    ∃ r, s.preferredCpuReadyTaskGet cpu = some r ∧ s.SelectSpec R cpu r := by
  have hinv : s.SearchInv cpu _ _ _ := searchInv_init hR (hsent.imp fun _ h => h.1)
  exact searchLoop_spec hR hsent _ _ _ _ hinv (pending_init_le hinv.pri_lt)

theorem preferredCpuReadyTaskGet_selects (hR : s.readyQueue.Repr (fun t => (s.tasks t).prio) R)
    (hexc : s.ExcInv) {i : Nat} (hi : R i) (hic : (s.tasks i).cpuNum = cpu) :
    ∃ r, s.preferredCpuReadyTaskGet cpu = some r ∧ s.SelectSpec R cpu r :=
  preferredCpuReadyTaskGet_spec hR ⟨i, hi, idle_not_passed hexc hic⟩

/-! ## `core_sched` -/

/-- What `core_sched` keeps: the run queue holds `R`, `cur_exc` marks the running
tasks, and each CPU's preferred task is its running task. -/
structure SmpInv (s : SmpSched) (R : Nat → Prop) : Prop where
  ready : s.readyQueue.Repr (fun t => (s.tasks t).prio) R
  exc : s.ExcInv
  preferred : ∀ c, s.preferredReadyTask c = s.activeTask c

@[simp] theorem takePick_readyQueue (r : SmpPick) : (s.takePick cpu r).readyQueue = s.readyQueue := by
  cases r <;> rfl

@[simp] theorem takePick_activeTask (r : SmpPick) : (s.takePick cpu r).activeTask = s.activeTask := by
  cases r <;> rfl

@[simp] theorem takePick_prio (r : SmpPick) (u : Nat) :
    ((s.takePick cpu r).tasks u).prio = (s.tasks u).prio := by
  cases r with
  | keep => rfl
  | pick t => by_cases hu : u = t <;> simp [takePick, hu]

@[simp] theorem switchTask_readyQueue : (s.switchTask cpu).readyQueue = s.readyQueue := rfl

@[simp] theorem switchTask_prio (u : Nat) : ((s.switchTask cpu).tasks u).prio = (s.tasks u).prio := by
  by_cases hu : u = s.activeTask cpu <;> simp [switchTask, hu]

/-- Taking `t` and switching to it: `t` is marked on `cpu`, the old running task is
unmarked, and every other mark still names its CPU's running task. -/
theorem ExcInv.takePick_switchTask (hexc : s.ExcInv) {t : Nat} (hta : t ≠ s.activeTask cpu) :
    ((s.takePick cpu (.pick t)).switchTask cpu).ExcInv := by
  intro u hu
  by_cases hua : u = s.activeTask cpu
  · simp [switchTask, hua] at hu
  by_cases hut : u = t
  · subst hut
    simp [switchTask, takePick, hua]
  · simp only [switchTask, takePick, hua, hut, if_false] at hu ⊢
    have hrun := hexc u hu
    -- a mark on `cpu` would name the old running task
    have hc : (s.tasks u).cpuNum ≠ cpu := fun hc => hua (hc ▸ hrun).symm
    simp [hc, hrun]

/-- `core_sched` on a CPU that neither an interrupt nor the lock holds back keeps the
invariant and ends with a ready task running there that no eligible ready task beats. -/
theorem SmpInv.coreSched (h : s.SmpInv R) {i : Nat} (hi : R i) (hic : (s.tasks i).cpuNum = cpu)
    (hn : s.intrptNested cpu = 0) (hl : s.schedLock cpu = 0) :
    ∃ s', s.coreSched cpu = some s' ∧ s'.SmpInv R ∧ R (s'.activeTask cpu) ∧
      ∀ u, R u → s.Eligible cpu u → (s'.tasks (s'.activeTask cpu)).prio ≤ (s'.tasks u).prio := by
  obtain ⟨r, hr, hspec⟩ := preferredCpuReadyTaskGet_spec h.ready ⟨i, hi, idle_not_passed h.exc hic⟩
  simp only [SmpSched.coreSched, hn, hl, lt_irrefl, if_false, hr, Option.map_some, Option.some.injEq,
    exists_eq_left']
  cases r with
  | keep =>
    -- the running task stays: it is the preferred task already
    obtain ⟨hra, hbest⟩ := hspec
    have hkeep : (s.takePick cpu .keep) = s := rfl
    rw [hkeep, if_pos (h.preferred cpu)]
    exact ⟨h, hra, hbest⟩
  | pick t =>
    obtain ⟨ht, hta, -, hbest, -⟩ := hspec
    have hpref : (s.takePick cpu (.pick t)).preferredReadyTask cpu ≠ (s.takePick cpu (.pick t)).activeTask cpu := by
      simp [takePick, hta]
    rw [if_neg hpref]
    have hact : ((s.takePick cpu (.pick t)).switchTask cpu).activeTask cpu = t := by
      simp [switchTask, takePick]
    refine ⟨⟨?_, h.exc.takePick_switchTask hta, fun c => ?_⟩, by rw [hact]; exact ht, ?_⟩
    · exact h.ready.mono (fun _ => Iff.rfl) fun u _ => by simp
    · by_cases hc : c = cpu
      · subst hc
        simp [switchTask, takePick]
      · simp [switchTask, takePick, hc, h.preferred c]
    · intro u hu he
      simpa [hact] using hbest u hu he

/-- Two CPUs. Task `2`, of priority `5`, ran on CPU `0` and has just left the run
queue, as `krhino_task_sleep` leaves it before its `core_sched`; task `3`, of priority
`20`, is ready and free; the idle tasks `0` and `1` are ready at `RHINO_IDLE_PRI`,
bound to CPUs `0` and `1`, and idle task `1` runs on CPU `1`. -/
def sleepState : SmpSched where
  readyQueue :=
    { curListItem := fun p => if p = 20 then [3] else if p = rhinoIdlePri then [0, 1] else []
      taskBitMap := Bitmap.set (Bitmap.set (fun _ => 0) 20) rhinoIdlePri
      highestPri := 20 }
  tasks := fun t =>
    if t = 0 then ⟨rhinoIdlePri, false, true, 0⟩
    else if t = 1 then ⟨rhinoIdlePri, true, true, 1⟩
    else if t = 2 then ⟨5, true, false, 0⟩
    else if t = 3 then ⟨20, false, false, 0⟩
    else ⟨0, false, false, 0⟩
  activeTask := fun c => if c = 0 then 2 else 1
  preferredReadyTask := fun c => if c = 0 then 2 else 1
  intrptNested := fun _ => 0
  schedLock := fun _ => 0

/-- The ready tasks of `sleepState`. -/
def sleepReady (t : Nat) : Prop := t = 0 ∨ t = 1 ∨ t = 3

theorem sleepState_repr :
    sleepState.readyQueue.Repr (fun t => (sleepState.tasks t).prio) sleepReady where
  mem p t := by
    have hidle : rhinoIdlePri = 61 := rfl
    rcases (show 4 ≤ t ∨ t = 0 ∨ t = 1 ∨ t = 2 ∨ t = 3 by omega) with ht | rfl | rfl | rfl | rfl
    · -- the tasks past `3` are in no list and not ready
      have hne : t ≠ 0 ∧ t ≠ 1 ∧ t ≠ 2 ∧ t ≠ 3 := by omega
      simp only [sleepState, sleepReady, hidle, hne, if_false, false_or]
      split_ifs <;> simp <;> omega
    all_goals by_cases h20 : p = 20 <;> by_cases h61 : p = 61 <;>
      simp [sleepState, sleepReady, hidle, h20, h61] <;> omega
  nodup p := by
    simp only [sleepState]
    split_ifs <;> decide
  bound t ht := by
    rcases ht with rfl | rfl | rfl <;> decide
  bit := by decide
  highest_le := by decide
  below p hp := by
    change p < 20 at hp
    simp [sleepState, show p ≠ 20 by omega, show p ≠ rhinoIdlePri by simp [rhinoIdlePri, rhinoConfigPriMax]; omega]
  at_highest _ := by simp [sleepState]

theorem sleepState_excInv : sleepState.ExcInv := by
  intro t ht
  simp only [sleepState] at ht ⊢
  split_ifs at ht ⊢ <;> simp_all

theorem preferredCpuReadyTaskGet_passes_blocked :
    sleepState.readyQueue.Repr (fun t => (sleepState.tasks t).prio) sleepReady ∧
      sleepState.ExcInv ∧ sleepReady 0 ∧ (sleepState.tasks 0).cpuBinded = true ∧
      (sleepState.tasks 0).cpuNum = 0 ∧ sleepState.preferredCpuReadyTaskGet 0 = some (.pick 3) ∧
      (sleepState.tasks (sleepState.activeTask 0)).prio < (sleepState.tasks 3).prio :=
  ⟨sleepState_repr, sleepState_excInv, Or.inl rfl, rfl, rfl, by decide, by decide⟩

theorem preferredCpuReadyTaskGet_selects_sleep :
    ∃ r, sleepState.preferredCpuReadyTaskGet 0 = some r ∧ sleepState.SelectSpec sleepReady 0 r :=
  preferredCpuReadyTaskGet_selects sleepState_repr sleepState_excInv (Or.inl rfl) rfl

end SmpSched

end Rhino
