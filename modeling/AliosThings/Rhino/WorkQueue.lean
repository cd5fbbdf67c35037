import AliosThings.Rhino.Sem
import AliosThings.Lib.Machine

/-!
# Work queues (`k_workqueue.c`)

A work queue links works on `work_list` and counts them on its semaphore. Its
`worker_task` takes the semaphore, unlinks the first work and runs it. Queueing
takes two steps: `krhino_work_run`, or `work_timer_cb` for a delayed work, links
the work and sets `work_exit` in a critical section, and gives the semaphore after
it. The worker takes first and unlinks after. Between the two steps of either, with
interrupts enabled, the count and the list differ by one. What holds at every point
is that the count, the gives still to come, and a unit taken but not yet used add up
to the linked works; so the worker never unlinks from an empty list.

One queue is modelled, with the works that are run on it. A caller past its critical
section is counted in `gives`, and its give is a call of its own. The handler of a
work is not modelled: whatever it does is other calls. A give that finds the worker
blocked hands it the unit; here the count goes up and the worker takes it next.
-/

namespace Rhino

/-- What the work queue reads and writes of a `kwork_t`. -/
structure KWork where
  dly : Nat
  /-- `work_exit == 1`. -/
  workExit : Bool
  /-- `work->wq` is the queue, not `NULL`. -/
  wq : Bool
  /-- Its one-shot timer runs, with the queue as its argument. -/
  timerArmed : Bool
  deriving DecidableEq, Repr

/-- Where `worker_task` is in its loop. -/
inductive WorkerPc where
  /-- At `krhino_sem_take`, or blocked in it. -/
  | take
  /-- Past the take, before the critical section that unlinks the first work. -/
  | dequeue
  /-- Running the handler of `work_current`. -/
  | handle
  /-- Before the critical section that clears `work_current`. -/
  | clear
  deriving DecidableEq, Repr

/-- The unit of the semaphore the worker holds: one between its take and its dequeue. -/
def WorkerPc.held : WorkerPc → Nat
  | .dequeue => 1
  | _ => 0

/-- A `kworkqueue_t` with its works and the callers on their way to its semaphore. -/
structure WorkQueue where
  works : Nat → KWork
  workList : List Nat
  semCount : Nat
  workCurrent : Option Nat
  worker : WorkerPc
  /-- Callers that linked a work and have not yet given the semaphore. -/
  gives : Nat
  /-- `worker_task` took the head of an empty `work_list` for a work. -/
  fault : Bool

namespace WorkQueue

/-- Write the `kwork_t` of `w`. -/
def setWork (q : WorkQueue) (w : Nat) (f : KWork → KWork) : WorkQueue :=
  { q with works := fun u => if u = w then f (q.works w) else q.works u }

section

variable {q : WorkQueue}

@[simp] theorem setWork_works (w : Nat) (f : KWork → KWork) (u : Nat) :
    (q.setWork w f).works u = if u = w then f (q.works w) else q.works u := rfl

@[simp] theorem setWork_workList (w : Nat) (f : KWork → KWork) : (q.setWork w f).workList = q.workList := rfl
@[simp] theorem setWork_semCount (w : Nat) (f : KWork → KWork) : (q.setWork w f).semCount = q.semCount := rfl
@[simp] theorem setWork_gives (w : Nat) (f : KWork → KWork) : (q.setWork w f).gives = q.gives := rfl
@[simp] theorem setWork_worker (w : Nat) (f : KWork → KWork) : (q.setWork w f).worker = q.worker := rfl
@[simp] theorem setWork_fault (w : Nat) (f : KWork → KWork) : (q.setWork w f).fault = q.fault := rfl
@[simp] theorem setWork_workCurrent (w : Nat) (f : KWork → KWork) :
    (q.setWork w f).workCurrent = q.workCurrent := rfl

end

/-- The critical section of `krhino_work_run` and `work_timer_cb` that queues a work:
a work that runs or is queued already is left alone; otherwise it is linked at the
tail of `work_list`, and the semaphore is given after the section. -/
def workEnqueue (q : WorkQueue) (w : Nat) : WorkQueue × Kstat :=
  if q.workCurrent = some w then (q, .workqueueWorkRunning)
  else if (q.works w).workExit then (q, .workqueueWorkExist)
  else
    ({ q.setWork w fun work => { work with wq := true, workExit := true } with
        workList := q.workList.erase w ++ [w]
        gives := q.gives + 1 }, .success)

/-- `krhino_work_run`, up to its give: a delayed work has its timer started instead. -/
def krhinoWorkRun (q : WorkQueue) (w : Nat) : WorkQueue × Kstat :=
  if (q.works w).dly = 0 then q.workEnqueue w
  else (q.setWork w fun work => { work with timerArmed := true }, .success)

/-- `work_timer_cb`, when the one-shot timer of `w` fires, up to its give. -/
def workTimerCb (q : WorkQueue) (w : Nat) : WorkQueue :=
  ((q.setWork w fun work => { work with timerArmed := false }).workEnqueue w).1

/-- `krhino_sem_give` by a caller past its critical section; its status is the one
the caller returns. -/
def semGiveStep (q : WorkQueue) : WorkQueue × Kstat :=
  let q := { q with gives := q.gives - 1 }
  if q.semCount = semCountMax then (q, .semOvf) else ({ q with semCount := q.semCount + 1 }, .success)

/-- `krhino_work_cancel`. -/
def krhinoWorkCancel (q : WorkQueue) (w : Nat) : WorkQueue × Kstat :=
  if (q.works w).wq = false then
    if 0 < (q.works w).dly then (q.setWork w fun work => { work with timerArmed := false }, .success)
    else (q, .success)
  else if q.workCurrent = some w then (q, .workqueueWorkRunning)
  else if (q.works w).workExit then (q, .workqueueWorkExist)
  else ({ q.setWork w fun work => { work with wq := false } with workList := q.workList.erase w }, .success)

/-- One step of `worker_task`. -/
def workerStep (q : WorkQueue) : WorkQueue :=
  match q.worker with
  | .take => if 0 < q.semCount then { q with semCount := q.semCount - 1, worker := .dequeue } else q
  | .dequeue =>
    match q.workList with
    | w :: rest =>
      { q.setWork w fun work => { work with workExit := false } with
          workList := rest
          workCurrent := some w
          worker := .handle }
    -- `work_list.next` is the list head itself, taken for a work
    | [] => { q with fault := true, worker := .handle }
  | .handle => { q with worker := .clear }
  | .clear => { q with workCurrent := none, worker := .take }

end WorkQueue

/-- A call on the queue, a give by a caller past its critical section, or a step of
`worker_task`. -/
inductive WqCall where
  | run (w : Nat)
  | timerFire (w : Nat)
  | give
  | cancel (w : Nat)
  | worker
  deriving DecidableEq, Repr

/-- One call, answered. -/
def wqCall (q : WorkQueue) : WqCall → WorkQueue × Kstat
  | .run w => q.krhinoWorkRun w
  | .timerFire w => (q.workTimerCb w, .success)
  | .give => q.semGiveStep
  | .cancel w => q.krhinoWorkCancel w
  | .worker => (q.workerStep, .success)

/-- A queue just made by `krhino_workqueue_create`, and works made by
`krhino_work_init` with the delays `dly`. -/
def wqInit (dly : Nat → Nat) : WorkQueue where
  works w := ⟨dly w, false, false, false⟩
  workList := []
  semCount := 0
  workCurrent := none
  worker := .take
  gives := 0
  fault := false

/-- The interleavings the model admits: a timer fires only while it runs, and a give
comes from a caller past its critical section and does not meet the semaphore at its
largest count. -/
def wqOk (q : WorkQueue) : WqCall → Bool
  | .timerFire w => (q.works w).timerArmed
  | .give => 0 < q.gives && q.semCount != semCountMax
  | _ => true

/-! ### What every interleaving keeps -/

/-- The consistency of a queue: each work is linked at most once, exactly the works
with `work_exit == 1` are linked, the count, the gives still to come and a unit the
worker took but has not used add up to the linked works, and the worker has not taken
the list head for a work. -/
structure WqInv (q : WorkQueue) : Prop where
  nodup : q.workList.Nodup
  linked_iff : ∀ w, w ∈ q.workList ↔ (q.works w).workExit = true
  count : q.semCount + q.gives + q.worker.held = q.workList.length
  no_fault : q.fault = false

namespace WqInv

open WorkQueue

variable {q : WorkQueue}

/-- Writing a work's fields other than `work_exit` keeps the invariant. -/
theorem setWork (h : WqInv q) {w : Nat} {f : KWork → KWork} (hf : (f (q.works w)).workExit = (q.works w).workExit) :
    WqInv (q.setWork w f) := by
  refine ⟨h.nodup, fun u => ?_, h.count, h.no_fault⟩
  by_cases hu : u = w
  · subst hu
    simpa [hf] using h.linked_iff u
  · simpa [hu] using h.linked_iff u

/-- A unit taken and not yet used is a linked work. -/
theorem workList_ne_nil (h : WqInv q) (hd : q.worker = .dequeue) : q.workList ≠ [] := by
  intro hl
  have := h.count
  simp [hd, hl, WorkerPc.held] at this

theorem workEnqueue (h : WqInv q) (w : Nat) : WqInv (q.workEnqueue w).1 := by
  unfold WorkQueue.workEnqueue
  split_ifs with hc he
  · exact h
  · exact h
  -- the work is not linked, so it goes on the list once
  have hw : w ∉ q.workList := fun hm => he ((h.linked_iff w).mp hm)
  rw [List.erase_of_not_mem hw]
  have hdisj : ∀ a ∈ q.workList, ∀ b ∈ [w], a ≠ b := by
    rintro a ha b hb rfl
    rw [List.mem_singleton] at hb
    exact hw (hb ▸ ha)
  refine ⟨List.nodup_append.mpr ⟨h.nodup, List.nodup_singleton w, hdisj⟩, fun u => ?_, ?_, h.no_fault⟩
  · by_cases hu : u = w
    · subst hu
      simp
    · simpa [hu] using h.linked_iff u
  · have := h.count
    simp only [setWork_semCount, setWork_worker, List.length_append, List.length_singleton]
    omega

theorem krhinoWorkRun (h : WqInv q) (w : Nat) : WqInv (q.krhinoWorkRun w).1 := by
  unfold WorkQueue.krhinoWorkRun
  split
  · exact h.workEnqueue w
  · exact h.setWork (w := w) (f := fun work => { work with timerArmed := true }) rfl

theorem workTimerCb (h : WqInv q) (w : Nat) : WqInv (q.workTimerCb w) :=
  (h.setWork (w := w) (f := fun work => { work with timerArmed := false }) rfl).workEnqueue w

/-- A give that finds room: a gift still to come is now in the count. -/
theorem semGiveStep (h : WqInv q) (hg : 0 < q.gives) (hc : q.semCount ≠ semCountMax) :
    WqInv q.semGiveStep.1 := by
  unfold WorkQueue.semGiveStep
  dsimp only
  rw [if_neg hc]
  have := h.count
  exact ⟨h.nodup, h.linked_iff, by simp only; omega, h.no_fault⟩

theorem krhinoWorkCancel (h : WqInv q) (w : Nat) : WqInv (q.krhinoWorkCancel w).1 := by
  unfold WorkQueue.krhinoWorkCancel
  split_ifs with hwq hd hc he
  · exact h.setWork (w := w) (f := fun work => { work with timerArmed := false }) rfl
  · exact h
  · exact h
  · exact h
  · -- the work is not linked: `klist_rm_init` leaves the list as it is
    have hw : w ∉ q.workList := fun hm => he ((h.linked_iff w).mp hm)
    rw [List.erase_of_not_mem hw]
    exact h.setWork (w := w) (f := fun work => { work with wq := false }) rfl

theorem workerStep (h : WqInv q) : WqInv q.workerStep := by
  unfold WorkQueue.workerStep
  have hc := h.count
  split
  · -- the take: a unit moves from the count to the worker
    rename_i hpc
    split
    · refine ⟨h.nodup, h.linked_iff, ?_, h.no_fault⟩
      rw [hpc] at hc
      simp only [WorkerPc.held] at hc ⊢
      omega
    · exact h
  · -- the dequeue: the unit the worker holds pays for the first work
    rename_i hpc
    split
    · rename_i w rest hl
      rw [hl] at hc
      have hnd := h.nodup
      rw [hl, List.nodup_cons] at hnd
      refine ⟨hnd.2, fun u => ?_, ?_, h.no_fault⟩
      · by_cases hu : u = w
        · subst hu
          simp [hnd.1]
        · have := h.linked_iff u
          rw [hl] at this
          simpa [hu] using this
      · rw [hpc] at hc
        simp only [setWork_semCount, setWork_gives, WorkerPc.held, List.length_cons] at hc ⊢
        omega
    · rename_i hl
      exact absurd hl (h.workList_ne_nil hpc)
  · rename_i hpc
    refine ⟨h.nodup, h.linked_iff, ?_, h.no_fault⟩
    rw [hpc] at hc
    simpa [WorkerPc.held] using hc
  · rename_i hpc
    refine ⟨h.nodup, h.linked_iff, ?_, h.no_fault⟩
    rw [hpc] at hc
    simpa [WorkerPc.held] using hc

theorem call (h : WqInv q) (c : WqCall) (hc : wqOk q c = true) : WqInv (wqCall q c).1 := by
  cases c with
  | run w => exact h.krhinoWorkRun w
  | timerFire w => exact h.workTimerCb w
  | give =>
    simp only [wqOk, Bool.and_eq_true, decide_eq_true_eq, bne_iff_ne, ne_eq] at hc
    exact h.semGiveStep hc.1 hc.2
  | cancel w => exact h.krhinoWorkCancel w
  | worker => exact h.workerStep

end WqInv

theorem wqInv_init (dly : Nat → Nat) : WqInv (wqInit dly) where
  nodup := List.nodup_nil
  linked_iff := by simp [wqInit]
  count := rfl
  no_fault := rfl

/-- In every admissible interleaving from a new queue: no work is linked twice; the
linked works are those with `work_exit == 1`; the count of the semaphore, the gives
still to come and a unit the worker took but has not used add up to the linked works,
so that with no caller between its critical section and its give, and the worker not
between its take and its dequeue, the count is the number of linked works; and the
worker never takes a work from an empty list. -/
theorem workQueue_consistent {dly : Nat → Nat} {cs : List WqCall}
    (hok : Machine.allowed wqCall wqOk (wqInit dly) cs = true) :
    let q := Machine.exec wqCall (wqInit dly) cs
    q.workList.Nodup ∧ (∀ w, w ∈ q.workList ↔ (q.works w).workExit = true) ∧
      q.semCount + q.gives + q.worker.held = q.workList.length ∧
      (q.gives = 0 → q.worker ≠ .dequeue → q.semCount = q.workList.length) ∧
      (q.worker = .dequeue → q.workList ≠ []) ∧ q.fault = false := by
  intro q
  have h : WqInv q := Machine.exec_invariant_allowed WqInv (fun _ c h hc => h.call c hc) (wqInv_init dly) hok
  refine ⟨h.nodup, h.linked_iff, h.count, fun hg hd => ?_, h.workList_ne_nil, h.no_fault⟩
  have hc := h.count
  cases hw : q.worker <;> simp [hw, hg, WorkerPc.held] at hc hd ⊢ <;> omega

/-- Works `1` and `2` are run, and the worker runs both; then `1` is cancelled. -/
def wqTwoWorks : List WqCall :=
  [.run 1, .run 2, .give, .worker, .give, .worker, .worker, .worker, .worker, .worker, .cancel 1]

theorem workQueue_consistent_twoWorks :
    Machine.allowed wqCall wqOk (wqInit fun _ => 0) wqTwoWorks = true ∧
      (Machine.exec wqCall (wqInit fun _ => 0) wqTwoWorks).workList = [] ∧
      (Machine.exec wqCall (wqInit fun _ => 0) wqTwoWorks).fault = false :=
  have hok : Machine.allowed wqCall wqOk (wqInit fun _ => 0) wqTwoWorks = true := by decide
  ⟨hok, by decide, (workQueue_consistent hok).2.2.2.2.2⟩

/-- Past the critical section of `krhino_work_run` and before its give, one work is
linked and the count is zero; past the worker's take and before its dequeue, too. -/
theorem workQueue_count_lags :
    Machine.allowed wqCall wqOk (wqInit fun _ => 0) [.run 1, .give, .worker] = true ∧
      (Machine.exec wqCall (wqInit fun _ => 0) [.run 1]).workList = [1] ∧
      (Machine.exec wqCall (wqInit fun _ => 0) [.run 1]).semCount = 0 ∧
      (Machine.exec wqCall (wqInit fun _ => 0) [.run 1, .give, .worker]).workList = [1] ∧
      (Machine.exec wqCall (wqInit fun _ => 0) [.run 1, .give, .worker]).semCount = 0 := by
  decide

end Rhino
