import AliosThings.Lib.Machine

/-!
# Writers waiting for the garbage collector of the KV store

`aos_kv_set` tests `gc_triggered` before it takes `kv_mutex`. When a collection runs,
the writer counts itself in `gc_waiter` and waits on `gc_sem`; the collector task of
`aos_kv_gc`, as it exits, clears `gc_triggered` and signals `gc_sem` when `gc_waiter`
is not `0`. `trigger_gc` starts a collector and resets `gc_waiter`. None of these
accesses holds a lock, so each is one step, and a writer can test `gc_triggered` before
the collector clears it and count itself only after the collector has tested
`gc_waiter`: the signal is lost and the writer waits with no collector to wake it.

`gc_sem` is a counting semaphore of `aos_sem_new(&gc_sem, 0)`: a signal with no task
waiting adds one to its count, and a wait takes one unit when there is one.
-/

namespace Kv

/-- Where the test of `aos_kv_set` stands for one writer. -/
inductive WriterPc where
  /-- Not in the test: before it, or past the wait. -/
  | idle
  /-- Has read `gc_triggered != 0`. -/
  | sawGc
  /-- Has counted itself in `gc_waiter`. -/
  | counted
  /-- Waits on `gc_sem`. -/
  | blocked
  deriving DecidableEq, Repr

/-- Where a collector task of `aos_kv_gc` stands. -/
inductive GcPc where
  /-- Not started, or exited. -/
  | none
  /-- Started by `trigger_gc`, collecting under `kv_mutex`. -/
  | running
  /-- Has cleared `gc_triggered` and released the mutex. -/
  | cleared
  /-- Has read `gc_waiter > 0`. -/
  | signalling
  deriving DecidableEq, Repr

/-- The fields of `g_kv_mgr` the handshake uses, the writers, and the collector tasks by
the order `trigger_gc` created them in. -/
structure GcSync where
  gcTriggered : Bool
  gcWaiter : Nat
  semCount : Nat
  writers : Nat → WriterPc
  gcs : Nat → GcPc
  gcNext : Nat

/-- `memset(&g_kv_mgr, 0, ...)` and `aos_sem_new(&gc_sem, 0)`. -/
def gcSyncInit : GcSync := ⟨false, 0, 0, fun _ => .idle, fun _ => .none, 0⟩

/-- The atomic steps of the writers and of the collector. -/
inductive GcStep where
  /-- A writer's unlocked test of `gc_triggered`. -/
  | check (w : Nat)
  /-- `(g_kv_mgr.gc_waiter)++`, a `uint8_t`. -/
  | count (w : Nat)
  /-- `aos_sem_wait(&gc_sem, AOS_WAIT_FOREVER)`. -/
  | wait (w : Nat)
  /-- `trigger_gc`, from a writer that found the store short of clean blocks. -/
  | trigger
  /-- The exit of collector `g`: `gc_triggered = 0` and the unlock of `kv_mutex`. -/
  | clear (g : Nat)
  /-- Collector `g` tests `gc_waiter > 0`, and exits when it is not. -/
  | test (g : Nat)
  /-- Collector `g` calls `aos_sem_signal_all` and exits. -/
  | signalAll (g : Nat)
  deriving DecidableEq, Repr

namespace GcSync

variable (s : GcSync)

def setWriter (w : Nat) (pc : WriterPc) : GcSync :=
  { s with writers := Function.update s.writers w pc }

def setGc (g : Nat) (pc : GcPc) : GcSync := { s with gcs := Function.update s.gcs g pc }

/-- `aos_sem_signal_all`: every waiter wakes; with none, the count goes up (up to
`(sem_count_t)-1`, where `sem_give` refuses). -/
def semSignalAll (waiters : List Nat) : GcSync :=
  if waiters = [] then
    if s.semCount = 2 ^ 32 - 1 then s else { s with semCount := s.semCount + 1 }
  else { s with writers := fun w => if w ∈ waiters then .idle else s.writers w }

/-- `trigger_gc`. -/
def triggerGc : GcSync :=
  if s.gcTriggered then s
  else
    { s with gcWaiter := 0, gcTriggered := true, gcs := Function.update s.gcs s.gcNext .running,
             gcNext := s.gcNext + 1 }

end GcSync

open GcSync in
/-- One step, among the writers `0 … n - 1`; a step whose task is not where the step
applies changes nothing. -/
def gcStep (n : Nat) (s : GcSync) : GcStep → GcSync × Unit
  | .check w =>
    (if s.writers w = .idle ∧ s.gcTriggered then s.setWriter w .sawGc else s, ())
  | .count w =>
    (if s.writers w = .sawGc then
      { s.setWriter w .counted with gcWaiter := (s.gcWaiter + 1) % 256 } else s, ())
  | .wait w =>
    (if s.writers w = .counted then
      if s.semCount > 0 then { s.setWriter w .idle with semCount := s.semCount - 1 }
      else s.setWriter w .blocked
    else s, ())
  | .trigger => (s.triggerGc, ())
  | .clear g => (if s.gcs g = .running then { s.setGc g .cleared with gcTriggered := false } else s, ())
  | .test g =>
    (if s.gcs g = .cleared then s.setGc g (if s.gcWaiter > 0 then .signalling else .none) else s, ())
  | .signalAll g =>
    (if s.gcs g = .signalling then
      (s.setGc g .none).semSignalAll ((List.range n).filter fun w => s.writers w = .blocked)
    else s, ())

/-- A stranded writer: writer `w` waits on `gc_sem`, no collection is triggered, and no
collector task is left to signal it. -/
def Stranded (s : GcSync) (w : Nat) : Prop :=
  s.writers w = .blocked ∧ s.gcTriggered = false ∧ ∀ g, s.gcs g = .none

open Machine

/-- The order that strands a writer: it reads `gc_triggered` while the last collector
runs; the collector clears the flag, finds `gc_waiter == 0` and exits; the writer
then counts itself and waits. -/
theorem gcExit_strands_writer {n w g : Nat} (s : GcSync) (hw : s.writers w = .sawGc)
    (hg : s.gcs g = .running) (honly : ∀ g', g' ≠ g → s.gcs g' = .none) (hwaiter : s.gcWaiter = 0)
    (hsem : s.semCount = 0) :
    Stranded (exec (gcStep n) s [.clear g, .test g, .count w, .wait w]) w := by
  simp only [exec_cons, exec_nil, gcStep, GcSync.setWriter, GcSync.setGc, hg, hw, hwaiter, hsem,
    if_true, Function.update_self, gt_iff_lt, lt_irrefl, if_false]
  refine ⟨by simp, rfl, ?_⟩
  intro g'
  by_cases hg' : g' = g
  · subst hg'
    simp
  · simp [hg', honly g' hg']

/-- From `aos_kv_init`: a writer triggers a collection, writer `0` tests the flag while
the collector runs, and the collector exits before writer `0` counts itself. -/
theorem gcExit_strands_writer_init :
    Stranded (exec (gcStep 1) (exec (gcStep 1) gcSyncInit [.trigger, .check 0])
      [.clear 0, .test 0, .count 0, .wait 0]) 0 :=
  gcExit_strands_writer _ (by decide) (by decide)
    (fun g' hg' => by simp [exec, gcStep, gcSyncInit, GcSync.triggerGc, GcSync.setWriter, hg'])
    (by decide) (by decide)

end Kv
