import AliosThings.Rhino.Pend

/-!
# Priority changes and priority inheritance (`k_task.c`, `k_mutex.c`)

A mutex owner runs at the best priority of its base priority and the first
waiter of each mutex it holds. `task_pri_change` sets one task's priority and
follows the chain of owners: a waiter that becomes more urgent raises the owner
of the mutex it waits on, and a waiter that set its owner's priority and becomes
less urgent makes the owner recompute it with `mutex_pri_look`. The loop of the
code has no bound of its own. The model runs it for `2 * P + 2` steps, where `P` is
the length of the ghost list of the tasks ever blocked; `PrioChain` shows that the
loop always ends within that many steps, so more steps change nothing.
-/

namespace Rhino

namespace Kernel

/-- The priority of the first waiter of a mutex, when it has one. -/
def firstBlkPrio (k : Kernel) (m : Nat) : Option Nat :=
  match (k.mutexes m).blkObj.blkList with
  | u :: _ => some (k.tasks u).prio
  | [] => none

/-- `mutex_pri_limit`: the best of `pri` and the first waiters of the mutexes the
task holds. As in the code, a mutex without waiters repeats the last priority read. -/
def mutexPriLimit (k : Kernel) (t pri : Nat) : Nat :=
  go (k.tasks t).mutexList pri pri
where
  go : List Nat → Nat → Nat → Nat
    | [], _, high => high
    | m :: ms, pri, high =>
      let pri := (k.firstBlkPrio m).getD pri
      go ms pri (if pri < high then pri else high)

/-- `mutex_pri_look`: the best of the base priority and the first waiters of the
mutexes the task holds, `mutex_rel` being unlinked from the chain on the way. It
returns the priority and the chain. -/
def mutexPriLook (k : Kernel) (t : Nat) (rel : Option Nat) : Nat × List Nat :=
  go (k.tasks t).mutexList (k.tasks t).bPrio (k.tasks t).bPrio
where
  go : List Nat → Nat → Nat → Nat × List Nat
    | [], newPri, _ => (newPri, [])
    | m :: ms, newPri, pri =>
      if some m = rel then go ms newPri pri
      else
        let pri := (k.firstBlkPrio m).getD pri
        let newPri := if newPri > pri then pri else newPri
        let r := go ms newPri pri
        (r.1, m :: r.2)

/-- `mutex_pri_limit` never gives a worse priority than the one asked for. -/
theorem mutexPriLimit_le (k : Kernel) (t pri : Nat) : k.mutexPriLimit t pri ≤ pri := by
  suffices h : ∀ ms p high, mutexPriLimit.go k ms p high ≤ high from h _ _ _
  intro ms
  induction ms with
  | nil => intro _ _; exact Nat.le_refl _
  | cons m ms ih =>
    intro p high
    refine (ih _ _).trans ?_
    split <;> omega

/-- `mutex_pri_look` never gives a worse priority than the base priority. -/
theorem mutexPriLook_le (k : Kernel) (t : Nat) (rel : Option Nat) :
    (k.mutexPriLook t rel).1 ≤ (k.tasks t).bPrio := by
  suffices h : ∀ ms newPri pri, (mutexPriLook.go k rel ms newPri pri).1 ≤ newPri from h _ _ _
  intro ms
  induction ms with
  | nil => intro _ _; exact Nat.le_refl _
  | cons m ms ih =>
    intro newPri pri
    unfold mutexPriLook.go
    split
    · exact ih _ _
    · refine (ih _ _).trans ?_
      split <;> omega

/-- Where the loop of `task_pri_change` goes after the waiting task `t`, which had
the priority `oldPri`, was given `newPri`: to the owner of the mutex it waits on,
with the priority that owner is to take, or nowhere (`task = NULL`). -/
def priChangeNext (k : Kernel) (t oldPri newPri : Nat) : Option (Nat × Nat) :=
  match (k.tasks t).blkObj with
  | some (.mutex m) =>
    if (k.mutexes m).blkObj.objType = .mutex then
      match (k.mutexes m).mutexTask with
      | some o =>
        -- the waiter became more urgent than the owner: raise the owner
        if (k.tasks o).prio > newPri then some (o, newPri)
        -- the waiter had set the owner's priority: the owner recomputes it
        else if (k.tasks o).prio = oldPri then
          let np := (k.mutexPriLook o none).1
          if np ≠ (k.tasks o).prio then some (o, np) else none
        else none
      | none => none
    else none
  | _ => none

/-- The loop only follows the owner of a mutex, with the waiter's priority or the
one `mutex_pri_look` gives. -/
theorem priChangeNext_eq_some {k : Kernel} {t oldPri newPri o p : Nat}
    (h : k.priChangeNext t oldPri newPri = some (o, p)) :
    (∃ m, (k.mutexes m).mutexTask = some o) ∧ (p = newPri ∨ p = (k.mutexPriLook o none).1) := by
  unfold priChangeNext at h
  split at h
  · rename_i m _
    split at h
    · split at h
      · rename_i o' howner
        split at h
        · cases h
          exact ⟨⟨m, howner⟩, Or.inl rfl⟩
        · split at h
          · simp only [] at h
            split at h
            · cases h
              exact ⟨⟨m, howner⟩, Or.inr rfl⟩
            · cases h
          · cases h
      · cases h
    · cases h
  · cases h

/-- The loop of `task_pri_change`, on at most `fuel` tasks. -/
def taskPriChangeLoop : Nat → Kernel → Nat → Nat → Kernel × Kstat
  | 0, k, _, _ => (k, .success)
  | fuel + 1, k, t, newPri =>
    if (k.tasks t).prio = newPri then (k, .success)
    else
      match (k.tasks t).taskState with
      | .rdy =>
        let k := k.readyListRm t
        let k := k.setTask t fun task => { task with prio := newPri }
        let k := if t = k.activeTask then k.readyListAddHead t else k.readyListAddTail t
        (k, .success)
      | .sleep | .suspended | .sleepSuspended =>
        (k.setTask t fun task => { task with prio := newPri }, .success)
      | .pend | .pendSuspended =>
        let oldPri := (k.tasks t).prio
        let k := (k.setTask t fun task => { task with prio := newPri }).pendListReorder t
        match k.priChangeNext t oldPri newPri with
        | some (o, p) => taskPriChangeLoop fuel k o p
        | none => (k, .success)
      | _ => (k, .invTaskState)

/-- `task_pri_change`: the loop, run for as many steps as it can take. -/
def taskPriChange (k : Kernel) (t newPri : Nat) : Kernel × Kstat :=
  taskPriChangeLoop (2 * k.blocked.length + 2) k t newPri

/-- `mutex_release`: the task gives up the priority `mutex_rel`'s waiters lent it. -/
def mutexRelease (k : Kernel) (t : Nat) (rel : Option Nat) : Kernel :=
  let (newPri, chain) := k.mutexPriLook t rel
  let k := k.setTask t fun task => { task with mutexList := chain }
  if newPri ≠ (k.tasks t).prio then (k.taskPriChange t newPri).1 else k

/-- `mutex_task_pri_reset`: a waiter leaves a mutex; when it had set the owner's
priority, the owner recomputes it. -/
def mutexTaskPriReset (k : Kernel) (t : Nat) : Kernel :=
  match (k.tasks t).blkObj with
  | some (.mutex m) =>
    if (k.mutexes m).blkObj.objType = .mutex then
      match (k.mutexes m).mutexTask with
      | some o => if (k.tasks o).prio = (k.tasks t).prio then k.mutexRelease o none else k
      | none => k
    else k
  | _ => k

end Kernel

end Rhino
