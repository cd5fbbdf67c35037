import AliosThings.Rhino.TaskFate

/-!
# What the takes of a semaphore return, over a run

A `krhino_sem_give` that finds a task waiting hands it the unit: the count stays as it
is, and the taker's `krhino_sem_take` returns `RHINO_SUCCESS` when the task runs again
and `pend_state_end_proc` reads `BLK_FINISH`. The units of a semaphore balance once
those returns are counted where they happen.

A watch beside the kernel (`semWatch`) keeps the tasks whose take on semaphore `s` has
still to return: those that wait on `s`, and those whose wait ended and that have not
run since. Call by call it reports the units given, the takes that return
`RHINO_SUCCESS` (at once, or as a watched task runs again), and the units handed to a
task that is deleted before it runs, whose take never returns. Between two calls the
units in transit are those handed to a watched task that has not run
(`handedUnits`). Over every admissible run from `krhino_init` on which no call sets the
count outright, the count and the units in transit before, with the units given, are
the count and the units in transit after, with the takes that returned
`RHINO_SUCCESS` and the units lost (`reachable_stockOk_semReturns`).
-/

namespace Rhino

/-- Counts that agree element by element agree over the list. -/
theorem countP_balance {α : Type*} {p₁ p₂ q₁ q₂ q₃ : α → Prop} [DecidablePred p₁] [DecidablePred p₂]
    [DecidablePred q₁] [DecidablePred q₂] [DecidablePred q₃] :
    ∀ {l : List α}, (∀ a ∈ l, (if p₁ a then 1 else 0) + (if p₂ a then 1 else 0) =
      (if q₁ a then 1 else 0) + (if q₂ a then 1 else 0) + (if q₃ a then 1 else 0)) →
    l.countP (p₁ ·) + l.countP (p₂ ·) = l.countP (q₁ ·) + l.countP (q₂ ·) + l.countP (q₃ ·)
  | [], _ => rfl
  | a :: l, h => by
    have ha := h a List.mem_cons_self
    have hl := countP_balance fun b hb => h b (List.mem_cons_of_mem a hb)
    simp only [List.countP_cons, decide_eq_true_eq]
    omega

/-- A task whose wait has ended counts once for the unit it holds: as held while it
does not run, as taken when it runs. -/
theorem KTask.Ended.held_or_taken {x : KTask} {st : BlkState} (he : x.Ended st) (t a : Nat) :
    ((if t ≠ a ∧ x.taskState ≠ .deleted ∧ x.Ended .finish then 1 else 0) +
      if t = a ∧ x.blkState = .finish then 1 else 0) = if st = .finish then 1 else 0 := by
  by_cases hf : st = .finish <;> by_cases ht : t = a <;>
    simp [KTask.Ended, he.1, he.2, he.ne_deleted, hf, ht]

/-- What the watch of a semaphore reports of one call. -/
structure SemFlow where
  /-- A `krhino_sem_give` that returned `RHINO_SUCCESS`. -/
  given : Nat
  /-- Takes that return `RHINO_SUCCESS`: at once, or as a watched task runs again. -/
  taken : Nat
  /-- Units handed to watched tasks that are deleted before they run. -/
  lost : Nat
  deriving DecidableEq, Repr

namespace Kernel

/-- The watch of semaphore `s` over one call from `k` to `k'`: the watched tasks gain
the new waiters of `s` and lose the task that now runs and the deleted ones. A watched
task that now runs returns from its take with `pend_state_end_proc`. -/
def semObserve (s : Nat) (k k' : Kernel) (c : KCall) (out : List Nat) : List Nat × SemFlow :=
  let out₁ := out ++ (k'.sems s).blkObj.blkList.filter (· ∉ out)
  (out₁.filter fun t => t ≠ k'.activeTask ∧ (k'.tasks t).taskState ≠ .deleted,
    ⟨(semUnits s k c).given,
      (semUnits s k c).taken + out.countP fun t => t = k'.activeTask ∧ pendStateEndProc (k'.tasks t) = .success,
      out.countP fun t => (k.tasks t).Ended .finish ∧ (k'.tasks t).taskState = .deleted⟩)

/-- The kernel with the watch of semaphore `s` beside it. -/
def semWatch (s : Nat) : Kernel × List Nat → KCall → (Kernel × List Nat) × SemFlow :=
  Machine.watch call (semObserve s)

/-- The units in transit: handed to a watched task that has not run since. -/
def handedUnits (w : Kernel × List Nat) : Nat :=
  w.2.countP fun t => (w.1.tasks t).Ended .finish

variable {s : Nat} {w : Kernel × List Nat} {c : KCall}

theorem semWatch_fst (s : Nat) (w : Kernel × List Nat) (c : KCall) :
    (semWatch s w c).1 = ((w.1.call c).1, (semObserve s w.1 (w.1.call c).1 c w.2).1) := rfl

theorem semWatch_snd (s : Nat) (w : Kernel × List Nat) (c : KCall) :
    (semWatch s w c).2 = (semObserve s w.1 (w.1.call c).1 c w.2).2 := rfl

theorem exec_semWatch_fst (s : Nat) (w : Kernel × List Nat) (cs : List KCall) :
    (Machine.exec (semWatch s) w cs).1 = Machine.exec call w.1 cs :=
  Machine.exec_watch_fst _ _ _ _

/-- The watch's invariant, beside the kernel's: the watched tasks are distinct, every
waiter of `s` is watched, and a watched task waits on `s`, or is ready or suspended
and does not run. -/
structure SemWatchInv (s : Nat) (w : Kernel × List Nat) : Prop where
  inv : w.1.Inv
  waitInv : w.1.WaitInv
  nodup : w.2.Nodup
  waiters : ∀ t, (w.1.tasks t).WaitsOn (.sem s) → t ∈ w.2
  watched : ∀ t ∈ w.2, (w.1.tasks t).WaitsOn (.sem s) ∨ ((w.1.tasks t).Resumable ∧ t ≠ w.1.activeTask)

/-- Nothing waits at `krhino_init`, and nothing is watched. -/
theorem semWatchInv_init (s : Nat) : SemWatchInv s (krhinoInit, []) where
  inv := krhinoInit_inv
  waitInv := krhinoInit_waitInv
  nodup := List.nodup_nil
  waiters t ht := by
    have hm : t ∈ (krhinoInit.sems s).blkObj.blkList := krhinoInit_waitInv.mem_sem_iff.mpr ht
    rw [show (krhinoInit.sems s).blkObj.blkList = [] from rfl] at hm
    exact absurd hm List.not_mem_nil
  watched t ht := absurd ht List.not_mem_nil

/-- Every admissible call keeps the watch's invariant. -/
theorem SemWatchInv.step (hw : SemWatchInv s w) (hc : w.1.callOk c = true) : SemWatchInv s (semWatch s w c).1 := by
  obtain ⟨k, out⟩ := w
  have h' : (k.call c).1.Inv := hw.inv.call c hc
  have hw' : (k.call c).1.WaitInv := hw.waitInv.call hw.inv c hc
  rw [semWatch_fst]
  refine ⟨h', hw', ?_, ?_, ?_⟩
  · -- the new waiters are added once, and only those not watched already
    refine List.Nodup.filter _ (List.nodup_append.mpr ⟨hw.nodup, (hw'.nodup (.sem s)).filter _, ?_⟩)
    intro a ha b hb hab
    subst hab
    have hb' := (List.mem_filter.mp hb).2
    simp [ha] at hb'
  · -- a waiter after the call is watched: it neither runs nor is deleted
    intro t ht
    have hp := ht.1
    have hta : t ≠ (k.call c).1.activeTask := fun he => not_isPend_of_isRdy (he ▸ h'.active_rdy) hp
    have hdel : ((k.call c).1.tasks t).taskState ≠ .deleted := by
      rcases hp with hp | hp <;> rw [hp] <;> decide
    simp only [semObserve, List.mem_filter, List.mem_append, decide_eq_true_eq]
    refine ⟨?_, hta, hdel⟩
    by_cases hto : t ∈ out
    · exact .inl hto
    · exact .inr ⟨hw'.mem_sem_iff.mpr ht, hto⟩
  · -- a watched task waits on `s`, or its wait ended and it has not run
    intro t ht
    simp only [semObserve, List.mem_filter, List.mem_append, decide_eq_true_eq] at ht
    obtain ⟨ht | ⟨ht, -⟩, hta, hdel⟩ := ht
    · rcases hw.watched t ht with hu | ⟨hu, hta₀⟩
      · rcases waitsOn_sem_call hw.inv hw.waitInv hc hu with hu' | hd' | ⟨st, he', -⟩
        · exact .inl hu'
        · exact absurd hd' hdel
        · exact .inr ⟨he'.1, hta⟩
      · rcases resumable_call hw.waitInv hc hu hta₀ with hd' | he'
        · exact absurd hd' hdel
        · exact .inr ⟨he'.1, hta⟩
    · exact .inl (hw'.mem_sem_iff.mp ht)

/-! ### One call -/

/-- The unit a give hands over goes to a watched task, which the watch counts once. -/
theorem semUnits_handed (hw : SemWatchInv s w) (hs : ¬c.SetsCount s) :
    (semUnits s w.1 c).handed = w.2.countP fun t => c.semHandedTo w.1 s = some t := by
  obtain ⟨k, out⟩ := w
  cases c
  case semGive s' =>
    by_cases hss : s' = s
    · subst hss
      by_cases hty : (k.sems s').blkObj.objType = .sem
      · cases hl : (k.sems s').blkObj.blkList with
        | nil =>
          have h0 : (semUnits s' k (.semGive s')).handed = 0 := by
            simp only [semUnits]
            split <;> simp
          rw [h0, eq_comm, List.countP_eq_zero]
          simp [KCall.semHandedTo, hl]
        | cons v vs =>
          -- the give succeeds and hands its unit to `v`, a watched waiter
          have hsucc : (k.krhinoSemGive s').2 = .success := by
            unfold krhinoSemGive semGive
            dsimp only
            rw [if_neg (not_not.mpr hty)]
            split
            · rename_i hl'
              exact absurd (hl.symm.trans hl') (List.cons_ne_nil _ _)
            · rfl
          have hv : v ∈ out := hw.waiters v (hw.waitInv.mem_sem_iff.mp (by rw [hl]; exact List.mem_cons_self))
          have h1 : (semUnits s' k (.semGive s')).handed = 1 := by
            simp [semUnits, hsucc, hl]
          rw [h1, ← List.count_eq_one_of_mem hw.nodup hv]
          exact List.countP_congr fun t _ => by
            simp only [KCall.semHandedTo, hty, hl, and_self, if_true, List.head?_cons, Option.some.injEq,
              beq_iff_eq, decide_eq_true_eq]
            exact eq_comm
      · -- not a semaphore: the give fails
        have hfail : (k.krhinoSemGive s').2 ≠ .success := by simp [krhinoSemGive, semGive, hty]
        have h0 : (semUnits s' k (.semGive s')).handed = 0 := by simp [semUnits, hfail]
        rw [h0, eq_comm, List.countP_eq_zero]
        simp [KCall.semHandedTo, hty]
    · have h0 : (semUnits s k (.semGive s')).handed = 0 := by simp [semUnits, hss]
      rw [h0, eq_comm, List.countP_eq_zero]
      simp [KCall.semHandedTo, hss]
  case semTake s' ticks =>
    have h0 : (semUnits s k (.semTake s' ticks)).handed = 0 := by
      simp only [semUnits]
      split <;> rfl
    rw [h0, eq_comm, List.countP_eq_zero]
    simp [KCall.semHandedTo]
  all_goals simp [semUnits, KCall.semHandedTo]

/-- After a call the units in transit are those of watched tasks that neither run nor
were deleted: the new waiters hold none. -/
theorem handedUnits_semWatch (hw : SemWatchInv s w) (hc : w.1.callOk c = true) :
    handedUnits (semWatch s w c).1 = w.2.countP fun t => t ≠ (w.1.call c).1.activeTask ∧
      ((w.1.call c).1.tasks t).taskState ≠ .deleted ∧ ((w.1.call c).1.tasks t).Ended .finish := by
  obtain ⟨k, out⟩ := w
  have hw' : (k.call c).1.WaitInv := hw.waitInv.call hw.inv c hc
  rw [semWatch_fst]
  simp only [handedUnits, semObserve, List.countP_filter, List.countP_append]
  have hnew : (((k.call c).1.sems s).blkObj.blkList).countP (fun t =>
      decide (((k.call c).1.tasks t).Ended .finish) &&
        decide (t ≠ (k.call c).1.activeTask ∧ ((k.call c).1.tasks t).taskState ≠ .deleted) && decide (t ∉ out)) = 0 :=
    List.countP_eq_zero.mpr fun t ht he => by
      simp only [Bool.and_eq_true, decide_eq_true_eq] at he
      exact he.1.1.1.not_isPend (hw'.mem_sem_iff.mp ht).1
  rw [hnew, Nat.add_zero]
  exact List.countP_congr fun t _ => by
    simp only [Bool.and_eq_true, decide_eq_true_eq]
    tauto

/-- `pend_state_end_proc` reads `RHINO_SUCCESS` exactly on `BLK_FINISH`. -/
theorem pendStateEndProc_eq_success (task : KTask) :
    pendStateEndProc task = .success ↔ task.blkState = .finish := by
  unfold pendStateEndProc
  split <;> simp_all

/-- One watched task over one call: the unit it held, or is handed now, it still
holds, takes as it runs, or loses with its deletion. -/
theorem semWatch_task (hw : SemWatchInv s w) (hc : w.1.callOk c = true) (hs : ¬c.SetsCount s) {t : Nat}
    (ht : t ∈ w.2) :
    (if (w.1.tasks t).Ended .finish then 1 else 0) + (if c.semHandedTo w.1 s = some t then 1 else 0) =
      (if t ≠ (w.1.call c).1.activeTask ∧ ((w.1.call c).1.tasks t).taskState ≠ .deleted ∧
          ((w.1.call c).1.tasks t).Ended .finish then 1 else 0) +
        (if t = (w.1.call c).1.activeTask ∧ pendStateEndProc ((w.1.call c).1.tasks t) = .success then 1 else 0) +
        (if (w.1.tasks t).Ended .finish ∧ ((w.1.call c).1.tasks t).taskState = .deleted then 1 else 0) := by
  obtain ⟨k, out⟩ := w
  dsimp only at hw hc ht ⊢
  have h' : (k.call c).1.Inv := hw.inv.call c hc
  simp only [pendStateEndProc_eq_success]
  -- the task that runs after the call is ready: neither waiting nor deleted
  have hrdy : t = (k.call c).1.activeTask → ((k.call c).1.tasks t).taskState = .rdy :=
    fun he => he ▸ h'.active_rdy
  have hdel : ((k.call c).1.tasks t).taskState = .deleted → t ≠ (k.call c).1.activeTask :=
    fun hd he => by simp [hrdy he] at hd
  rcases hw.watched t ht with hu | ⟨hu, hta⟩
  · -- a waiter of `s` holds nothing yet
    have hne : ¬(k.tasks t).Ended .finish := fun he => he.1.not_isPend hu.1
    rcases waitsOn_sem_call hw.inv hw.waitInv hc hu with hu' | hd' | ⟨st, he', hst⟩
    · -- still waiting: handed nothing, and it does not run
      have hg : c.semHandedTo k s ≠ some t := fun hg => (ended_of_semHandedTo hw.waitInv hg).1.not_isPend hu'.1
      have hta' : t ≠ (k.call c).1.activeTask := fun he => not_isPend_of_isRdy (hrdy he) hu'.1
      have hne' : ¬((k.call c).1.tasks t).Ended .finish := fun he => he.1.not_isPend hu'.1
      simp [hne, hg, hta', hne']
    · -- deleted while waiting: handed nothing
      have hg : c.semHandedTo k s ≠ some t := fun hg => (ended_of_semHandedTo hw.waitInv hg).ne_deleted hd'
      simp [hne, hg, hdel hd', hd']
    · -- its wait ended now, with `BLK_FINISH` exactly when this call handed it the unit
      have hg : c.semHandedTo k s = some t ↔ st = .finish := by
        constructor
        · intro hg
          exact he'.2.symm.trans (ended_of_semHandedTo hw.waitInv hg).2
        · intro hf
          rcases hst hf with hg | ⟨rfl, -⟩
          · exact hg
          · exact absurd rfl hs
      rw [he'.held_or_taken, if_neg hne, if_neg (show ¬((k.tasks t).Ended .finish ∧ _) from fun h => hne h.1)]
      simp only [hg, Nat.zero_add, Nat.add_zero]
  · -- a ready or suspended task keeps what it holds until it runs or is deleted
    have hg : c.semHandedTo k s ≠ some t :=
      fun hg => hu.not_isPend (hw.waitInv.mem_sem_iff.mp (semHandedTo_mem hg)).1
    rcases resumable_call hw.waitInv hc hu hta with hd' | he'
    · simp [hg, hdel hd', hd']
    · -- its wait stays ended as it was: the unit it held it holds, or takes as it runs
      rw [if_neg (show ¬(_ ∧ ((k.call c).1.tasks t).taskState = .deleted) from fun h => he'.ne_deleted h.2),
        he'.held_or_taken]
      simp [KTask.Ended, hu, hg]

/-- One call: the count and the units in transit before, with what the call gave,
are the count and the units in transit after, with the takes that returned
`RHINO_SUCCESS` and the units lost. -/
theorem semWatch_balance (hw : SemWatchInv s w) (hc : w.1.callOk c = true) (hs : ¬c.SetsCount s) :
    (w.1.sems s).count + handedUnits w + (semWatch s w c).2.given =
      ((semWatch s w c).1.1.sems s).count + handedUnits (semWatch s w c).1 +
        ((semWatch s w c).2.taken + (semWatch s w c).2.lost) := by
  have hb := semUnits_balance hw.inv hw.waitInv c hs
  have hh := semUnits_handed hw hs
  have hn := handedUnits_semWatch hw hc
  have hp := countP_balance fun t ht => semWatch_task hw hc hs (t := t) ht
  rw [hn]
  simp only [semWatch_fst, semWatch_snd, semObserve, handedUnits]
  omega

/-! ### Whole runs -/

/-- In every state reachable from `krhino_init` by admissible calls, no task waits on a
semaphore with a unit left, on a queue holding a message or on an event whose flags
answer it, and every queue that has not been deleted holds its `cur_num` pointers in
its ring. Over every admissible run from there on which no call sets the count of
semaphore `s` outright, with the watch of `s` kept since `krhino_init`: the count and
the units in transit before, with the units given, are the count and the units in
transit after, with the takes that returned `RHINO_SUCCESS`, at once or after blocking,
and the units lost with takers deleted before they ran. -/
theorem reachable_stockOk_semReturns {s : Nat} {cs₀ cs : List KCall}
    (hok : Machine.allowed call callOk krhinoInit (cs₀ ++ cs) = true) (hs : ∀ c ∈ cs, ¬c.SetsCount s) :
    (Machine.exec call krhinoInit cs₀).StockOk ∧
      ((Machine.exec call krhinoInit cs₀).sems s).count + handedUnits (Machine.exec (semWatch s) (krhinoInit, []) cs₀) +
          ((Machine.replies (semWatch s) (Machine.exec (semWatch s) (krhinoInit, []) cs₀) cs).map SemFlow.given).sum =
        ((Machine.exec call krhinoInit (cs₀ ++ cs)).sems s).count +
          handedUnits (Machine.exec (semWatch s) (krhinoInit, []) (cs₀ ++ cs)) +
          ((Machine.replies (semWatch s) (Machine.exec (semWatch s) (krhinoInit, []) cs₀) cs).map SemFlow.taken).sum +
          ((Machine.replies (semWatch s) (Machine.exec (semWatch s) (krhinoInit, []) cs₀) cs).map SemFlow.lost).sum := by
  rw [Machine.allowed_append, Bool.and_eq_true] at hok
  have hk : (Machine.exec call krhinoInit cs₀).Reachable := ⟨cs₀, hok.1, rfl⟩
  -- the watch runs the kernel as it is, and its runs are admissible with the kernel's
  have hallow : ∀ w cs', Machine.allowed (semWatch s) (fun w c => callOk w.1 c) w cs' =
      Machine.allowed call callOk w.1 cs' :=
    fun w cs' => Machine.allowed_watch call (semObserve s) callOk w cs'
  have hfst := exec_semWatch_fst s (krhinoInit, []) cs₀
  have hw₀ : SemWatchInv s (Machine.exec (semWatch s) (krhinoInit, []) cs₀) :=
    Machine.exec_invariant_allowed (SemWatchInv s) (fun _ _ hw hc => hw.step hc) (semWatchInv_init s)
      ((hallow _ _).trans hok.1)
  -- the balance of each call, summed over the run
  have hbal := @Machine.replies_balance _ _ _ _ _ (semWatch s) (fun w c => callOk w.1 c) (SemWatchInv s)
    (fun c => ¬c.SetsCount s)
    (fun w => (w.1.sems s).count + handedUnits w) SemFlow.given (fun f => f.taken + f.lost)
    (fun _ _ hw hc => hw.step hc) (fun _ _ hw hc hs => semWatch_balance hw hc hs) _ _ hw₀
    ((hallow _ _).trans (hfst ▸ hok.2)) hs
  have hend : Machine.exec call krhinoInit (cs₀ ++ cs) =
      (Machine.exec (semWatch s) (Machine.exec (semWatch s) (krhinoInit, []) cs₀) cs).1 := by
    rw [exec_semWatch_fst, hfst, Machine.exec_append]
  refine ⟨hk.objInv.stockOk hk.waitInv, ?_⟩
  rw [hend, Machine.exec_append, ← hfst]
  rw [List.sum_map_add] at hbal
  omega

/-- Task `1` blocks on semaphore `0`, which has no unit; task `2`, more urgent,
gives one, which goes to task `1`. -/
def semHandOver : List KCall :=
  [.semCreate 0 0, .taskCreate 1 10 0 true, .semTake 0 rhinoWaitForever, .taskCreate 2 5 0 true,
   .semGive 0]

/-- Watched from the block of task `1`: task `2` gives the unit to task `1` and deletes
itself, and task `1` runs and returns from its take with `RHINO_SUCCESS`. -/
theorem reachable_stockOk_semReturns_handOver :
    (Machine.exec call krhinoInit (semHandOver.take 3)).StockOk ∧
      ((Machine.exec call krhinoInit (semHandOver.take 3)).sems 0).count +
          handedUnits (Machine.exec (semWatch 0) (krhinoInit, []) (semHandOver.take 3)) +
          ((Machine.replies (semWatch 0) (Machine.exec (semWatch 0) (krhinoInit, []) (semHandOver.take 3))
            (semHandOver.drop 3 ++ [.taskDel 2])).map SemFlow.given).sum =
        ((Machine.exec call krhinoInit (semHandOver.take 3 ++ (semHandOver.drop 3 ++ [.taskDel 2]))).sems 0).count +
          handedUnits (Machine.exec (semWatch 0) (krhinoInit, [])
            (semHandOver.take 3 ++ (semHandOver.drop 3 ++ [.taskDel 2]))) +
          ((Machine.replies (semWatch 0) (Machine.exec (semWatch 0) (krhinoInit, []) (semHandOver.take 3))
            (semHandOver.drop 3 ++ [.taskDel 2])).map SemFlow.taken).sum +
          ((Machine.replies (semWatch 0) (Machine.exec (semWatch 0) (krhinoInit, []) (semHandOver.take 3))
            (semHandOver.drop 3 ++ [.taskDel 2])).map SemFlow.lost).sum :=
  @reachable_stockOk_semReturns 0 (semHandOver.take 3) (semHandOver.drop 3 ++ [.taskDel 2]) (by decide)
    (by simp [semHandOver, KCall.SetsCount])

/-- The unit task `2` gives goes to task `1`, whose take blocked; task `2` then
deletes task `1`, so that take never returns. The count is `0` again, one give
succeeded, and no take returned `RHINO_SUCCESS`. -/
theorem semGive_unit_lost :
    Machine.allowed call callOk krhinoInit (semHandOver ++ [.taskDel 1]) = true ∧
      Machine.replies call krhinoInit (semHandOver ++ [.taskDel 1]) =
        [.ret .success, .ret .success, .blocked, .ret .success, .ret .success, .ret .success] ∧
      ((Machine.exec call krhinoInit (semHandOver ++ [.taskDel 1])).sems 0).count = 0 ∧
      ((Machine.exec call krhinoInit (semHandOver ++ [.taskDel 1])).tasks 1).taskState = .deleted := by
  decide

end Kernel

end Rhino
