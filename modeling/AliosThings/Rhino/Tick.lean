import AliosThings.Rhino.WaitRun

/-!
# Deadlines on the tick list

`tick_list_insert` stores `tick_match = g_tick_count + time` in a `tick_t`, and
`tick_list_update` wakes a task once `tick_match - g_tick_count`, read as an
`int64_t`, is no longer positive. Both counts wrap at `2 ^ 64`. The test answers
"at least `time` ticks have passed" exactly while `time` is below `2 ^ 63` and the
task is not overdue by more than `2 ^ 63` ticks. `krhino_task_sleep` accepts every
`tick_t` but zero, and a longer sleep wraps: it is over at the next tick.
-/

namespace Rhino

/-- The expiry test after `e` ticks of a deadline `t` ticks away is exact below
`2 ^ 63`. -/
theorem tickDelta_wrap_nonpos_iff (c t e : Nat) (ht : t < 2 ^ 63) (he : e ≤ t + 2 ^ 63) :
    tickDelta (tickWrap (c + t)) (tickWrap (c + e)) ≤ 0 ↔ t ≤ e := by
  unfold tickDelta tickSub tickWrap
  split <;> omega

/-- A deadline more than `2 ^ 63` ticks away looks passed one tick later. -/
theorem tickDelta_wrap_neg (c t : Nat) (ht₁ : 2 ^ 63 < t) (ht₂ : t < 2 ^ 64) :
    tickDelta (tickWrap (c + t)) (tickWrap (c + 1)) < 0 := by
  unfold tickDelta tickSub tickWrap
  split <;> omega

namespace Kernel

variable {k : Kernel}

/-- `tick_list_insert` on an empty tick list. -/
theorem tickListInsert_nil {t time : Nat} (hq : k.tickList = []) (ht : 0 < time) :
    (k.tickListInsert t time).tickList = [t] ∧
      ((k.tickListInsert t time).tasks t).tickMatch = tickWrap (k.tickCount + time) ∧
      (k.tickListInsert t time).tickCount = k.tickCount := by
  unfold tickListInsert
  rw [if_pos ht]
  refine ⟨?_, by simp, rfl⟩
  show tickListPriInsert _ _ k.tickList t = [t]
  rw [hq]
  rfl

/-- Where it may block, `krhino_task_sleep` leaves the running task asleep, alone on
an empty tick list, with its deadline `ticks` ahead. -/
theorem krhinoTaskSleep_alone {ticks : Nat} (hn : k.intrptNested = 0) (hl : k.schedLock = 0)
    (hq : k.tickList = []) (ht : 0 < ticks) :
    ((k.krhinoTaskSleep ticks).1.tasks k.activeTask).taskState = .sleep ∧
      (k.krhinoTaskSleep ticks).1.tickList = [k.activeTask] ∧
      ((k.krhinoTaskSleep ticks).1.tasks k.activeTask).tickMatch = tickWrap (k.tickCount + ticks) ∧
      (k.krhinoTaskSleep ticks).1.tickCount = k.tickCount := by
  set k₀ := k.setTask k.activeTask fun task => { task with taskState := .sleep }
  obtain ⟨hlist, hmatch, hcount⟩ := tickListInsert_nil (k := k₀) (t := k.activeTask) (by simpa [k₀] using hq) ht
  have hs : (k.krhinoTaskSleep ticks).1 =
      ((k₀.tickListInsert k.activeTask ticks).readyListRm k.activeTask).coreSched := by
    simp [krhinoTaskSleep, hn, hl, Nat.pos_iff_ne_zero.mp ht, k₀]
  rw [hs]
  simp only [coreSched_tasks, readyListRm_tasks, coreSched_tickList, readyListRm_tickList, coreSched_tickCount]
  exact ⟨by simp [k₀], hlist, hmatch, hcount⟩

/-- The tick that finds the only task on the tick list past its deadline ends its
sleep. -/
theorem tick_wakes_sleeper {a : Nat} (hq : k.tickList = [a]) (hs : (k.tasks a).taskState = .sleep)
    (hd : tickDelta (k.tasks a).tickMatch (tickWrap (k.tickCount + 1)) ≤ 0) :
    ((k.call .tick).1.tasks a).taskState = .rdy ∧ ((k.call .tick).1.tasks a).blkState = .finish := by
  -- the interrupt entry and exit and the time slice leave every task's state alone
  have hc : (k.call .tick).1.tasks = (k.krhinoIntrptEnter.tickListUpdate 1).timeSliceUpdate.tasks := by
    simp [call, krhinoIntrptExit_eq, krhinoTickProc]
  have hu : k.krhinoIntrptEnter.tickListUpdate 1 =
      ({ k.krhinoIntrptEnter with tickCount := tickWrap (k.tickCount + 1) } : Kernel).tickExpire a := by
    simp [tickListUpdate, tickListUpdate.go, krhinoIntrptEnter, hq, hd]
  rw [hc, timeSliceUpdate_taskState, timeSliceUpdate_blkState, hu]
  simp [tickExpire, krhinoIntrptEnter, hs]

/-- A sleep of more than `2 ^ 63` ticks, `RHINO_WAIT_FOREVER` among them, taken with
the tick list empty, is over at the next tick: the sleeper is ready again and its
`krhino_task_sleep` returns `RHINO_SUCCESS` one tick after it began. -/
theorem taskSleep_wrapped_ends_next_tick {ticks : Nat} (hn : k.intrptNested = 0) (hl : k.schedLock = 0)
    (hq : k.tickList = []) (ht₁ : 2 ^ 63 < ticks) (ht₂ : ticks < 2 ^ 64) :
    ((k.call (.taskSleep ticks)).1.tasks k.activeTask).taskState = .sleep ∧
      (((k.call (.taskSleep ticks)).1.call .tick).1.tasks k.activeTask).taskState = .rdy ∧
      pendStateEndProc (((k.call (.taskSleep ticks)).1.call .tick).1.tasks k.activeTask) = .success := by
  have hk : (k.call (.taskSleep ticks)).1 = (k.krhinoTaskSleep ticks).1 := rfl
  obtain ⟨hs, hlist, hmatch, hcount⟩ := krhinoTaskSleep_alone hn hl hq (by omega : 0 < ticks)
  -- the deadline wrapped: one tick later it already looks passed
  have hd : tickDelta ((k.krhinoTaskSleep ticks).1.tasks k.activeTask).tickMatch
      (tickWrap ((k.krhinoTaskSleep ticks).1.tickCount + 1)) ≤ 0 := by
    rw [hmatch, hcount]
    exact (tickDelta_wrap_neg _ _ ht₁ ht₂).le
  obtain ⟨hr, hb⟩ := tick_wakes_sleeper hlist hs hd
  rw [hk]
  exact ⟨hs, hr, by simp [pendStateEndProc, hb]⟩

/-- The first task made after `krhino_init` sleeps `RHINO_WAIT_FOREVER` ticks. -/
theorem taskSleep_wrapped_ends_next_tick_forever :
    let k := Machine.exec call krhinoInit [.taskCreate 1 10 0 true]
    k.intrptNested = 0 ∧ k.schedLock = 0 ∧ k.tickList = [] ∧ k.activeTask = 1 ∧
      (((k.call (.taskSleep rhinoWaitForever)).1.call .tick).1.tasks 1).taskState = .rdy ∧
      pendStateEndProc (((k.call (.taskSleep rhinoWaitForever)).1.call .tick).1.tasks 1) = .success := by
  intro k
  have hn : k.intrptNested = 0 := by decide
  have hl : k.schedLock = 0 := by decide
  have hq : k.tickList = [] := by decide
  have ha : k.activeTask = 1 := by decide
  obtain ⟨-, hr, he⟩ := taskSleep_wrapped_ends_next_tick hn hl hq
    (show 2 ^ 63 < rhinoWaitForever by decide) (show rhinoWaitForever < 2 ^ 64 by decide)
  rw [ha] at hr he
  exact ⟨hn, hl, hq, ha, hr, he⟩

end Kernel

end Rhino
