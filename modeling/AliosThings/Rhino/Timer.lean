import AliosThings.Rhino.Kernel
import AliosThings.Lib.Machine

/-!
# Software timers (`k_timer.c`)

`timer_task` owns `g_timer_head`, the active timers in order of their match. It
takes commands from `g_timer_queue` and, between commands, waits until the first
timer is due and runs `timer_cb_proc`, which fires the due timers from the head of
the list and stops at the first one that is not due. Commands and waits read the
tick with `krhino_sys_tick_get`: `g_timer_count` is the reading after the wait.

`timer_list_pri_insert` orders by the unsigned remaining time
`match - g_timer_count`, which ranks a timer that is already overdue after every
timer that is not. An overdue timer sits at the head when the wait for it ends with
a command that the task reads late. If that command starts a timer, the new timer
goes before the overdue one, and the pass after the command stops at the new
timer: the overdue one waits for the new one to expire.

The tick readings are the arguments of the steps; the callbacks are recorded in
`fired`, and what they do is other commands.
-/

namespace Rhino

/-- `MAX_TIMER_TICKS`: `(tick_t)-1 >> 1`. -/
def maxTimerTicks : Nat := (2 ^ 64 - 1) / 2

/-- `timer_state`. -/
inductive TimerState where
  | deactive
  | active
  deriving DecidableEq, Repr

/-- What the timer task reads and writes of a `ktimer_t`. -/
structure KTimer where
  /-- `obj_type == RHINO_TIMER_OBJ_TYPE`. -/
  live : Bool
  /-- `mm_alloc_flag == K_OBJ_DYN_ALLOC`. -/
  dynAlloc : Bool
  initCount : Nat
  roundTicks : Nat
  /-- `match`. -/
  timerMatch : Nat
  remain : Nat
  /-- `to_head != NULL`. -/
  toHead : Bool
  timerState : TimerState
  deriving DecidableEq, Repr

/-- A message of `g_timer_queue`: its `cb_num`, the timer, and `first` and `round`
for `TIMER_CMD_CHG`. The argument of `TIMER_ARG_CHG` is not modelled. -/
inductive TimerCmd where
  | start (t : Nat)
  | stop (t : Nat)
  | chg (t first round : Nat)
  | argChg (t : Nat)
  | argChgAuto (t : Nat)
  | del (t : Nat)
  | dynDel (t : Nat)
  deriving DecidableEq, Repr

/-- The timers, `g_timer_head`, `g_timer_count`, the callbacks called so far (the
timer and `g_timer_count` at the call, oldest first), and the last tick read. -/
structure TimerSys where
  timers : Nat → KTimer
  timerHead : List Nat
  timerCount : Nat
  fired : List (Nat × Nat)
  lastTick : Nat

/-- `timer_list_pri_insert`: the timer goes before the first timer with more time
left, counted as the unsigned difference `match - g_timer_count`. -/
def timerListPriInsert (timers : Nat → KTimer) (timerCount : Nat) (l : List Nat) (t : Nat) : List Nat :=
  match l with
  | [] => [t]
  | u :: rest =>
    if tickSub (timers u).timerMatch timerCount > (timers t).remain then t :: u :: rest
    else u :: timerListPriInsert timers timerCount rest t

/-- The node after `t`: `t->timer_list.next`, `none` for the list head. -/
def listNext (l : List Nat) (t : Nat) : Option Nat :=
  match l with
  | [] => none
  | u :: rest => if u = t then rest.head? else listNext rest t

namespace TimerSys

/-- Write the `ktimer_t` of `t`. -/
def setTimer (s : TimerSys) (t : Nat) (f : KTimer → KTimer) : TimerSys :=
  { s with timers := fun u => if u = t then f (s.timers t) else s.timers u }

/-- `timer_list_rm`. -/
def timerListRm (s : TimerSys) (t : Nat) : TimerSys :=
  if (s.timers t).toHead then
    { s.setTimer t fun tm => { tm with toHead := false } with timerHead := s.timerHead.erase t }
  else s

/-- Arm `t` for `ticks` more ticks and link it in order: the start of a timer and the
rearming of a periodic one. -/
def timerArm (s : TimerSys) (t ticks : Nat) : TimerSys :=
  let s := s.setTimer t fun tm =>
    { tm with timerMatch := tickWrap (s.timerCount + ticks), remain := ticks, toHead := true }
  { s with timerHead := timerListPriInsert s.timers s.timerCount s.timerHead t }

/-- `cmd_proc`. -/
def cmdProc (s : TimerSys) : TimerCmd → TimerSys
  | .start t =>
    if (s.timers t).live = false then s
    else if (s.timers t).timerState = .active then s
    else (s.timerArm t (s.timers t).initCount).setTimer t fun tm => { tm with timerState := .active }
  | .stop t =>
    if (s.timers t).live = false then s
    else if (s.timers t).timerState = .deactive then s
    else (s.timerListRm t).setTimer t fun tm => { tm with timerState := .deactive }
  | .chg t first round =>
    if first = 0 then s
    else if (s.timers t).live = false then s
    else if (s.timers t).timerState ≠ .deactive then s
    else s.setTimer t fun tm => { tm with initCount := first, roundTicks := round }
  | .argChg _ => s
  -- no case of its own: `timer_cmd_proc` splits it up before
  | .argChgAuto _ => s
  | .del t =>
    if (s.timers t).live = false then s
    else if (s.timers t).timerState ≠ .deactive then s
    else if (s.timers t).dynAlloc then s
    else s.setTimer t fun tm => { tm with live := false }
  | .dynDel t =>
    if (s.timers t).live = false then s
    else if (s.timers t).timerState ≠ .deactive then s
    else if (s.timers t).dynAlloc = false then s
    else s.setTimer t fun tm => { tm with live := false }

/-- `timer_cmd_proc`: `TIMER_ARG_CHG_AUTO` stops, changes the argument and starts. -/
def timerCmdProc (s : TimerSys) : TimerCmd → TimerSys
  | .argChgAuto t => ((s.cmdProc (.stop t)).cmdProc (.argChg t)).cmdProc (.start t)
  | c => s.cmdProc c

/-- The loop of `timer_cb_proc` at the node of `t`, for at most `fuel` nodes: a due
timer is fired, unlinked, and rearmed if periodic, and the walk goes on from its
node; the first timer that is not due ends the pass. -/
def timerCbProcGo : Nat → TimerSys → Option Nat → TimerSys
  | 0, s, _ => s
  | _ + 1, s, none => s
  | fuel + 1, s, some t =>
    if tickDelta (s.timers t).timerMatch s.timerCount ≤ 0 then
      let s := { s with fired := s.fired ++ [(t, s.timerCount)] }
      -- the unlinked node keeps its link to the next one
      let next := listNext s.timerHead t
      let s := s.timerListRm t
      if 0 < (s.timers t).roundTicks then
        let s := s.timerArm t (s.timers t).roundTicks
        timerCbProcGo fuel s (listNext s.timerHead t)
      else timerCbProcGo fuel (s.setTimer t fun tm => { tm with timerState := .deactive }) next
    else s

/-- `timer_cb_proc`, walking at most as many nodes as the list has, and one more. -/
def timerCbProc (s : TimerSys) : TimerSys :=
  timerCbProcGo (s.timerHead.length + 1) s s.timerHead.head?

end TimerSys

/-- A step of `timer_task`, or `timer_create` in a caller. -/
inductive TimerEvent where
  /-- `timer_create`: the control block is set up, not yet started. -/
  | create (t first round : Nat) (dyn : Bool)
  /-- With no timer linked, the receive without timeout returns a command; then the
  tick is read. -/
  | recv (c : TimerCmd) (tickEnd : Nat)
  /-- In the loop, the tick read shows the first timer due. -/
  | due (tickStart : Nat)
  /-- In the loop, the first timer is not due at `tickStart`: the timed receive
  returns a command, or times out (`none`), and the tick read after it is `tickEnd`. -/
  | wait (tickStart : Nat) (c : Option TimerCmd) (tickEnd : Nat)
  deriving DecidableEq, Repr

/-- One step. -/
def timerStep (s : TimerSys) : TimerEvent → TimerSys × Unit
  | .create t first round dyn =>
    (s.setTimer t fun _ => ⟨true, dyn, first, round, 0, 0, false, .deactive⟩, ())
  | .recv c tickEnd => (({ s with timerCount := tickEnd, lastTick := tickEnd } : TimerSys).timerCmdProc c, ())
  | .due tickStart => (({ s with timerCount := tickStart, lastTick := tickStart } : TimerSys).timerCbProc, ())
  | .wait _ c tickEnd =>
    let s : TimerSys := { s with timerCount := tickEnd, lastTick := tickEnd }
    ((match c with
      | some c => s.timerCmdProc c
      | none => s).timerCbProc, ())

/-- `ktimer_init`: no timer. -/
def timerInit : TimerSys where
  timers _ := ⟨false, false, 0, 0, 0, 0, false, .deactive⟩
  timerHead := []
  timerCount := 0
  fired := []
  lastTick := 0

/-- The runs the model admits: a timer is created with the checks of `timer_create`
passed and not over a live one; the tick readings are `tick_t` values and never go
back; each loop step matches the state of the first timer, and a timed receive
that times out has waited until the first timer is due. -/
def timerOk (s : TimerSys) : TimerEvent → Bool
  | .create t first round _ =>
    !(s.timers t).live && 0 < first && first < maxTimerTicks && round < maxTimerTicks
  | .recv _ tickEnd => s.timerHead.isEmpty && s.lastTick ≤ tickEnd && tickEnd < 2 ^ 64
  | .due tickStart =>
    match s.timerHead with
    | [] => false
    | h :: _ => decide (tickDelta (s.timers h).timerMatch tickStart ≤ 0) && s.lastTick ≤ tickStart &&
        tickStart < 2 ^ 64
  | .wait tickStart c tickEnd =>
    match s.timerHead with
    | [] => false
    | h :: _ => decide (0 < tickDelta (s.timers h).timerMatch tickStart) && s.lastTick ≤ tickStart &&
        tickStart ≤ tickEnd && tickEnd < 2 ^ 64 &&
        (c.isSome || decide (tickDelta (s.timers h).timerMatch tickEnd ≤ 0))

/-! ### A started timer passes an overdue one -/

/-- The distance to a match set `i < 2 ^ 63` ticks ahead reads as `i`. -/
theorem tickDelta_wrap_add (e i : Nat) (hi : i < 2 ^ 63) : tickDelta (tickWrap (e + i)) e = i := by
  unfold tickDelta tickSub tickWrap
  split <;> omega

/-- An overdue timer's unsigned distance is at least `2 ^ 63`. -/
theorem tickSub_of_tickDelta_neg {m c : Nat} (h : tickDelta m c < 0) : 2 ^ 63 ≤ tickSub m c := by
  unfold tickDelta at h
  split at h <;> omega

namespace TimerSys

variable {s : TimerSys}

@[simp] theorem setTimer_timers (t : Nat) (f : KTimer → KTimer) (u : Nat) :
    (s.setTimer t f).timers u = if u = t then f (s.timers t) else s.timers u := rfl
@[simp] theorem setTimer_timerHead (t : Nat) (f : KTimer → KTimer) : (s.setTimer t f).timerHead = s.timerHead := rfl
@[simp] theorem setTimer_timerCount (t : Nat) (f : KTimer → KTimer) :
    (s.setTimer t f).timerCount = s.timerCount := rfl
@[simp] theorem setTimer_fired (t : Nat) (f : KTimer → KTimer) : (s.setTimer t f).fired = s.fired := rfl

/-- A start of a timer that is not due for `0 < init < 2 ^ 63` ticks, while the first
timer is overdue, links the started timer first. -/
theorem cmdProc_start_overdue {h x : Nat} {rest : List Nat} (hq : s.timerHead = h :: rest)
    (hover : tickDelta (s.timers h).timerMatch s.timerCount < 0) (hxh : x ≠ h)
    (hx : (s.timers x).live = true) (hxs : (s.timers x).timerState = .deactive)
    (hi : (s.timers x).initCount < 2 ^ 63) :
    (s.cmdProc (.start x)).timerHead = x :: h :: rest ∧
      (s.cmdProc (.start x)).timers x =
        { s.timers x with
          timerMatch := tickWrap (s.timerCount + (s.timers x).initCount)
          remain := (s.timers x).initCount
          toHead := true
          timerState := .active } ∧
      (s.cmdProc (.start x)).timers h = s.timers h ∧
      (s.cmdProc (.start x)).timerCount = s.timerCount ∧ (s.cmdProc (.start x)).fired = s.fired := by
  have hfar := tickSub_of_tickDelta_neg hover
  have hstart : s.cmdProc (.start x) =
      (s.timerArm x (s.timers x).initCount).setTimer x fun tm => { tm with timerState := .active } := by
    simp [cmdProc, hx, hxs]
  -- the overdue timer's unsigned distance is past every time a start can ask for
  have hins : (s.timerArm x (s.timers x).initCount).timerHead = x :: h :: rest := by
    simp only [timerArm, setTimer_timerHead, setTimer_timerCount, hq, timerListPriInsert, setTimer_timers,
      ↓reduceIte, if_neg (Ne.symm hxh)]
    rw [if_pos (by omega)]
  rw [hstart]
  exact ⟨hins, by simp [timerArm], by simp [timerArm, Ne.symm hxh], rfl, rfl⟩

end TimerSys

/-- A start that the timed receive returns, read when the first timer is already
overdue, puts the started timer first; the pass that follows stops at it and fires
nothing, and the overdue timer stays linked and overdue. -/
theorem timerStart_delays_overdue {s : TimerSys} {h x : Nat} {rest : List Nat} (tickStart : Nat) {tickEnd : Nat}
    (hq : s.timerHead = h :: rest) (hover : tickDelta (s.timers h).timerMatch tickEnd < 0) (hxh : x ≠ h)
    (hx : (s.timers x).live = true) (hxs : (s.timers x).timerState = .deactive)
    (hi₁ : 0 < (s.timers x).initCount) (hi₂ : (s.timers x).initCount < 2 ^ 63) :
    let s' := (timerStep s (.wait tickStart (some (.start x)) tickEnd)).1
    s'.timerHead = x :: h :: rest ∧ s'.fired = s.fired ∧ s'.timers h = s.timers h ∧
      tickDelta (s'.timers h).timerMatch s'.timerCount < 0 := by
  intro s'
  set s₁ : TimerSys := { s with timerCount := tickEnd, lastTick := tickEnd }
  obtain ⟨hl, hxt, hht, hc, hf⟩ := TimerSys.cmdProc_start_overdue (s := s₁) hq hover hxh hx hxs hi₂
  -- the pass looks at the started timer first: it is not due
  have hnot : ¬tickDelta ((s₁.cmdProc (.start x)).timers x).timerMatch (s₁.cmdProc (.start x)).timerCount ≤ 0 := by
    rw [hxt, hc, tickDelta_wrap_add _ _ hi₂]
    omega
  have hs' : s' = s₁.cmdProc (.start x) := by
    show (s₁.timerCmdProc (.start x)).timerCbProc = _
    simp only [TimerSys.timerCmdProc, TimerSys.timerCbProc, hl, List.head?_cons, List.length_cons,
      TimerSys.timerCbProcGo, if_neg hnot]
  rw [hs']
  exact ⟨hl, hf, hht, by rw [hht, hc]; exact hover⟩

/-- Timer `1` is due at tick `10`, and timer `2` is made to fire `1000` ticks after
its start. The start of timer `2` ends the wait for timer `1`, and the task reads the
tick only at `20`. Timer `1` is not fired at `20`, nor before timer `2` expires: both
are fired at `1020`. -/
def overdueRun : List TimerEvent :=
  [.create 1 10 0 false, .create 2 1000 0 false, .recv (.start 1) 0]

theorem timerStart_delays_overdue_late :
    let s := Machine.exec timerStep timerInit overdueRun
    Machine.allowed timerStep timerOk timerInit
        (overdueRun ++ [.wait 0 (some (.start 2)) 20, .wait 20 none 1020]) = true ∧
      (timerStep s (.wait 0 (some (.start 2)) 20)).1.timerHead = [2, 1] ∧
      (timerStep s (.wait 0 (some (.start 2)) 20)).1.fired = s.fired ∧
      (timerStep (timerStep s (.wait 0 (some (.start 2)) 20)).1 (.wait 20 none 1020)).1.fired =
        [(2, 1020), (1, 1020)] := by
  intro s
  have hq : s.timerHead = [1] := by decide
  obtain ⟨hl, hf, -, -⟩ := timerStart_delays_overdue 0 hq (show tickDelta (s.timers 1).timerMatch 20 < 0 by decide)
    (by decide : (2 : Nat) ≠ 1) (by decide) (by decide) (by decide) (by decide)
  exact ⟨by decide, hl, hf, by decide⟩

end Rhino
