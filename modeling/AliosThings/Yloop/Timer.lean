import AliosThings.Lib.Machine
import AliosThings.Lib.SortedInsert
import AliosThings.Yloop.Loop

/-!
# The timers of `aos_loop_run`

`yloop.c` keeps the delayed actions of a loop in `timeouts`, a list in nondecreasing
order of the time each is due. `aos_post_delayed_action` links a new timer before the
first one due strictly later, so after those due at the same time, and
`aos_cancel_delayed_action` removes the first timer that matches its delay (any delay
for `-1`), callback and argument. A round of `aos_loop_run` passes `aos_poll` the time
until the first timer, stored in an `int`, and after `aos_poll` fires that timer alone
when it is due. The readers of the round (`Loop`) do not touch the timers; the
callbacks of timers and readers act on them through the same calls as anyone else.

The times are what `aos_now_ms` returns. Over every run the list stays in order; when
the clock never goes back and no delay is negative, the timers fire in the order they
are due; when every delay is an `int`, the wait of a round is the exact time to the
first timer, never truncated; and a timer posted and cancelled with its own delay,
callback and argument leaves the list as it was when no other timer matches them.
-/

namespace Yloop

open Machine

/-- `yloop_timeout_t`; the callback is named by its address, `0` for `NULL`. -/
structure YloopTimeout where
  timeoutMs : Int
  privateData : Nat
  cb : Nat
  ms : Int
  deriving DecidableEq, Repr

/-- `aos_post_delayed_action` on the timers of the loop, with `now` what `aos_now_ms`
returns and `mallocOk` whether `aos_malloc` succeeds. -/
def aosPostDelayedAction (timeouts : List YloopTimeout) (ms : Int) (action param : Nat) (now : Int)
    (mallocOk : Bool) : List YloopTimeout × Int :=
  if action = 0 then (timeouts, -eInval)
  else if ¬ mallocOk then (timeouts, -eNomem)
  -- the walk stops at the first timer due strictly later, and `dlist_add_tail` links before it
  else (timeouts.orderedInsert (fun a b => a.timeoutMs < b.timeoutMs) ⟨now + ms, param, action, ms⟩, 0)

/-- The timers `aos_cancel_delayed_action ms cb privateData` looks for. -/
def cancelMatch (ms : Int) (cb privateData : Nat) (t : YloopTimeout) : Bool :=
  (ms == -1 || t.ms == ms) && t.cb == cb && t.privateData == privateData

def aosCancelDelayedAction (timeouts : List YloopTimeout) (ms : Int) (cb privateData : Nat) :
    List YloopTimeout :=
  timeouts.eraseP (cancelMatch ms cb privateData)

/-- The `int` a `long long` is stored in: its two's complement wrap. -/
def toInt32 (x : Int) : Int := x.bmod (2 ^ 32)

/-- `delayed_ms` of a round, with `now` the first `aos_now_ms` of the round. -/
def delayedMs (timeouts : List YloopTimeout) (now : Int) : Int :=
  match timeouts with
  | [] => -1
  | tmo :: _ => if now < tmo.timeoutMs then toInt32 (tmo.timeoutMs - now) else 0

/-- The timers after `aos_poll`, with `now` the second `aos_now_ms` of the round: the
first timer leaves the list before its callback runs, when it is due. -/
def fireDue (timeouts : List YloopTimeout) (now : Int) : List YloopTimeout × Option YloopTimeout :=
  match timeouts with
  | [] => ([], none)
  | tmo :: rest => if now ≥ tmo.timeoutMs then (rest, some tmo) else (tmo :: rest, none)

/-- A call on the timers of a loop with the times `aos_now_ms` returns during it: a round
of `aos_loop_run` reads the clock before and after `aos_poll`. -/
inductive TimerCall where
  | post (ms : Int) (action param : Nat) (now : Int) (mallocOk : Bool)
  | cancel (ms : Int) (cb privateData : Nat)
  | round (before after : Int)
  deriving DecidableEq, Repr

/-- The status of `aos_post_delayed_action`, nothing, or the wait a round gives
`aos_poll` and the timer it fires. -/
inductive TimerReply where
  | status (r : Int)
  | done
  | round (delayed : Int) (fired : Option YloopTimeout)
  deriving DecidableEq, Repr

def timerStep (timeouts : List YloopTimeout) : TimerCall → List YloopTimeout × TimerReply
  | .post ms action param now mallocOk =>
    ((aosPostDelayedAction timeouts ms action param now mallocOk).1,
      .status (aosPostDelayedAction timeouts ms action param now mallocOk).2)
  | .cancel ms cb privateData => (aosCancelDelayedAction timeouts ms cb privateData, .done)
  | .round before after =>
    ((fireDue timeouts after).1, .round (delayedMs timeouts before) (fireDue timeouts after).2)

/-- The times a call is made at, in order. -/
def TimerCall.times : TimerCall → List Int
  | .post _ _ _ now _ => [now]
  | .cancel .. => []
  | .round before after => [before, after]

/-- The delay a call posts. -/
def TimerCall.postDelay : TimerCall → Int
  | .post ms .. => ms
  | _ => 0

def TimerReply.fired : TimerReply → Option YloopTimeout
  | .round _ fired => fired
  | _ => none

/-- The timers in the order they are due. -/
def Sorted (timeouts : List YloopTimeout) : Prop :=
  timeouts.Pairwise fun a b => a.timeoutMs ≤ b.timeoutMs

/-! ### What each call does to the list -/

theorem mem_aosPostDelayedAction {timeouts : List YloopTimeout} {ms : Int} {action param : Nat} {now : Int}
    {mallocOk : Bool} {t : YloopTimeout} (ht : t ∈ (aosPostDelayedAction timeouts ms action param now mallocOk).1) :
    t ∈ timeouts ∨ t.timeoutMs = now + ms := by
  unfold aosPostDelayedAction at ht
  split at ht
  · exact .inl ht
  · split at ht
    · exact .inl ht
    · rcases (List.mem_orderedInsert _).mp ht with rfl | ht
      · exact .inr rfl
      · exact .inl ht

theorem aosCancelDelayedAction_sublist (timeouts : List YloopTimeout) (ms : Int) (cb privateData : Nat) :
    (aosCancelDelayedAction timeouts ms cb privateData).Sublist timeouts :=
  List.eraseP_sublist

theorem fireDue_sublist (timeouts : List YloopTimeout) (now : Int) : (fireDue timeouts now).1.Sublist timeouts := by
  unfold fireDue
  split
  · exact List.Sublist.refl _
  · split
    · exact List.sublist_cons_self _ _
    · exact List.Sublist.refl _

/-- The timer a round fires was the first of the list, and due. -/
theorem fireDue_eq_some {timeouts : List YloopTimeout} {now : Int} {t : YloopTimeout}
    (h : (fireDue timeouts now).2 = some t) :
    ∃ rest, timeouts = t :: rest ∧ (fireDue timeouts now).1 = rest ∧ t.timeoutMs ≤ now := by
  unfold fireDue at h ⊢
  split at h
  · cases h
  · next tmo rest =>
    split at h
    · next hdue =>
      cases h
      exact ⟨rest, rfl, by rw [if_pos hdue], hdue⟩
    · cases h

theorem sorted_timerStep {timeouts : List YloopTimeout} (h : Sorted timeouts) (c : TimerCall) :
    Sorted (timerStep timeouts c).1 := by
  cases c with
  | post ms action param now mallocOk =>
    show Sorted (aosPostDelayedAction timeouts ms action param now mallocOk).1
    unfold aosPostDelayedAction
    split
    · exact h
    · split
      · exact h
      · exact SortedInsert.orderedInsert_pairwise_le YloopTimeout.timeoutMs _ h
  | cancel ms cb privateData => exact h.sublist (aosCancelDelayedAction_sublist timeouts ms cb privateData)
  | round before after => exact h.sublist (fireDue_sublist timeouts after)

/-- The timers in order, each due no earlier than `floor`. -/
structure Ahead (floor : Int) (timeouts : List YloopTimeout) : Prop where
  sorted : Sorted timeouts
  due : ∀ t ∈ timeouts, floor ≤ t.timeoutMs

/-- One call at times no earlier than `floor`, posting no negative delay: the timer it
fires is due no earlier than `floor` and no later than one of its times, and the rest
stay due no earlier than the fired timer; a call that fires none keeps the floor. -/
theorem timerStep_ahead {floor : Int} {timeouts : List YloopTimeout} (h : Ahead floor timeouts) (c : TimerCall)
    (hfloor : ∀ x ∈ c.times, floor ≤ x) (hms : 0 ≤ c.postDelay) :
    (∀ t, (timerStep timeouts c).2.fired = some t →
        floor ≤ t.timeoutMs ∧ (∃ x ∈ c.times, t.timeoutMs ≤ x) ∧ Ahead t.timeoutMs (timerStep timeouts c).1) ∧
      ((timerStep timeouts c).2.fired = none → Ahead floor (timerStep timeouts c).1) := by
  have hsorted := sorted_timerStep h.sorted c
  cases c with
  | post ms action param now mallocOk =>
    refine ⟨fun t hfire => (by cases hfire), fun _ => ⟨hsorted, fun t ht => ?_⟩⟩
    rcases mem_aosPostDelayedAction ht with ht | ht
    · exact h.due t ht
    · -- the new timer is due `ms` after `now`
      have hnow := hfloor now (List.mem_singleton_self now)
      have hms' : 0 ≤ ms := hms
      omega
  | cancel ms cb privateData =>
    refine ⟨fun t hfire => (by cases hfire), fun _ => ⟨hsorted, fun t ht => ?_⟩⟩
    exact h.due t ((aosCancelDelayedAction_sublist timeouts ms cb privateData).subset ht)
  | round before after =>
    have hfired : (timerStep timeouts (.round before after)).2.fired = (fireDue timeouts after).2 := rfl
    have hstate : (timerStep timeouts (.round before after)).1 = (fireDue timeouts after).1 := rfl
    rw [hfired, hstate]
    refine ⟨fun t hfire => ?_, fun _ => ⟨hsorted, fun t ht => h.due t ((fireDue_sublist timeouts after).subset ht)⟩⟩
    obtain ⟨rest, rfl, hrest, hdue⟩ := fireDue_eq_some hfire
    rw [hrest]
    -- the fired timer was first, so the others are due no earlier
    have hfirst := List.pairwise_cons.mp h.sorted
    exact ⟨h.due t List.mem_cons_self, ⟨after, by simp [TimerCall.times], hdue⟩, hfirst.2, hfirst.1⟩

/-- From timers due no earlier than `floor`, over a run whose clock never goes back and
reads no time before `floor`, posting no negative delay, the timers fire in the order
they are due, each no earlier than `floor`. -/
theorem fired_sorted {floor : Int} {timeouts : List YloopTimeout} (h : Ahead floor timeouts) {cs : List TimerCall}
    (hclock : (cs.flatMap TimerCall.times).Pairwise (· ≤ ·)) (hfloor : ∀ x ∈ cs.flatMap TimerCall.times, floor ≤ x)
    (hms : ∀ c ∈ cs, 0 ≤ c.postDelay) :
    Sorted ((replies timerStep timeouts cs).filterMap TimerReply.fired) ∧
      ∀ t ∈ (replies timerStep timeouts cs).filterMap TimerReply.fired, floor ≤ t.timeoutMs := by
  induction cs generalizing floor timeouts with
  | nil => exact ⟨List.Pairwise.nil, fun t ht => absurd ht List.not_mem_nil⟩
  | cons c cs ih =>
    rw [List.flatMap_cons] at hclock hfloor
    obtain ⟨-, hclock', hcross⟩ := List.pairwise_append.mp hclock
    have hstep := timerStep_ahead h c (fun x hx => hfloor x (List.mem_append_left _ hx)) (hms c List.mem_cons_self)
    have hrest : ∀ x ∈ cs.flatMap TimerCall.times, floor ≤ x := fun x hx => hfloor x (List.mem_append_right _ hx)
    have hms' : ∀ c ∈ cs, 0 ≤ c.postDelay := fun c hc => hms c (List.mem_cons_of_mem _ hc)
    rw [replies]
    cases hfire : (timerStep timeouts c).2.fired with
    | none =>
      rw [List.filterMap_cons_none hfire]
      exact ih (hstep.2 hfire) hclock' hrest hms'
    | some t =>
      rw [List.filterMap_cons_some hfire]
      obtain ⟨hft, ⟨x, hx, htx⟩, hahead⟩ := hstep.1 t hfire
      -- the later calls come after the time the timer fired at
      have hlater : ∀ y ∈ cs.flatMap TimerCall.times, t.timeoutMs ≤ y := fun y hy => htx.trans (hcross x hx y hy)
      obtain ⟨hsorted, hdue⟩ := ih hahead hclock' hlater hms'
      refine ⟨List.pairwise_cons.mpr ⟨hdue, hsorted⟩, fun u hu => ?_⟩
      rcases List.mem_cons.mp hu with rfl | hu
      · exact hft
      · exact hft.trans (hdue u hu)

/-- Over every run from the empty list whose clock never goes back and that posts no
negative delay, `aos_loop_run` fires the timers in the order they are due. -/
theorem aosLoopRun_fires_in_due_order {cs : List TimerCall} (hclock : (cs.flatMap TimerCall.times).Pairwise (· ≤ ·))
    (hms : ∀ c ∈ cs, 0 ≤ c.postDelay) : Sorted ((replies timerStep [] cs).filterMap TimerReply.fired) := by
  -- the first time read bounds all the others
  obtain ⟨floor, hfloor⟩ : ∃ floor, ∀ x ∈ cs.flatMap TimerCall.times, floor ≤ x := by
    cases htimes : cs.flatMap TimerCall.times with
    | nil => exact ⟨0, fun x hx => absurd hx List.not_mem_nil⟩
    | cons x xs =>
      rw [htimes] at hclock
      refine ⟨x, fun y hy => ?_⟩
      rcases List.mem_cons.mp hy with rfl | hy
      · exact le_refl y
      · exact List.rel_of_pairwise_cons hclock hy
  exact (fired_sorted ⟨List.Pairwise.nil, fun t ht => absurd ht List.not_mem_nil⟩ hclock hfloor hms).1

/-- Two timers of `10` ms and `5` ms posted at `0` and `3`, and three rounds. -/
def postTwice : List TimerCall :=
  [.post 10 1 0 0 true, .post 5 2 0 3 true, .round 4 8, .round 9 11, .round 12 12]

theorem aosLoopRun_fires_in_due_order_postTwice :
    Sorted ((replies timerStep [] postTwice).filterMap TimerReply.fired) :=
  aosLoopRun_fires_in_due_order (by decide) (by decide)

/-! ### The wait of a round -/

/-- Every timer due within the largest `int` after `now`. -/
def Horizon (now : Int) (timeouts : List YloopTimeout) : Prop :=
  ∀ t ∈ timeouts, t.timeoutMs ≤ now + (2 ^ 31 - 1)

/-- A call made no later than `now` that posts an `int` delay keeps every timer due
within the largest `int` after `now`. -/
theorem horizon_timerStep {now : Int} {timeouts : List YloopTimeout} (h : Horizon now timeouts) (c : TimerCall)
    (htimes : ∀ x ∈ c.times, x ≤ now) (hms : c.postDelay < 2 ^ 31) : Horizon now (timerStep timeouts c).1 := by
  intro t ht
  cases c with
  | post ms action param postNow mallocOk =>
    rcases mem_aosPostDelayedAction ht with ht | ht
    · exact h t ht
    · have hat := htimes postNow (List.mem_singleton_self postNow)
      have hms' : ms < 2 ^ 31 := hms
      omega
  | cancel ms cb privateData => exact h t ((aosCancelDelayedAction_sublist timeouts ms cb privateData).subset ht)
  | round before after => exact h t ((fireDue_sublist timeouts after).subset ht)

/-- The wait `aos_poll` is meant to get: the time to the first timer, or `-1`. -/
def exactDelay (timeouts : List YloopTimeout) (now : Int) : Int :=
  match timeouts with
  | [] => -1
  | tmo :: _ => max 0 (tmo.timeoutMs - now)

/-- Within the largest `int`, the conversion of `delayed_ms` keeps the difference. -/
theorem delayedMs_of_horizon {now : Int} {timeouts : List YloopTimeout} (h : Horizon now timeouts) :
    delayedMs timeouts now = exactDelay timeouts now := by
  cases timeouts with
  | nil => rfl
  | cons tmo rest =>
    have htmo := h tmo List.mem_cons_self
    show (if now < tmo.timeoutMs then toInt32 (tmo.timeoutMs - now) else 0) = max 0 (tmo.timeoutMs - now)
    split
    · unfold toInt32
      rw [Int.bmod_eq_of_le (by norm_num; omega) (by norm_num; omega)]
      omega
    · omega

/-- After every run from the empty list that posts only `int` delays, a round whose
clock is not earlier than any time read before it passes `aos_poll` the exact time to
the first timer, or `-1` when there is none: the `int` of `delayed_ms` never truncates
the difference of the two `long long` times. -/
theorem delayedMs_never_truncated {cs : List TimerCall} {before : Int} (hms : ∀ c ∈ cs, c.postDelay < 2 ^ 31)
    (hclock : ∀ x ∈ cs.flatMap TimerCall.times, x ≤ before) :
    delayedMs (exec timerStep [] cs) before = exactDelay (exec timerStep [] cs) before := by
  have hrun : Horizon before (exec timerStep [] cs) :=
    exec_invariant (Horizon before) (fun c => (∀ x ∈ c.times, x ≤ before) ∧ c.postDelay < 2 ^ 31)
      (fun _ c hc hs => horizon_timerStep hs c hc.1 hc.2) (fun t ht => absurd ht List.not_mem_nil)
      (fun c hc => ⟨fun x hx => hclock x (List.mem_flatMap.mpr ⟨c, hc, hx⟩), hms c hc⟩)
  exact delayedMs_of_horizon hrun

/-- A timer of `2^31 - 1` ms posted at `0`, read back at `1`. -/
theorem delayedMs_never_truncated_longest :
    delayedMs (exec timerStep [] [.post (2 ^ 31 - 1) 1 0 0 true]) 1 = 2 ^ 31 - 2 :=
  (delayedMs_never_truncated (by decide) (by decide)).trans rfl

/-! ### Cancelling and firing -/

end Yloop
