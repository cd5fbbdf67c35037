import Mathlib

/-!
# Runs of a step function

A component that answers calls one at a time is a step function
`step : σ → ι → σ × ο`: from a state and a call it gives the next state and the
reply. `exec` runs a list of calls and keeps the state. Two rules carry facts
over whole runs: an invariant kept by every admissible call holds after every
admissible run, and a relation between two machines kept by every admissible
call (the reply being matched by the step lemma itself) relates their states
after every admissible run. A step that may not end gives `none`; its runs end
when every admissible call ends.
-/

namespace Machine

variable {σ τ ι ο ρ : Type*}

/-- The state after answering the calls `is` in order. -/
def exec (step : σ → ι → σ × ο) (s : σ) (is : List ι) : σ :=
  is.foldl (fun s i => (step s i).1) s

@[simp] theorem exec_nil (step : σ → ι → σ × ο) (s : σ) : exec step s [] = s := rfl

@[simp] theorem exec_cons (step : σ → ι → σ × ο) (s : σ) (i : ι) (is : List ι) :
    exec step s (i :: is) = exec step (step s i).1 is := rfl

/-- The replies to the calls `is`, in order. -/
def replies (step : σ → ι → σ × ο) : σ → List ι → List ο
  | _, [] => []
  | s, i :: is => (step s i).2 :: replies step (step s i).1 is

theorem exec_append (step : σ → ι → σ × ο) (s : σ) (is js : List ι) :
    exec step s (is ++ js) = exec step (exec step s is) js := by
  simp [exec, List.foldl_append]

/-- A run's replies split where the run does: the second part answers from the
state the first leaves. -/
theorem replies_append (step : σ → ι → σ × ο) (s : σ) (is js : List ι) :
    replies step s (is ++ js) = replies step s is ++ replies step (exec step s is) js := by
  induction is generalizing s with
  | nil => rfl
  | cons i is ih => simp [replies, ih]

@[simp] theorem replies_length (step : σ → ι → σ × ο) (s : σ) (is : List ι) :
    (replies step s is).length = is.length := by
  induction is generalizing s with
  | nil => rfl
  | cons i is ih => simp [replies, ih]

/-- The invariant rule: what every admissible call keeps holds after every
admissible run. -/
theorem exec_invariant {step : σ → ι → σ × ο} (Inv : σ → Prop) (Ok : ι → Prop)
    (keep : ∀ s i, Ok i → Inv s → Inv (step s i).1) {s : σ} (init : Inv s) :
    ∀ {is : List ι}, (∀ i ∈ is, Ok i) → Inv (exec step s is) := by
  intro is
  induction is generalizing s with
  | nil => intro _; exact init
  | cons i is ih =>
    intro ok
    exact ih (keep s i (ok i (by simp)) init) (fun j hj => ok j (by simp [hj]))

/-- The invariant rule for a machine that can stop, in state `none`, and never starts
again: what every admissible call keeps of a running state holds of every running state
an admissible run reaches. -/
theorem exec_invariant_some {step : Option σ → ι → Option σ × ο} (Inv : σ → Prop) (Ok : ι → Prop)
    (stopped : ∀ i, (step none i).1 = none)
    (keep : ∀ s i s', Ok i → Inv s → (step (some s) i).1 = some s' → Inv s') {s : σ} (init : Inv s) :
    ∀ {is : List ι} {s' : σ}, (∀ i ∈ is, Ok i) → exec step (some s) is = some s' → Inv s' := by
  intro is s' ok h
  -- the invariant of the optional state: a running state keeps `Inv`
  refine exec_invariant (fun o => ∀ s', o = some s' → Inv s') Ok ?_ ?_ ok s' h
  · intro o i hi ho s'' hs''
    cases o with
    | none => rw [stopped i] at hs''; cases hs''
    | some s => exact keep s i s'' hi (ho s rfl) hs''
  · intro s' hs'
    cases hs'
    exact init

/-- The reply rule: what every admissible call answers from a state of the invariant
holds of every reply of an admissible run. -/
theorem replies_invariant {step : σ → ι → σ × ο} (Inv : σ → Prop) (Ok : ι → Prop) (P : ο → Prop)
    (keep : ∀ s i, Ok i → Inv s → Inv (step s i).1) (answer : ∀ s i, Ok i → Inv s → P (step s i).2)
    {s : σ} (init : Inv s) : ∀ {is : List ι}, (∀ i ∈ is, Ok i) → ∀ o ∈ replies step s is, P o := by
  intro is
  induction is generalizing s with
  | nil => intro _ o ho; cases ho
  | cons i is ih =>
    intro ok o ho
    rcases List.mem_cons.mp ho with rfl | ho
    · exact answer s i (ok i (by simp)) init
    · exact ih (keep s i (ok i (by simp)) init) (fun j hj => ok j (by simp [hj])) o ho

/-- The run is admissible call by call: each call passes `ok` in the state it is
made in. -/
def allowed (step : σ → ι → σ × ο) (ok : σ → ι → Bool) : σ → List ι → Bool
  | _, [] => true
  | s, i :: is => ok s i && allowed step ok (step s i).1 is

/-- A run split in two is admissible when its first part is, and its second part from
where the first ends. -/
theorem allowed_append (step : σ → ι → σ × ο) (ok : σ → ι → Bool) (s : σ) (is js : List ι) :
    allowed step ok s (is ++ js) = (allowed step ok s is && allowed step ok (exec step s is) js) := by
  induction is generalizing s with
  | nil => simp [allowed]
  | cons i is ih => simp [allowed, ih, Bool.and_assoc]

/-- The invariant rule for calls whose admissibility depends on the state. -/
theorem exec_invariant_allowed {step : σ → ι → σ × ο} {ok : σ → ι → Bool} (Inv : σ → Prop)
    (keep : ∀ s i, Inv s → ok s i = true → Inv (step s i).1) {s : σ} (init : Inv s) :
    ∀ {is : List ι}, allowed step ok s is = true → Inv (exec step s is) := by
  intro is
  induction is generalizing s with
  | nil => intro _; exact init
  | cons i is ih =>
    intro hok
    simp only [allowed, Bool.and_eq_true] at hok
    exact ih (keep s i init hok.1) hok.2

/-- The simulation rule: a relation between two machines that every admissible
call keeps relates the states of the two runs of every admissible list of calls. -/
theorem exec_sim {cstep : σ → ι → σ × ο} {astep : τ → ι → τ × ρ} (R : σ → τ → Prop)
    (Ok : ι → Prop) (keep : ∀ s t i, Ok i → R s t → R (cstep s i).1 (astep t i).1)
    {s : σ} {t : τ} (init : R s t) :
    ∀ {is : List ι}, (∀ i ∈ is, Ok i) → R (exec cstep s is) (exec astep t is) := by
  intro is
  induction is generalizing s t with
  | nil => intro _; exact init
  | cons i is ih =>
    intro ok
    exact ih (keep s t i (ok i (by simp)) init) (fun j hj => ok j (by simp [hj]))

/-! ## Steps that may not end -/

/-- The run of a step that may not end: `none` as soon as one step does not. -/
def runPartial (step : σ → ι → Option σ) : σ → List ι → Option σ
  | s, [] => some s
  | s, i :: is => (step s i).bind fun s' => runPartial step s' is

/-- The calls of a run are admissible one after the other: each in every state the
steps before it can reach. -/
def AllowedFrom (step : σ → ι → Option σ) (Ok : σ → ι → Prop) : σ → List ι → Prop
  | _, [] => True
  | s, i :: is => Ok s i ∧ ∀ s' ∈ step s i, AllowedFrom step Ok s' is

/-- The invariant rule for steps that may not end: when every admissible call from a
state of the invariant ends, and in the invariant, every admissible run ends in it. -/
theorem runPartial_invariant {step : σ → ι → Option σ} {Ok : σ → ι → Prop} (Inv : σ → Prop)
    (keep : ∀ s i, Inv s → Ok s i → ∃ s', step s i = some s' ∧ Inv s') :
    ∀ {is : List ι} {s : σ}, Inv s → AllowedFrom step Ok s is →
      ∃ s', runPartial step s is = some s' ∧ Inv s' := by
  intro is
  induction is with
  | nil => exact fun {s} hs _ => ⟨s, rfl, hs⟩
  | cons i is ih =>
    intro s hs hok
    obtain ⟨hi, hrest⟩ := hok
    obtain ⟨s', hstep, hs'⟩ := keep s i hs hi
    obtain ⟨s'', hrun, hs''⟩ := ih hs' (hrest s' hstep)
    exact ⟨s'', by rw [runPartial, hstep, Option.bind_some, hrun], hs''⟩

/-! ## Watching a machine -/

section Watch

variable {γ φ M : Type*}

/-- A machine with an observer beside it: on each call the observer sees the state
before and after, the call, and its own ghost state `γ`; it gives its next ghost state
and a report. The machine runs as it would alone. -/
def watch (step : σ → ι → σ × ο) (obs : σ → σ → ι → γ → γ × φ) (w : σ × γ) (i : ι) : (σ × γ) × φ :=
  (((step w.1 i).1, (obs w.1 (step w.1 i).1 i w.2).1), (obs w.1 (step w.1 i).1 i w.2).2)

theorem exec_watch_fst (step : σ → ι → σ × ο) (obs : σ → σ → ι → γ → γ × φ) (w : σ × γ) (is : List ι) :
    (exec (watch step obs) w is).1 = exec step w.1 is := by
  induction is generalizing w with
  | nil => rfl
  | cons i is ih => exact ih _

/-- The watched run is admissible when the machine's run is. -/
theorem allowed_watch (step : σ → ι → σ × ο) (obs : σ → σ → ι → γ → γ × φ) (ok : σ → ι → Bool)
    (w : σ × γ) (is : List ι) :
    allowed (watch step obs) (fun w i => ok w.1 i) w is = allowed step ok w.1 is := by
  induction is generalizing w with
  | nil => rfl
  | cons i is ih => simp only [allowed, ih]; rfl

/-- The conservation rule: when every admissible call from a state of an invariant it
keeps changes a quantity `V` by what its reply brings in less what it takes out, an
admissible run changes `V` by the sums of what its replies bring in and take out. -/
theorem replies_balance [AddCommMonoid M] {step : σ → ι → σ × ο} {ok : σ → ι → Bool} (Inv : σ → Prop)
    (Ok : ι → Prop) (V : σ → M) (inflow outflow : ο → M)
    (keep : ∀ s i, Inv s → ok s i = true → Inv (step s i).1)
    (bal : ∀ s i, Inv s → ok s i = true → Ok i →
      V s + inflow (step s i).2 = V (step s i).1 + outflow (step s i).2) :
    ∀ {s : σ} {is : List ι}, Inv s → allowed step ok s is = true → (∀ i ∈ is, Ok i) →
      V s + ((replies step s is).map inflow).sum = V (exec step s is) + ((replies step s is).map outflow).sum := by
  intro s is
  induction is generalizing s with
  | nil => intro _ _ _; simp [replies]
  | cons i is ih =>
    intro hs hok hOk
    simp only [allowed, Bool.and_eq_true] at hok
    have h₁ := bal s i hs hok.1 (hOk i List.mem_cons_self)
    have h₂ := ih (keep s i hs hok.1) hok.2 fun j hj => hOk j (List.mem_cons_of_mem i hj)
    simp only [replies, List.map_cons, List.sum_cons, exec_cons]
    calc V s + (inflow (step s i).2 + ((replies step (step s i).1 is).map inflow).sum)
        = (V s + inflow (step s i).2) + ((replies step (step s i).1 is).map inflow).sum := by abel
      _ = (V (step s i).1 + ((replies step (step s i).1 is).map inflow).sum) + outflow (step s i).2 := by
        rw [h₁]; abel
      _ = V (exec step (step s i).1 is) +
            (outflow (step s i).2 + ((replies step (step s i).1 is).map outflow).sum) := by
        rw [h₂]; abel

end Watch

end Machine
