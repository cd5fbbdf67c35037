import AliosThings.Vfs.Seq

/-!
# Calls of the interleaved model run one at a time

In the interleaved model of `Tables` a call is a sequence of steps of one task. When the
steps of one call follow each other with no step of another task between them, from a
state where no call is in progress, the call ends in the tables that the sequential
call of `Seq` gives and returns what that call returns, provided its locks and unlocks
succeed (in the interleaved model a lock waits instead of failing). A run of whole
calls one after another is then a run of the sequential model and keeps its invariant:
every inode counts its files, and no inode is released under an open file. The lost
increment of `Refs` needs two calls to overlap.
-/

namespace Vfs

open Tables Machine

attribute [ext] Tables

/-- The steps of task `t` that carry out one call when nothing runs between them:
`resume` goes on with the call, `env.op` being what the `open` of the driver or file
system returns, and does nothing once the call has returned. -/
def callSteps (t : Nat) : Call × CallEnv → List (Nat × Step)
  | (.aosRegisterDriver path, env) => [(t, .registerDriver path env.mallocOk)]
  | (.aosRegisterFs path, env) => [(t, .registerFs path env.mallocOk)]
  | (.aosUnregisterDriver path, _) => [(t, .unregisterDriver path)]
  | (.aosUnregisterFs path, _) => [(t, .unregisterFs path)]
  | (.aosOpen path flags, env) => [(t, .aosOpen path flags), (t, .resume 0), (t, .resume env.op), (t, .resume 0)]
  | (.aosClose fd, _) => [(t, .aosClose fd), (t, .resume 0), (t, .resume 0)]

/-- The answers of the world that the interleaved model assumes: every lock and unlock
succeeds, and so does `aos_mutex_new`. -/
def CallEnv.Serial (env : CallEnv) : Prop :=
  env.lock = 0 ∧ env.unlock = 0 ∧ env.mutexNew = 0

namespace Tables

variable (s : Tables)

@[simp] theorem setTask_nodes (t : Nat) (pc : Pc) : (s.setTask t pc).nodes = s.nodes := rfl

@[simp] theorem setTask_files (t : Nat) (pc : Pc) : (s.setTask t pc).files = s.files := rfl

@[simp] theorem setTask_tasks_self (t : Nat) (pc : Pc) : (s.setTask t pc).tasks t = pc := by
  unfold setTask
  exact Function.update_self t pc s.tasks

theorem setTask_setTask (t : Nat) (a b : Pc) : (s.setTask t a).setTask t b = s.setTask t b := by
  simp only [setTask, Function.update_idem]

theorem setTask_eq_self {t : Nat} {pc : Pc} (h : s.tasks t = pc) : s.setTask t pc = s := by
  unfold setTask
  rw [← h, Function.update_eq_self]

theorem mayLock_of_free {t : Nat} (h : s.mutex = none) : s.mayLock t = true := by
  simp [mayLock, h]

theorem setNode_congr {n : Nat} {f g : Inode → Inode} (h : f (s.nodes n) = g (s.nodes n)) :
    s.setNode n f = s.setNode n g := by
  unfold setNode
  rw [h]

theorem setNode_eq_self {n : Nat} {f : Inode → Inode} (h : f (s.nodes n) = s.nodes n) : s.setNode n f = s := by
  unfold setNode
  rw [h, Function.update_eq_self]

/-- The store of `inode_unref` with the count it loaded is `del_file`. -/
theorem unrefStore_eq_delFile (file n : Nat) : s.unrefStore file n (s.nodes n).refs = s.delFile file n := by
  unfold unrefStore delFile inodeUnref
  split
  · next hpos =>
    congr 1
    exact s.setNode_congr (by rw [if_pos hpos])
  · next hzero =>
    rw [s.setNode_eq_self]
    rw [if_neg hzero]

theorem delFile_setTask (t : Nat) (pc : Pc) (i n : Nat) :
    (s.setTask t pc).delFile i n = (s.delFile i n).setTask t pc := rfl

/-- A task that is not the one that runs `del_file` does not matter to it. -/
theorem unrefStore_setTask (t : Nat) (pc : Pc) (i n : Nat) :
    (s.setTask t pc).unrefStore i n (s.nodes n).refs = (s.delFile i n).setTask t pc := by
  rw [← delFile_setTask]
  exact unrefStore_eq_delFile (s.setTask t pc) i n

end Tables

/-! ### One call run alone -/

section Alone

variable {s : Tables} {t : Nat}

theorem vfsStep_resume_idle (hidle : s.tasks t = .idle) (ret : Int) : vfsStep s (t, .resume ret) = (s, none) := by
  simp only [vfsStep, hidle]

theorem exec_resume_idle (hidle : s.tasks t = .idle) (rets : List Int) :
    exec vfsStep s (rets.map fun r => (t, .resume r)) = s ∧
      (replies vfsStep s (rets.map fun r => (t, .resume r))).reduceOption = [] := by
  induction rets with
  | nil => exact ⟨rfl, rfl⟩
  | cons r rets ih =>
    simp only [List.map_cons, exec_cons, replies, vfsStep_resume_idle hidle, List.reduceOption_cons_of_none]
    exact ih

/-- A call that returns at its first step leaves its task idle, and the `resume` steps
after it do nothing. -/
theorem exec_returns_first {st : Step} {s' : Tables} {r : Int} (hstep : vfsStep s (t, st) = (s', some r))
    (hidle : s'.tasks t = .idle) (rets : List Int) :
    exec vfsStep s ((t, st) :: rets.map fun r => (t, .resume r)) = s' ∧
      (replies vfsStep s ((t, st) :: rets.map fun r => (t, .resume r))).reduceOption = [r] := by
  obtain ⟨hexec, hreplies⟩ := exec_resume_idle hidle rets
  rw [exec_cons, replies, hstep]
  exact ⟨hexec, by rw [List.reduceOption_cons_of_some, hreplies]⟩

/-- `aos_open` once `new_file` has a slot: the interleaved call holds the mutex up to the
store of `inode_ref`, calls the `open` of the inode, and on failure runs `del_file`. -/
theorem aosOpen_alone_of_slot (hidle : s.tasks t = .idle) (hfree : s.mutex = none) {path : List Char}
    {flags : Int} {env : CallEnv} {n i : Nat} (hpath : ¬ path.length > pathMax) (hlock : env.lock = 0)
    (hopen : s.inodeOpen path = some n) (hslot : (s.setNode n fun x => { x with flags := flags }).newFileSlot = some i) :
    exec vfsStep s (callSteps t (.aosOpen path flags, env)) = (s.aosOpen path flags env).1 ∧
      (replies vfsStep s (callSteps t (.aosOpen path flags, env))).reduceOption = [(s.aosOpen path flags env).2] := by
  -- the tables of the sequential call once `new_file` has counted the file
  obtain ⟨X, hXdef⟩ : ∃ X, X = ((s.setNode n fun x => { x with flags := flags }).setFile i (some n)).inodeRef n :=
    ⟨_, rfl⟩
  have hseq : s.aosOpen path flags env =
      if env.op ≠ vfsSuccess then (X.delFile i n, env.op) else (X, getFd i) := by
    unfold aosOpen
    rw [if_neg hpath, if_neg (not_not.mpr hlock), hopen]
    dsimp only
    rw [newFile, hslot, Option.map_some, hXdef]
  have h1 : vfsStep s (t, .aosOpen path flags) =
      (((({ (s.setNode n fun x => { x with flags := flags }) with mutex := some t } : Tables).setFile i (some n)).setTask t
        (.openRef i n ((s.setNode n fun x => { x with flags := flags }).nodes n).refs)), none) := by
    simp only [vfsStep, hidle, ↓reduceIte, openStart, hpath, mayLock_of_free s hfree, hopen, not_true_eq_false]
    rw [hslot]
  -- the store of `inode_ref` and the unlock give the tables `X`
  have h2 : vfsStep ((({ (s.setNode n fun x => { x with flags := flags }) with mutex := some t } : Tables).setFile i
        (some n)).setTask t (.openRef i n ((s.setNode n fun x => { x with flags := flags }).nodes n).refs)) (t, .resume 0) =
      (X.setTask t (.openOp i), none) := by
    simp only [vfsStep, setTask_tasks_self]
    refine congrArg (·, none) (Tables.ext (by rw [hXdef]; rfl) (by rw [hXdef]; rfl) (by rw [hXdef]; exact hfree.symm) ?_)
    simp only [openRefStore, setTask, setNode_tasks, setFile_tasks, hXdef, inodeRef, Function.update_idem]
  have hidleX : X.tasks t = .idle := by
    rw [hXdef]
    exact hidle
  by_cases hop : env.op = vfsSuccess
  · have h3 : vfsStep (X.setTask t (.openOp i)) (t, .resume env.op) = (X, some (getFd i)) := by
      simp only [vfsStep, setTask_tasks_self, openOpReturns, hop, ↓reduceIte, setTask_setTask, setTask_eq_self _ hidleX]
    have h4 : vfsStep X (t, .resume 0) = (X, none) := vfsStep_resume_idle hidleX 0
    rw [hseq, if_neg (not_not.mpr hop)]
    refine ⟨?_, ?_⟩ <;> simp only [callSteps, exec_cons, exec_nil, replies, h1, h2, h3, h4,
      List.reduceOption_cons_of_none, List.reduceOption_cons_of_some, List.reduceOption_nil]
  · -- the `open` failed: `del_file` loads and stores `refs` with no other task between
    have hfile : (X.setTask t (.openOp i)).files i = some n := by
      rw [setTask_files, hXdef]
      simp [inodeRef]
    have h3 : vfsStep (X.setTask t (.openOp i)) (t, .resume env.op) =
        (X.setTask t (.openUnref i n (X.nodes n).refs env.op), none) := by
      simp only [vfsStep, setTask_tasks_self, openOpReturns, hop, ↓reduceIte, hfile, setTask_setTask, setTask_nodes]
    have h4 : vfsStep (X.setTask t (.openUnref i n (X.nodes n).refs env.op)) (t, .resume 0) =
        (X.delFile i n, some env.op) := by
      simp only [vfsStep, setTask_tasks_self]
      rw [unrefStore_setTask, setTask_setTask, setTask_eq_self (X.delFile i n) hidleX]
    rw [hseq, if_pos hop]
    refine ⟨?_, ?_⟩ <;> simp only [callSteps, exec_cons, exec_nil, replies, h1, h2, h3, h4,
      List.reduceOption_cons_of_none, List.reduceOption_cons_of_some, List.reduceOption_nil]

theorem aosOpen_alone (hidle : s.tasks t = .idle) (hfree : s.mutex = none) (path : List Char) (flags : Int)
    {env : CallEnv} (hlock : env.lock = 0) :
    exec vfsStep s (callSteps t (.aosOpen path flags, env)) = (s.aosOpen path flags env).1 ∧
      (replies vfsStep s (callSteps t (.aosOpen path flags, env))).reduceOption = [(s.aosOpen path flags env).2] := by
  have hsteps : callSteps t (.aosOpen path flags, env) =
      (t, .aosOpen path flags) :: [0, env.op, 0].map fun r => (t, .resume r) := rfl
  by_cases hpath : path.length > pathMax
  · -- the three failures that return at the first step
    have hseq : s.aosOpen path flags env = (s, -eNametoolong) := by
      rw [aosOpen, if_pos hpath]
    rw [hseq, hsteps]
    exact exec_returns_first (by simp only [vfsStep, hidle, ↓reduceIte, openStart, hpath]) hidle _
  cases hopen : s.inodeOpen path with
  | none =>
    have hseq : s.aosOpen path flags env = (s, -eNoent) := by
      unfold aosOpen
      rw [if_neg hpath, if_neg (not_not.mpr hlock), hopen]
    rw [hseq, hsteps]
    refine exec_returns_first ?_ hidle _
    simp only [vfsStep, hidle, ↓reduceIte, openStart, hpath, mayLock_of_free s hfree, hopen, not_true_eq_false]
  | some n =>
    cases hslot : (s.setNode n fun x => { x with flags := flags }).newFileSlot with
    | none =>
      have hseq : s.aosOpen path flags env = (s.setNode n fun x => { x with flags := flags }, -eNfile) := by
        unfold aosOpen
        rw [if_neg hpath, if_neg (not_not.mpr hlock), hopen]
        dsimp only
        rw [newFile, hslot, Option.map_none]
      rw [hseq, hsteps]
      have hidle₁ : (s.setNode n fun x => { x with flags := flags }).tasks t = .idle := hidle
      refine exec_returns_first ?_ hidle₁ _
      simp only [vfsStep, hidle, ↓reduceIte, openStart, hpath, mayLock_of_free s hfree, hopen, not_true_eq_false]
      rw [hslot]
    | some i => exact aosOpen_alone_of_slot hidle hfree hpath hlock hopen hslot

theorem aosClose_alone (hidle : s.tasks t = .idle) (hfree : s.mutex = none) (fd : Int) {env : CallEnv}
    (hlock : env.lock = 0) :
    exec vfsStep s (callSteps t (.aosClose fd, env)) = (s.aosClose fd env).1 ∧
      (replies vfsStep s (callSteps t (.aosClose fd, env))).reduceOption = [(s.aosClose fd env).2] := by
  have hsteps : callSteps t (.aosClose fd, env) = (t, .aosClose fd) :: [0, 0].map fun r => (t, .resume r) := rfl
  cases hfile : s.getFile fd with
  | none =>
    have hseq : s.aosClose fd env = (s, -eNoent) := by
      unfold aosClose
      rw [hfile]
    rw [hseq, hsteps]
    exact exec_returns_first (by simp only [vfsStep, hidle, ↓reduceIte, closeStart, hfile]) hidle _
  | some file =>
    obtain ⟨n, hnode⟩ := s.getFile_files hfile
    have hseq : s.aosClose fd env = (s.delFile file n, vfsSuccess) := by
      rw [s.aosClose_eq env hfile hnode, if_neg (not_not.mpr hlock), hlock]
      rfl
    have h1 : vfsStep s (t, .aosClose fd) = (s.setTask t (.closeLock file), none) := by
      simp only [vfsStep, hidle, ↓reduceIte, closeStart, hfile]
    -- the lock, the load of `inode_unref` and its store follow each other
    have h2 : vfsStep (s.setTask t (.closeLock file)) (t, .resume 0) =
        ((({ s with mutex := some t } : Tables).setTask t (.closeUnref file n (s.nodes n).refs)), none) := by
      simp only [vfsStep, setTask_tasks_self, closeLockTake, mayLock_of_free (s.setTask t (.closeLock file)) hfree,
        setTask_files, hnode, not_true_eq_false, ↓reduceIte]
      refine congrArg (·, none) (Tables.ext rfl rfl rfl ?_)
      simp only [setTask, Function.update_idem]
    have h3 : vfsStep (({ s with mutex := some t } : Tables).setTask t (.closeUnref file n (s.nodes n).refs)) (t, .resume 0) =
        (s.delFile file n, some vfsSuccess) := by
      simp only [vfsStep, setTask_tasks_self]
      rw [unrefStore_setTask]
      refine congrArg (·, some vfsSuccess) (Tables.ext rfl rfl hfree.symm ?_)
      simp only [setTask, Function.update_idem]
      rw [← hidle]
      exact Function.update_eq_self t s.tasks
    rw [hseq, hsteps]
    refine ⟨?_, ?_⟩ <;> simp only [List.map_cons, List.map_nil, exec_cons, exec_nil, replies, h1, h2, h3,
      List.reduceOption_cons_of_none, List.reduceOption_cons_of_some, List.reduceOption_nil]

/-- A registration is one step, the step `register` when its lock and unlock succeed. -/
theorem registerCall_alone (hfree : s.mutex = none) (path : List Char) (type : VfsType) {env : CallEnv}
    (hlock : env.lock = 0) (hunlock : env.unlock = 0) (st : Step)
    (hstep : vfsStep s (t, st) = s.register t path type env.mallocOk) :
    (s.registerCall path type vfsSuccess env).map Prod.fst = some (exec vfsStep s [(t, st)]) ∧
      (replies vfsStep s [(t, st)]).reduceOption = ((s.registerCall path type vfsSuccess env).map Prod.snd).toList := by
  obtain ⟨⟨s', r⟩, hcall, hreg⟩ :=
    Option.map_eq_some_iff.mp (s.registerCall_refines t hlock hunlock (s.mayLock_of_free hfree))
  have hreg' : s.register t path type env.mallocOk = (s', some r) := hreg.symm
  rw [hcall]
  refine ⟨?_, ?_⟩ <;> simp only [exec_cons, exec_nil, replies, hstep, hreg', Option.map_some,
    List.reduceOption_cons_of_some, List.reduceOption_nil, Option.toList_some]

theorem aosUnregister_alone (hfree : s.mutex = none) (path : List Char) {env : CallEnv} (hlock : env.lock = 0)
    (hunlock : env.unlock = 0) (st : Step) (hstep : vfsStep s (t, st) = s.unregister t path) :
    exec vfsStep s [(t, st)] = (s.aosUnregister path env).1 ∧
      (replies vfsStep s [(t, st)]).reduceOption = [(s.aosUnregister path env).2] := by
  simp only [exec_cons, exec_nil, replies, hstep, unregister, mayLock_of_free s hfree, not_true_eq_false,
    ↓reduceIte, aosUnregister, hlock, hunlock, ne_eq]
  cases s.inodeRelease path <;> exact ⟨rfl, rfl⟩

/-- One call run alone, from a state where its task is idle and the mutex free, ends in
the tables the sequential call gives and returns once, what that call returns. -/
theorem callSteps_refines (hidle : s.tasks t = .idle) (hfree : s.mutex = none) (c : Call × CallEnv)
    (henv : c.2.Serial) :
    (callStep (some s) c).1 = some (exec vfsStep s (callSteps t c)) ∧
      (replies vfsStep s (callSteps t c)).reduceOption = (callStep (some s) c).2.toList := by
  obtain ⟨c, env⟩ := c
  obtain ⟨hlock, hunlock, hmutex⟩ := henv
  cases c with
  | aosRegisterDriver path =>
    have h := registerCall_alone (t := t) hfree path .charDev hlock hunlock (.registerDriver path env.mallocOk)
      (by simp only [vfsStep, hidle, ↓reduceIte])
    -- the status once the inode is populated is that of `aos_mutex_new`
    have hpop : env.mutexNew = vfsSuccess := hmutex
    simp only [callStep, aosRegisterDriver, callSteps]
    rw [hpop]
    exact h
  | aosRegisterFs path =>
    exact registerCall_alone hfree path .fsDev hlock hunlock (.registerFs path env.mallocOk)
      (by simp only [vfsStep, hidle, ↓reduceIte])
  | aosUnregisterDriver path =>
    obtain ⟨hexec, hreplies⟩ := aosUnregister_alone (t := t) hfree path hlock hunlock (.unregisterDriver path)
      (by simp only [vfsStep, hidle, ↓reduceIte])
    exact ⟨congrArg some hexec.symm, hreplies⟩
  | aosUnregisterFs path =>
    obtain ⟨hexec, hreplies⟩ := aosUnregister_alone (t := t) hfree path hlock hunlock (.unregisterFs path)
      (by simp only [vfsStep, hidle, ↓reduceIte])
    exact ⟨congrArg some hexec.symm, hreplies⟩
  | aosOpen path flags =>
    obtain ⟨hexec, hreplies⟩ := aosOpen_alone hidle hfree path flags hlock
    exact ⟨congrArg some hexec.symm, hreplies⟩
  | aosClose fd =>
    obtain ⟨hexec, hreplies⟩ := aosClose_alone hidle hfree fd hlock
    exact ⟨congrArg some hexec.symm, hreplies⟩

end Alone

/-- The sequential calls leave the tasks and the mutex alone. -/
theorem callStep_frame {s s' : Tables} (c : Call × CallEnv) (h : (callStep (some s) c).1 = some s') :
    s'.tasks = s.tasks ∧ s'.mutex = s.mutex :=
  callStep_closed (fun x => x.tasks = s.tasks ∧ x.mutex = s.mutex) (fun _ _ _ h => h) (fun _ _ _ h => h) ⟨rfl, rfl⟩ c h

/-! ### Runs of whole calls -/

/-- The steps of calls made one after another, each by its task. -/
def serialSteps (cs : List (Nat × Call × CallEnv)) : List (Nat × Step) :=
  cs.flatMap fun c => callSteps c.1 c.2

/-- A run of the interleaved model made of whole calls, one after another from a state
where no call is in progress, is the run of the sequential calls, and ends with no call
in progress. -/
theorem serialSteps_run (cs : List (Nat × Call × CallEnv)) (henv : ∀ c ∈ cs, c.2.2.Serial) {s : Tables}
    (hq : Quiescent s) (hfree : s.mutex = none) :
    exec callStep (some s) (cs.map Prod.snd) = some (exec vfsStep s (serialSteps cs)) ∧
      (replies vfsStep s (serialSteps cs)).reduceOption = (replies callStep (some s) (cs.map Prod.snd)).reduceOption ∧
      Quiescent (exec vfsStep s (serialSteps cs)) := by
  induction cs generalizing s with
  | nil => exact ⟨rfl, rfl, hq⟩
  | cons c cs ih =>
    obtain ⟨hcall, hcallReplies⟩ := callSteps_refines (hq c.1) hfree c.2 (henv c (List.mem_cons_self ..))
    -- the call ends where no call is in progress and the mutex is free
    obtain ⟨htasks, hmutex⟩ := callStep_frame c.2 hcall
    have hq' : Quiescent (exec vfsStep s (callSteps c.1 c.2)) := fun u => by rw [htasks]; exact hq u
    obtain ⟨hrest, hrestReplies, hrestQ⟩ :=
      ih (fun d hd => henv d (List.mem_cons_of_mem c hd)) hq' (by rw [hmutex]; exact hfree)
    have hsteps : serialSteps (c :: cs) = callSteps c.1 c.2 ++ serialSteps cs := List.flatMap_cons
    refine ⟨?_, ?_, ?_⟩
    · rw [List.map_cons, exec_cons, hcall, hrest, hsteps, exec_append]
    · rw [hsteps, replies_append, List.reduceOption_append, hcallReplies, hrestReplies, List.map_cons, replies,
        hcall]
      -- a call returns at most once
      cases (callStep (some s) c.2).2 with
      | none => rfl
      | some r => rfl
    · rw [hsteps, exec_append]
      exact hrestQ

/-- Calls of the interleaved model made one after another, from a state where no call is
in progress and the mutex is free, give the tables of the sequential calls and return
the same values in the same order. -/
theorem serialSteps_refines (cs : List (Nat × Call × CallEnv)) (henv : ∀ c ∈ cs, c.2.2.Serial) {s : Tables}
    (hq : Quiescent s) (hfree : s.mutex = none) :
    exec callStep (some s) (cs.map Prod.snd) = some (exec vfsStep s (serialSteps cs)) ∧
      (replies vfsStep s (serialSteps cs)).reduceOption = (replies callStep (some s) (cs.map Prod.snd)).reduceOption :=
  have hrun := serialSteps_run cs henv hq hfree
  ⟨hrun.1, hrun.2.1⟩

instance : DecidablePred CallEnv.Serial := fun env =>
  inferInstanceAs (Decidable (env.lock = 0 ∧ env.unlock = 0 ∧ env.mutexNew = 0))

/-- Runs of the interleaved model in which no two calls overlap end with no call in
progress, every inode counting its files and every file on a registered inode. -/
theorem serialSteps_keep_refs (cs : List (Nat × Call × CallEnv)) (henv : ∀ c ∈ cs, c.2.2.Serial) :
    Quiescent (exec vfsStep vfsInit (serialSteps cs)) ∧ RefsExact (exec vfsStep vfsInit (serialSteps cs)) ∧
      FilesLive (exec vfsStep vfsInit (serialSteps cs)) := by
  obtain ⟨hrun, -, hq⟩ := serialSteps_run cs henv (s := vfsInit) (fun _ => rfl) rfl
  have hinv := seqInv_exec hrun
  exact ⟨hq, hinv.refs, hinv.live⟩

/-- The calls of `openSeq` made by tasks `0`, `1` and `2`, as in `openRace`, but one
after another. -/
def openSerial : List (Nat × Call × CallEnv) := List.zip [0, 1, 2] openSeq

theorem serialSteps_refines_openSerial :
    (∀ c ∈ openSerial, c.2.2.Serial) ∧ Quiescent vfsInit ∧ vfsInit.mutex = none ∧
      exec callStep (some vfsInit) (openSerial.map Prod.snd) = some (exec vfsStep vfsInit (serialSteps openSerial)) ∧
      (replies vfsStep vfsInit (serialSteps openSerial)).reduceOption =
        (replies callStep (some vfsInit) (openSerial.map Prod.snd)).reduceOption :=
  have henv : ∀ c ∈ openSerial, c.2.2.Serial := by decide
  have hq : Quiescent vfsInit := fun _ => rfl
  ⟨henv, hq, rfl, serialSteps_refines openSerial henv hq rfl⟩

theorem serialSteps_keep_refs_openSerial :
    (∀ c ∈ openSerial, c.2.2.Serial) ∧ Quiescent (exec vfsStep vfsInit (serialSteps openSerial)) ∧
      RefsExact (exec vfsStep vfsInit (serialSteps openSerial)) ∧
      FilesLive (exec vfsStep vfsInit (serialSteps openSerial)) :=
  have henv : ∀ c ∈ openSerial, c.2.2.Serial := by decide
  ⟨henv, serialSteps_keep_refs openSerial henv⟩

end Vfs
