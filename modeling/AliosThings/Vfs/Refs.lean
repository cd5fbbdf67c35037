import AliosThings.Vfs.Tables

/-!
# Reference counts of the VFS under interleaved calls

When no call is in progress, the tables should agree: each inode counts the files
that name it, and every file names a registered inode, so that `inode_del` refuses
an inode with open files. The failure path of `aos_open` breaks the first fact: its
`del_file` runs without `g_vfs_mutex`, and its load and store of `refs` can straddle
the `inode_ref` of another `aos_open` of the same inode, whose increment is then lost.
`aos_unregister_driver` afterwards finds `refs == 0` and releases the inode under the
other task's open file.
-/

namespace Vfs

open Tables Machine

/-- The number of files that name inode `n`. -/
def fileCount (s : Tables) (n : Nat) : Nat :=
  ((List.range maxFileNum).filter fun i => s.files i == some n).length

/-- Every inode counts its files. -/
def RefsExact (s : Tables) : Prop :=
  ∀ n < aosConfigVfsDevNodes, (s.nodes n).refs = fileCount s n

/-- Every file in use names a registered inode. -/
def FilesLive (s : Tables) : Prop :=
  ∀ i < maxFileNum, ∀ n ∈ s.files i, (s.nodes n).type ≠ .notInit

/-- No call is in progress. -/
def Quiescent (s : Tables) : Prop := ∀ t, s.tasks t = .idle

instance (s : Tables) : Decidable (RefsExact s) :=
  inferInstanceAs (Decidable (∀ n < aosConfigVfsDevNodes, _))

instance (s : Tables) : Decidable (FilesLive s) :=
  inferInstanceAs (Decidable (∀ i < maxFileNum, ∀ n ∈ s.files i, _))

/-! ## A step moves only its own task -/

namespace Tables

variable (s : Tables)

@[simp] theorem setNode_tasks (n : Nat) (f : Inode → Inode) : (s.setNode n f).tasks = s.tasks := rfl

@[simp] theorem setFile_tasks (i : Nat) (n : Option Nat) : (s.setFile i n).tasks = s.tasks := rfl

theorem setTask_tasks_ne {t u : Nat} (pc : Pc) (hne : u ≠ t) : (s.setTask t pc).tasks u = s.tasks u := by
  simp [setTask, hne]

theorem inodeReserve_tasks {path : List Char} {ok : Bool} {s' : Tables} {e : Nat}
    (h : s.inodeReserve path ok = .ok (s', e)) : s'.tasks = s.tasks := by
  unfold inodeReserve at h
  split at h
  · cases h
  · split at h
    · cases h
    · split at h
      · cases h
        rfl
      · cases h

theorem inodeRelease_tasks {path : List Char} {s' : Tables} (h : s.inodeRelease path = .ok s') :
    s'.tasks = s.tasks := by
  unfold inodeRelease inodeDel at h
  split at h
  · cases h
  · split at h
    · cases h
    · cases h
      rfl

theorem register_tasks (t : Nat) (path : List Char) (type : VfsType) (ok : Bool) :
    (s.register t path type ok).1.tasks = s.tasks := by
  unfold register
  split
  · rfl
  · split
    · rfl
    · next s' e h => exact (setNode_tasks _ _ _).trans (inodeReserve_tasks s h)

theorem unregister_tasks (t : Nat) (path : List Char) : (s.unregister t path).1.tasks = s.tasks := by
  unfold unregister
  split
  · rfl
  · split
    · rfl
    · next s' h => exact inodeRelease_tasks s h

@[simp] theorem unrefStore_tasks (file n v : Nat) : (s.unrefStore file n v).tasks = s.tasks := by
  unfold unrefStore
  split <;> rfl

variable {s} {t u : Nat}

theorem openStart_tasks_ne (path : List Char) (flags : Int) (hne : u ≠ t) :
    (s.openStart t path flags).1.tasks u = s.tasks u := by
  unfold openStart
  split
  · rfl
  · split
    · rfl
    · split
      · rfl
      · dsimp only
        split
        · rfl
        · exact setTask_tasks_ne _ _ hne

theorem openOpReturns_tasks_ne (file : Nat) (ret : Int) (hne : u ≠ t) :
    (s.openOpReturns t file ret).1.tasks u = s.tasks u := by
  unfold openOpReturns
  split
  · exact setTask_tasks_ne _ _ hne
  · split
    · rfl
    · exact setTask_tasks_ne _ _ hne

theorem closeStart_tasks_ne (fd : Int) (hne : u ≠ t) : (s.closeStart t fd).1.tasks u = s.tasks u := by
  unfold closeStart
  split
  · rfl
  · exact setTask_tasks_ne _ _ hne

theorem closeLockTake_tasks_ne (file : Nat) (hne : u ≠ t) : (s.closeLockTake t file).tasks u = s.tasks u := by
  unfold closeLockTake
  split
  · rfl
  · split
    · rfl
    · exact setTask_tasks_ne _ _ hne

end Tables

/-- A step of task `t` leaves every other task where it stands. -/
theorem vfsStep_tasks_ne (s : Tables) {t u : Nat} (st : Step) (hne : u ≠ t) :
    (vfsStep s (t, st)).1.tasks u = s.tasks u := by
  cases st with
  | registerDriver path ok | registerFs path ok =>
    simp only [vfsStep]
    split
    · rw [register_tasks]
    · rfl
  | unregisterDriver path | unregisterFs path =>
    simp only [vfsStep]
    split
    · rw [unregister_tasks]
    · rfl
  | aosOpen path flags =>
    simp only [vfsStep]
    split
    · exact openStart_tasks_ne path flags hne
    · rfl
  | aosClose fd =>
    simp only [vfsStep]
    split
    · exact closeStart_tasks_ne fd hne
    · rfl
  | resume ret =>
    simp only [vfsStep]
    split
    · rfl
    · exact setTask_tasks_ne _ _ hne
    · exact openOpReturns_tasks_ne _ ret hne
    · exact (setTask_tasks_ne _ _ hne).trans (congrFun (unrefStore_tasks s _ _ _) u)
    · exact closeLockTake_tasks_ne _ hne
    · next file n v _ => exact (setTask_tasks_ne _ _ hne).trans (congrFun (unrefStore_tasks s file n v) u)

/-- A run leaves every task it does not schedule where it stands. -/
theorem exec_tasks_of_not_mem (s : Tables) (u : Nat) :
    ∀ {cs : List (Nat × Step)}, (∀ c ∈ cs, c.1 ≠ u) → (exec vfsStep s cs).tasks u = s.tasks u := by
  intro cs
  induction cs generalizing s with
  | nil => intro _; rfl
  | cons c cs ih =>
    intro hcs
    rw [exec_cons, ih _ fun d hd => hcs d (by simp [hd])]
    exact vfsStep_tasks_ne s c.2 (hcs c (by simp)).symm

/-! ## The lost increment -/

def devX : List Char := "/dev/x".toList

/-- Task `0` registers a driver at `/dev/x`; tasks `1` and `2` open it. The `open` of
the driver fails for task `1` and succeeds for task `2`; task `1` loads `refs` in its
`del_file`, and stores it back only after task `2` has counted its file. -/
def openRace : List (Nat × Step) :=
  [(0, .registerDriver devX true),
   (1, .aosOpen devX 0), (1, .resume 0), (1, .resume (-5)),
   (2, .aosOpen devX 0), (2, .resume 0), (2, .resume 0),
   (1, .resume 0)]

/-- A run of tasks `0`, `1` and `2` from `vfs_init` ends quiescent when these three end
idle. -/
theorem quiescent_of_three {cs : List (Nat × Step)} (hcs : ∀ c ∈ cs, c.1 < 3)
    (h0 : (exec vfsStep vfsInit cs).tasks 0 = .idle) (h1 : (exec vfsStep vfsInit cs).tasks 1 = .idle)
    (h2 : (exec vfsStep vfsInit cs).tasks 2 = .idle) : Quiescent (exec vfsStep vfsInit cs) := by
  intro u
  by_cases hu : u < 3
  · interval_cases u
    · exact h0
    · exact h1
    · exact h2
  · rw [exec_tasks_of_not_mem _ u fun c hc => by have := hcs c hc; omega]
    rfl

/-- After the run, no call is in progress and the descriptor `65` of task `2` names a
file, yet the inode of `/dev/x` counts no file; `aos_unregister_driver` then succeeds
and leaves that file naming an inode of type `VFS_TYPE_NOT_INIT`. -/
theorem aosOpen_failure_race_loses_ref :
    Quiescent (exec vfsStep vfsInit openRace) ∧
      (exec vfsStep vfsInit openRace).getFile 65 = some 1 ∧
      ¬ RefsExact (exec vfsStep vfsInit openRace) ∧
      replies vfsStep (exec vfsStep vfsInit openRace) [(0, .unregisterDriver devX)] = [some vfsSuccess] ∧
      Quiescent (exec vfsStep vfsInit (openRace ++ [(0, .unregisterDriver devX)])) ∧
      ¬ FilesLive (exec vfsStep vfsInit (openRace ++ [(0, .unregisterDriver devX)])) := by
  refine ⟨quiescent_of_three (by decide) (by decide) (by decide) (by decide), by decide, by decide,
    by decide, quiescent_of_three (by decide) (by decide) (by decide) (by decide), by decide⟩

end Vfs
