import AliosThings.Vfs.Inode
import AliosThings.Vfs.Refs

/-!
# The VFS calls one at a time, with their failure paths

With no other task running, each of `aos_register_driver`, `aos_register_fs`,
`aos_unregister_driver`, `aos_unregister_fs`, `aos_open` and `aos_close` is one function
of the tables. What the world answers inside a call is an argument: the results of
`aos_mutex_lock`, `aos_mutex_unlock` and `aos_mutex_new`, whether `aos_malloc`
succeeds, and what the `open` or `close` of the driver or file system returns.

The registrations leave a failure behind in two ways. `aos_register_driver` names and
types the inode before `aos_mutex_new`, and returns that call's error without undoing
either. And when `aos_mutex_unlock` fails, the cleanup reads `node->i_name` through a
`node` that is still `NULL` if `inode_reserve` failed. `aos_close` stores the status of
the inode's `close` in `ret` and then overwrites `ret` with the result of the lock, so it
returns `0` after a failed `close`; when the lock fails it returns without giving the
descriptor back.
-/

namespace Vfs

/-- What the world answers during one call: `aos_mutex_lock`, `aos_mutex_unlock` and
`aos_mutex_new` (`0` on success), `aos_malloc`, and the `open` or `close` of the driver
or file system (`VFS_SUCCESS` also when it has none). -/
structure CallEnv where
  lock : Int
  unlock : Int
  mutexNew : Int
  mallocOk : Bool
  op : Int
  deriving DecidableEq, Repr

namespace Tables

variable (s : Tables)

/-- `inode_ref`; `refs` is a `uint8_t`. -/
def inodeRef (n : Nat) : Tables :=
  s.setNode n fun x => { x with refs := (x.refs + 1) % 256 }

/-- `inode_unref`. -/
def inodeUnref (n : Nat) : Tables :=
  s.setNode n fun x => { x with refs := if x.refs > 0 then x.refs - 1 else x.refs }

/-- `new_file(node)`: the first free slot names the inode, which counts it. -/
def newFile (n : Nat) : Option (Tables × Nat) :=
  s.newFileSlot.map fun i => ((s.setFile i (some n)).inodeRef n, i)

/-- `del_file(file)` for a file that names inode `n`. -/
def delFile (file n : Nat) : Tables :=
  (s.inodeUnref n).setFile file none

/-- The body of `aos_register_driver` and `aos_register_fs`: they differ in the type
they give the inode and in the status once it is populated, which is what
`aos_mutex_new` returns for a driver and success for a file system. `none` is the
`NULL` dereference of the cleanup after a failed unlock when `inode_reserve` failed. -/
def registerCall (path : List Char) (type : VfsType) (populated : Int) (env : CallEnv) :
    Option (Tables × Int) :=
  if env.lock ≠ 0 then some (s, env.lock)
  else
    match s.inodeReserve path env.mallocOk with
    | .error ret => if env.unlock ≠ 0 then none else some (s, ret)
    | .ok (s', n) =>
      let s' := s'.setNode n fun x => { x with type := type }
      -- the cleanup frees the name and clears the whole inode
      if env.unlock ≠ 0 then some (s'.setNode n fun _ => .empty, env.unlock) else some (s', populated)

/-- `aos_register_driver`: `INODE_SET_CHAR`, then `ret = aos_mutex_new(&node->mutex)`. -/
def aosRegisterDriver (path : List Char) (env : CallEnv) : Option (Tables × Int) :=
  s.registerCall path .charDev env.mutexNew env

/-- `aos_register_fs`: `INODE_SET_FS`, and `ret` stays `VFS_SUCCESS`. -/
def aosRegisterFs (path : List Char) (env : CallEnv) : Option (Tables × Int) :=
  s.registerCall path .fsDev vfsSuccess env

/-- `aos_unregister_driver` and `aos_unregister_fs`, the same code: the release stands
when the unlock fails. -/
def aosUnregister (path : List Char) (env : CallEnv) : Tables × Int :=
  if env.lock ≠ 0 then (s, env.lock)
  else
    let (s', ret) : Tables × Int :=
      match s.inodeRelease path with
      | .error e => (s, e)
      | .ok s' => (s', vfsSuccess)
    if env.unlock ≠ 0 then (s', env.unlock) else (s', ret)

def aosUnregisterDriver (path : List Char) (env : CallEnv) : Tables × Int :=
  s.aosUnregister path env

def aosUnregisterFs (path : List Char) (env : CallEnv) : Tables × Int :=
  s.aosUnregister path env

/-- `aos_open`; the result of `aos_mutex_unlock` is not read. -/
def aosOpen (path : List Char) (flags : Int) (env : CallEnv) : Tables × Int :=
  if path.length > pathMax then (s, -eNametoolong)
  else if env.lock ≠ 0 then (s, env.lock)
  else
    match s.inodeOpen path with
    | none => (s, -eNoent)
    | some n =>
      let s := s.setNode n fun x => { x with flags := flags }
      match s.newFile n with
      | none => (s, -eNfile)
      | some (s, file) => if env.op ≠ vfsSuccess then (s.delFile file n, env.op) else (s, getFd file)

/-- `aos_close`. `ret` holds the status of the inode's `close` (`env.op`) until
`ret = aos_mutex_lock(...)` overwrites it, so that status is never returned. -/
def aosClose (fd : Int) (env : CallEnv) : Tables × Int :=
  match s.getFile fd with
  | none => (s, -eNoent)
  | some file =>
    match s.files file with
    -- not reached: `get_file` returns only a file with an inode
    | none => (s, -eNoent)
    | some n => if env.lock ≠ 0 then (s, env.lock) else (s.delFile file n, env.lock)

/-! ### The registrations -/

theorem inodeReserve_ok {path : List Char} {n : Nat} (hpath : path.head? = some '/')
    (halloc : s.inodeAlloc = some n) :
    s.inodeReserve path true = .ok (s.setNode n fun x => { x with name := some path }, n) := by
  unfold inodeReserve
  rw [if_neg (not_not.mpr hpath), halloc]
  rfl

theorem inodeReserve_error_of_head {path : List Char} (ok : Bool) (hpath : path.head? ≠ some '/') :
    s.inodeReserve path ok = .error (-eInval) := by
  unfold inodeReserve
  rw [if_pos hpath]

/-- A failed registration that returns leaves the table as it was, except after a
failed unlock (the inode is cleared) and after a driver's failed `aos_mutex_new`. -/
theorem registerCall_eq_of_reserve_error {path : List Char} {type : VfsType} {populated : Int}
    {env : CallEnv} {e : Int} (hlock : env.lock = 0) (hres : s.inodeReserve path env.mallocOk = .error e) :
    s.registerCall path type populated env = if env.unlock ≠ 0 then none else some (s, e) := by
  unfold registerCall
  rw [if_neg (not_not.mpr hlock), hres]

theorem registerCall_eq_of_reserve_ok {path : List Char} {type : VfsType} {populated : Int}
    {env : CallEnv} {s' : Tables} {n : Nat} (hlock : env.lock = 0) (hunlock : env.unlock = 0)
    (hres : s.inodeReserve path env.mallocOk = .ok (s', n)) :
    s.registerCall path type populated env = some (s'.setNode n fun x => { x with type := type }, populated) := by
  unfold registerCall
  rw [if_neg (not_not.mpr hlock), hres]
  simp only [hunlock, ne_eq, not_true_eq_false, if_false]

/-! ### `aos_close` -/

theorem getFile_files {fd : Int} {file : Nat} (h : s.getFile fd = some file) : ∃ n, s.files file = some n := by
  unfold getFile at h
  dsimp only at h
  split at h
  · cases h
  · split at h
    · cases h
    · next hnone =>
      cases h
      exact Option.ne_none_iff_exists'.mp hnone

theorem aosClose_eq {fd : Int} {file n : Nat} (env : CallEnv) (hfile : s.getFile fd = some file)
    (hnode : s.files file = some n) :
    s.aosClose fd env = if env.lock ≠ 0 then (s, env.lock) else (s.delFile file n, env.lock) := by
  unfold aosClose
  rw [hfile]
  dsimp only
  rw [hnode]

/-! ### The interleaved model -/

/-- When every lock and unlock succeeds and the status once populated is success, a
registration is the one step `register` of the interleaved model. -/
theorem registerCall_refines (t : Nat) {path : List Char} {type : VfsType} {env : CallEnv}
    (hlock : env.lock = 0) (hunlock : env.unlock = 0) (hmay : s.mayLock t = true) :
    (s.registerCall path type vfsSuccess env).map (fun p => (p.1, some p.2)) =
      some (s.register t path type env.mallocOk) := by
  unfold registerCall register
  rw [if_neg (not_not.mpr hlock), if_neg (not_not.mpr hmay)]
  cases s.inodeReserve path env.mallocOk with
  | error e => simp [hunlock]
  | ok r => simp [hunlock]

end Tables

open Tables

/-- Every lock, unlock, allocation and operation succeeds. -/
def CallEnv.allOk : CallEnv := ⟨0, 0, 0, true, vfsSuccess⟩

/-- `aos_mutex_new` runs out of memory, and the rest succeeds. -/
def mutexNewNomem : CallEnv := { CallEnv.allOk with mutexNew := -eNomem }

/-- `/dev/x` registered while `aos_mutex_new` fails, then registered again. -/
def registerTwice : Option (Tables × Int) :=
  (vfsInit.aosRegisterDriver devX mutexNewNomem).bind fun p => p.1.aosRegisterDriver devX CallEnv.allOk

theorem registerTwice_opens_first :
    registerTwice.map (fun p => (p.2, p.1.inodeOpen devX, (p.1.nodes 1).name)) = some (vfsSuccess, some 0, some devX) := by
  decide

/-- A driver registration whose `aos_mutex_new` fails returns its error and leaves the
inode named and typed; a registration whose unlock fails after `inode_reserve` failed
dereferences `NULL`; the same path registered again succeeds, but `inode_open` finds
the first inode. `aos_close` returns `0` after a failed `close`, and the error of a
failed lock without giving the descriptor back. -/
theorem aosRegisterDriver_failure_leaves_inode :
    (∀ (s : Tables) path env n, env.lock = 0 → env.unlock = 0 → env.mallocOk = true →
      path.head? = some '/' → s.inodeAlloc = some n → env.mutexNew ≠ 0 →
      ∃ s', s.aosRegisterDriver path env = some (s', env.mutexNew) ∧
        (s'.nodes n).name = some path ∧ (s'.nodes n).type = .charDev) ∧
    (∀ (s : Tables) path env, env.lock = 0 → env.unlock ≠ 0 → path.head? ≠ some '/' →
      s.aosRegisterDriver path env = none ∧ s.aosRegisterFs path env = none) ∧
    registerTwice.map (fun p => (p.2, p.1.inodeOpen devX, (p.1.nodes 1).name)) = some (vfsSuccess, some 0, some devX) ∧
    (∀ (s : Tables) fd env file n, s.getFile fd = some file → s.files file = some n → env.op ≠ vfsSuccess →
      env.lock = 0 → s.aosClose fd env = (s.delFile file n, 0)) ∧
    (∀ (s : Tables) fd env file, s.getFile fd = some file → env.lock ≠ 0 → s.aosClose fd env = (s, env.lock)) := by
  refine ⟨?_, ?_, registerTwice_opens_first, ?_, ?_⟩
  · intro s path env n hlock hunlock hmalloc hpath halloc _
    have hres := s.inodeReserve_ok hpath halloc
    rw [← hmalloc] at hres
    refine ⟨_, s.registerCall_eq_of_reserve_ok hlock hunlock hres, ?_, ?_⟩ <;> simp [setNode]
  · intro s path env hlock hunlock hpath
    have hres := s.inodeReserve_error_of_head env.mallocOk hpath
    exact ⟨by rw [aosRegisterDriver, s.registerCall_eq_of_reserve_error hlock hres, if_pos hunlock],
      by rw [aosRegisterFs, s.registerCall_eq_of_reserve_error hlock hres, if_pos hunlock]⟩
  · intro s fd env file n hfile hnode _ hlock
    rw [s.aosClose_eq env hfile hnode, if_neg (not_not.mpr hlock), hlock]
  · intro s fd env file hfile hlock
    obtain ⟨n, hnode⟩ := s.getFile_files hfile
    rw [s.aosClose_eq env hfile hnode, if_pos hlock]

theorem aosRegisterDriver_failure_leaves_inode_init :
    ∃ s', vfsInit.aosRegisterDriver devX mutexNewNomem = some (s', -eNomem) ∧
      (s'.nodes 0).name = some devX ∧ (s'.nodes 0).type = .charDev :=
  aosRegisterDriver_failure_leaves_inode.1 vfsInit devX mutexNewNomem 0 rfl rfl rfl rfl (by decide) (by decide)

end Vfs
