import AliosThings.Lib.Machine

/-!
# The inode and file tables of the VFS

`vfs_inode.c` keeps `AOS_CONFIG_VFS_DEV_NODES` inodes and `vfs_file.c` twice as many
files. A file in use names its inode, and the inode counts its files in `refs`.
`aos_open`, `aos_close` and the registration calls change both tables while they hold
`g_vfs_mutex`, except on one path: when the `open` of a driver or file system fails,
`aos_open` gives its file back with `del_file` after it has released the mutex.

A call is a sequence of atomic steps of one task, cut where another task can see the
difference: at the lock of `g_vfs_mutex`, and between the load and the store of `refs`
in `inode_ref` and `inode_unref` (a `uint8_t` read, changed in a register, and written
back). The `open` of a driver or file system returns what the scheduler chooses; its
`close` returns a status that `aos_close` overwrites, so it is not modelled. Paths are
C strings, never `NULL`.
-/

namespace Vfs

def aosConfigVfsDevNodes : Nat := 25
def maxFileNum : Nat := aosConfigVfsDevNodes * 2
def aosConfigVfsFdOffset : Nat := 64
def pathMax : Nat := 256

def vfsSuccess : Int := 0
def eNoent : Int := 2
def eNomem : Int := 12
def eBusy : Int := 16
def eNodev : Int := 19
def eInval : Int := 22
def eNfile : Int := 23
def eNametoolong : Int := 91

inductive VfsType where
  | notInit
  | charDev
  | blockDev
  | fsDev
  deriving DecidableEq, Repr

/-- `inode_t` without its operations, argument and device mutex, which no modelled
function reads. -/
structure Inode where
  name : Option (List Char)
  type : VfsType
  flags : Int
  refs : Nat
  deriving DecidableEq, Repr

/-- An inode as `inode_init` and `inode_del` leave it. -/
def Inode.empty : Inode := ⟨none, .notInit, 0, 0⟩

/-- Where the call of a task stands. -/
inductive Pc where
  | idle
  /-- `aos_open` holds the mutex inside `inode_ref`, with `refs` loaded. -/
  | openRef (file node v : Nat)
  /-- `aos_open` has released the mutex and calls the `open` of the inode. -/
  | openOp (file : Nat)
  /-- `del_file` on the failure path of `aos_open`, without the mutex, with `refs` loaded. -/
  | openUnref (file node v : Nat) (ret : Int)
  /-- `aos_close` has called the `close` of the inode and waits for the mutex. -/
  | closeLock (file : Nat)
  /-- `aos_close` holds the mutex inside `inode_unref`, with `refs` loaded. -/
  | closeUnref (file node v : Nat)
  deriving DecidableEq, Repr

/-- `g_vfs_dev_nodes`, `files[]` by the inode each one names, the holder of
`g_vfs_mutex`, and the calls in progress. -/
structure Tables where
  nodes : Nat → Inode
  files : Nat → Option Nat
  mutex : Option Nat
  tasks : Nat → Pc

/-- The tables after `vfs_init`. -/
def vfsInit : Tables := ⟨fun _ => .empty, fun _ => none, none, fun _ => .idle⟩

namespace Tables

variable (s : Tables)

def setNode (n : Nat) (f : Inode → Inode) : Tables :=
  { s with nodes := Function.update s.nodes n (f (s.nodes n)) }

def setFile (i : Nat) (n : Option Nat) : Tables :=
  { s with files := Function.update s.files i n }

def setTask (t : Nat) (pc : Pc) : Tables :=
  { s with tasks := Function.update s.tasks t pc }

/-- The mutex is free, or the task holds it. -/
def mayLock (t : Nat) : Bool := s.mutex.all (· == t)

/-! ## The tables of `vfs_inode.c` and `vfs_file.c` -/

/-- The path test of `inode_open`: a file system's inode takes the paths below its
name, any inode its own name. -/
def nameMatches (n : Inode) (path : List Char) : Bool :=
  match n.name with
  | none => false
  | some name =>
    (n.type == .fsDev && name.isPrefixOf path && path[name.length]? == some '/') || name == path

/-- `inode_open`: the first named inode that takes the path. -/
def inodeOpen (path : List Char) : Option Nat :=
  (List.range aosConfigVfsDevNodes).find? fun e => nameMatches (s.nodes e) path

/-- `inode_alloc`: the first inode of type `VFS_TYPE_NOT_INIT`. -/
def inodeAlloc : Option Nat :=
  (List.range aosConfigVfsDevNodes).find? fun e => (s.nodes e).type == .notInit

/-- `inode_reserve`: a rooted path gets a free inode with its name, unless `aos_malloc`
fails. -/
def inodeReserve (path : List Char) (mallocOk : Bool) : Except Int (Tables × Nat) :=
  if path.head? ≠ some '/' then .error (-eInval)
  else
    match s.inodeAlloc with
    | none => .error (-eNomem)
    | some e =>
      if mallocOk then .ok (s.setNode e fun n => { n with name := some path }, e)
      else .error (-eNomem)

/-- `inode_del`: an inode with files is busy; else it is cleared. -/
def inodeDel (n : Nat) : Except Int Tables :=
  if (s.nodes n).refs > 0 then .error (-eBusy)
  else .ok (s.setNode n fun x => { x with name := none, flags := 0, type := .notInit })

/-- `inode_release`. -/
def inodeRelease (path : List Char) : Except Int Tables :=
  match s.inodeOpen path with
  | none => .error (-eNodev)
  | some n => s.inodeDel n

/-- The slot `new_file` takes: the first file with no inode. -/
def newFileSlot : Option Nat :=
  (List.range maxFileNum).find? fun i => s.files i == none

/-- `get_file`: a descriptor names a file in use. -/
def getFile (fd : Int) : Option Nat :=
  let i := fd - aosConfigVfsFdOffset
  if i < 0 ∨ i ≥ maxFileNum then none
  else if s.files i.toNat = none then none else some i.toNat

/-- `get_fd`. -/
def getFd (file : Nat) : Int := file + aosConfigVfsFdOffset

/-! ## The steps of the calls -/

/-- `aos_register_driver` and `aos_register_fs`: the whole call holds the mutex and
touches no `refs`, so it is one step. -/
def register (t : Nat) (path : List Char) (type : VfsType) (mallocOk : Bool) :
    Tables × Option Int :=
  if ¬ s.mayLock t then (s, none)
  else
    match s.inodeReserve path mallocOk with
    | .error e => (s, some e)
    | .ok (s', e) => (s'.setNode e fun n => { n with type := type }, some vfsSuccess)

/-- `aos_unregister_driver` and `aos_unregister_fs`: one step under the mutex. -/
def unregister (t : Nat) (path : List Char) : Tables × Option Int :=
  if ¬ s.mayLock t then (s, none)
  else
    match s.inodeRelease path with
    | .error e => (s, some e)
    | .ok s' => (s', some vfsSuccess)

/-- `aos_open` up to the load of `refs` in `inode_ref`: the mutex, `inode_open`, the
flags, and the slot of `new_file`. -/
def openStart (t : Nat) (path : List Char) (flags : Int) : Tables × Option Int :=
  if path.length > pathMax then (s, some (-eNametoolong))
  else if ¬ s.mayLock t then (s, none)
  else
    match s.inodeOpen path with
    | none => (s, some (-eNoent))
    | some n =>
      let s := s.setNode n fun x => { x with flags := flags }
      match s.newFileSlot with
      | none => (s, some (-eNfile))
      | some i =>
        (({ s with mutex := some t } : Tables).setFile i (some n) |>.setTask t
          (.openRef i n (s.nodes n).refs), none)

/-- The store of `inode_ref`, and the unlock. -/
def openRefStore (t file n v : Nat) : Tables :=
  ({ s with mutex := none } : Tables).setNode n (fun x => { x with refs := (v + 1) % 256 })
    |>.setTask t (.openOp file)

/-- The `open` of the inode returns `ret`: the descriptor on success, else `del_file`
loads `refs` of the file's inode, without the mutex. -/
def openOpReturns (t file : Nat) (ret : Int) : Tables × Option Int :=
  if ret = vfsSuccess then (s.setTask t .idle, some (getFd file))
  else
    match s.files file with
    | none => (s, none)
    | some n => (s.setTask t (.openUnref file n (s.nodes n).refs ret), none)

/-- The store of `inode_unref` (which saturates at `0`), and the file given back. -/
def unrefStore (file n v : Nat) : Tables :=
  (if v > 0 then s.setNode n fun x => { x with refs := v - 1 } else s).setFile file none

/-- `aos_close` up to its lock: `get_file`, and the `close` of the inode. -/
def closeStart (t : Nat) (fd : Int) : Tables × Option Int :=
  match s.getFile fd with
  | none => (s, some (-eNoent))
  | some i => (s.setTask t (.closeLock i), none)

/-- The lock of `aos_close`, and the load of `inode_unref` in `del_file`. A file that
another task gave back meanwhile leaves `del_file` a `NULL` inode, where the model
stays. -/
def closeLockTake (t file : Nat) : Tables :=
  if ¬ s.mayLock t then s
  else
    match s.files file with
    | none => s
    | some n => ({ s with mutex := some t } : Tables).setTask t (.closeUnref file n (s.nodes n).refs)

end Tables

/-- What the scheduler lets a task do next. -/
inductive Step where
  | registerDriver (path : List Char) (mallocOk : Bool)
  | registerFs (path : List Char) (mallocOk : Bool)
  | unregisterDriver (path : List Char)
  | unregisterFs (path : List Char)
  | aosOpen (path : List Char) (flags : Int)
  | aosClose (fd : Int)
  /-- The next step of the call in progress; `ret` is what the `open` of a driver or
  file system returns, where that is the next step. -/
  | resume (ret : Int)
  deriving DecidableEq, Repr

open Tables in
/-- One step of task `t`, and the value its call returns when this step ends it. A new
call starts only on an idle task, and `resume` only continues one. -/
def vfsStep (s : Tables) : Nat × Step → Tables × Option Int
  | (t, .registerDriver path ok) =>
    if s.tasks t = .idle then s.register t path .charDev ok else (s, none)
  | (t, .registerFs path ok) =>
    if s.tasks t = .idle then s.register t path .fsDev ok else (s, none)
  | (t, .unregisterDriver path) | (t, .unregisterFs path) =>
    if s.tasks t = .idle then s.unregister t path else (s, none)
  | (t, .aosOpen path flags) => if s.tasks t = .idle then s.openStart t path flags else (s, none)
  | (t, .aosClose fd) => if s.tasks t = .idle then s.closeStart t fd else (s, none)
  | (t, .resume ret) =>
    match s.tasks t with
    | .idle => (s, none)
    | .openRef file n v => (s.openRefStore t file n v, none)
    | .openOp file => s.openOpReturns t file ret
    | .openUnref file n v r => ((s.unrefStore file n v).setTask t .idle, some r)
    | .closeLock file => (s.closeLockTake t file, none)
    | .closeUnref file n v =>
      (({ s.unrefStore file n v with mutex := none } : Tables).setTask t .idle, some vfsSuccess)

end Vfs
