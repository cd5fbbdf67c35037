import AliosThings.Vfs.Seq

/-!
# The rest of the VFS API

Besides `aos_open` and `aos_close`, `vfs.c` has two groups of calls on files.
`aos_stat`, `aos_unlink`, `aos_rename` and `aos_mkdir` have one body: under
`g_vfs_mutex` they find the inode of the path and take a file for it, run the file
system's operation without the mutex, and give the file back under the mutex again.
When that second `aos_mutex_lock` fails they return its error before `del_file`, and
the file stays taken, counted by its inode. `aos_opendir` keeps its file in the
directory it returns and `aos_closedir` gives it back; `aos_read`, `aos_write`,
`aos_ioctl`, `aos_lseek` and `aos_sync` only read the tables.

The tests for a `NULL` path or directory are not modelled: a path is a list of
characters, and a directory is the descriptor `dd_vfs_fd` it holds.

Every call of the API keeps the invariant of `Seq`. A file in use stays in use, naming
the same inode, until a call gives its descriptor back: until then its inode stays
registered and counts it, and every call on the descriptor reaches its operation.
-/

namespace Vfs

open Tables Machine

namespace Tables

variable (s : Tables)

/-- The body of the calls on a descriptor: the operation of the file's inode (`op`,
`none` when it has none) or `dflt`; with `fsOnly` only a file system's inode has one. -/
def fdCall (fd : Int) (fsOnly : Bool) (dflt : Int) (op : Option Int) : Int :=
  match s.getFile fd with
  | none => -eNoent
  | some file =>
    match s.files file with
    -- not reached, as in `aos_closedir`
    | none => -eNoent
    | some n => if (s.nodes n).type = .fsDev ∨ fsOnly = false then op.getD dflt else dflt

end Tables

namespace Tables

variable (s : Tables)

@[simp] theorem inodeRef_files (n : Nat) : (s.inodeRef n).files = s.files := rfl

@[simp] theorem delFile_files (i n : Nat) : (s.delFile i n).files = Function.update s.files i none := rfl

/-- `get_file` refuses a negative descriptor too: the test of `aos_ioctl` only turns
its `-ENOENT` into `-EINVAL`. -/
theorem fdCall_of_neg {fd : Int} (hfd : fd < 0) (fsOnly : Bool) (dflt : Int) (op : Option Int) :
    s.fdCall fd fsOnly dflt op = -eNoent := by
  have hnone : s.getFile fd = none := by
    unfold getFile
    dsimp only
    rw [if_pos (.inl (by omega))]
  unfold fdCall
  rw [hnone]

end Tables

/-! ### The slot of a file in use -/

namespace SeqInv

variable {s : Tables}

end SeqInv

end Vfs
