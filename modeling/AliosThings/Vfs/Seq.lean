import AliosThings.Lib.Slots
import AliosThings.Vfs.Calls

/-!
# The VFS calls in sequence

When the calls of the VFS come one at a time, each is one function of the tables
(`Calls`), and a run is a list of calls with what the world answers in each. Between
two calls the tables keep four facts: every inode counts its files, every file names a
registered inode of the table, and every named inode is registered. Every call keeps
them, whatever the answers: a failed lock, a failed unlock, a failed `aos_malloc`, the
leak of a failed `aos_mutex_new`, a failed `open`. So `aos_unregister_driver` never
releases an inode under an open file, and `refs` never wraps.

On such a state `aos_open` either returns the descriptor of a free slot, which then
names the inode and is counted by it, or leaves `files[]` and every `refs` as they
were: on its failure path `del_file` takes back exactly what `new_file` did, because
the count it decrements stays far below `255`.
-/

namespace Vfs

open Tables Machine

/-- A call of the VFS API. -/
inductive Call where
  | aosRegisterDriver (path : List Char)
  | aosRegisterFs (path : List Char)
  | aosUnregisterDriver (path : List Char)
  | aosUnregisterFs (path : List Char)
  | aosOpen (path : List Char) (flags : Int)
  | aosClose (fd : Int)
  deriving DecidableEq, Repr

/-- One call with what the world answers during it, when no other task runs, and what
it returns. `none` is a system stopped by the `NULL` dereference of a registration. -/
def callStep : Option Tables → Call × CallEnv → Option Tables × Option Int
  | none, _ => (none, none)
  | some s, (.aosRegisterDriver path, env) =>
    ((s.aosRegisterDriver path env).map Prod.fst, (s.aosRegisterDriver path env).map Prod.snd)
  | some s, (.aosRegisterFs path, env) =>
    ((s.aosRegisterFs path env).map Prod.fst, (s.aosRegisterFs path env).map Prod.snd)
  | some s, (.aosUnregisterDriver path, env) =>
    (some (s.aosUnregisterDriver path env).1, some (s.aosUnregisterDriver path env).2)
  | some s, (.aosUnregisterFs path, env) =>
    (some (s.aosUnregisterFs path env).1, some (s.aosUnregisterFs path env).2)
  | some s, (.aosOpen path flags, env) =>
    (some (s.aosOpen path flags env).1, some (s.aosOpen path flags env).2)
  | some s, (.aosClose fd, env) => (some (s.aosClose fd env).1, some (s.aosClose fd env).2)

/-- What the tables keep between two calls. -/
structure SeqInv (s : Tables) : Prop where
  refs : RefsExact s
  live : FilesLive s
  /-- A named inode is registered. -/
  named : ∀ n < aosConfigVfsDevNodes, (s.nodes n).name ≠ none → (s.nodes n).type ≠ .notInit
  /-- A file names an inode of the table. -/
  bound : ∀ i < maxFileNum, ∀ n ∈ s.files i, n < aosConfigVfsDevNodes

/-! ### The updates of the tables -/

namespace Tables

variable (s : Tables)

@[simp] theorem setNode_files (n : Nat) (f : Inode → Inode) : (s.setNode n f).files = s.files := rfl

@[simp] theorem setFile_nodes (i : Nat) (v : Option Nat) : (s.setFile i v).nodes = s.nodes := rfl

@[simp] theorem setFile_files (i : Nat) (v : Option Nat) :
    (s.setFile i v).files = Function.update s.files i v := rfl

theorem setNode_nodes (n : Nat) (f : Inode → Inode) (m : Nat) :
    (s.setNode n f).nodes m = if m = n then f (s.nodes n) else s.nodes m :=
  Function.update_apply s.nodes n _ m

theorem setNode_setNode (n : Nat) (f g : Inode → Inode) :
    (s.setNode n f).setNode n g = s.setNode n fun x => g (f x) := by
  simp only [setNode, Function.update_self, Function.update_idem]

theorem fileCount_setNode (n : Nat) (f : Inode → Inode) (m : Nat) :
    fileCount (s.setNode n f) m = fileCount s m := rfl

/-- A file slot below `maxFileNum` that changes takes its old inode's count down and
its new inode's count up. -/
theorem fileCount_setFile {i : Nat} (hi : i < maxFileNum) (v : Option Nat) (m : Nat) :
    fileCount (s.setFile i v) m + (if s.files i = some m then 1 else 0) =
      fileCount s m + if v = some m then 1 else 0 :=
  Slots.count_update s.files hi v (some m)

theorem fileCount_le (n : Nat) : fileCount s n ≤ maxFileNum :=
  Slots.count_le s.files maxFileNum (some n)

theorem fileCount_pos {i n : Nat} (hi : i < maxFileNum) (h : s.files i = some n) : 0 < fileCount s n :=
  Slots.count_pos hi h

theorem inodeReserve_eq_ok {path : List Char} {ok : Bool} {s' : Tables} {n : Nat}
    (h : s.inodeReserve path ok = .ok (s', n)) :
    s.inodeAlloc = some n ∧ s' = s.setNode n fun x => { x with name := some path } := by
  unfold inodeReserve at h
  split at h
  · cases h
  · split at h
    · cases h
    · next e halloc =>
      split at h
      · cases h
        exact ⟨halloc, rfl⟩
      · cases h

theorem inodeRelease_eq_ok {path : List Char} {s' : Tables} (h : s.inodeRelease path = .ok s') :
    ∃ n, s.inodeOpen path = some n ∧ (s.nodes n).refs = 0 ∧
      s' = s.setNode n fun x => { x with name := none, flags := 0, type := .notInit } := by
  unfold inodeRelease at h
  split at h
  · cases h
  · next n hopen =>
    unfold inodeDel at h
    split at h
    · cases h
    · next hrefs =>
      cases h
      exact ⟨n, hopen, by omega, rfl⟩

theorem newFile_eq_some {n i : Nat} {s' : Tables} (h : s.newFile n = some (s', i)) :
    i < maxFileNum ∧ s.files i = none ∧ s' = (s.setFile i (some n)).inodeRef n := by
  unfold newFile newFileSlot at h
  obtain ⟨i', hfind, heq⟩ := Option.map_eq_some_iff.mp h
  cases heq
  obtain ⟨hnone, hmem, -⟩ := List.find?_range_eq_some.mp hfind
  exact ⟨List.mem_range.mp hmem, by simpa using hnone, rfl⟩

theorem getFile_lt {fd : Int} {file : Nat} (h : s.getFile fd = some file) : file < maxFileNum := by
  unfold getFile at h
  dsimp only at h
  split at h
  · cases h
  · next hrange =>
    split at h
    · cases h
    · cases h
      omega

/-- A registration that returns leaves the tables as they were, or changes one free
inode: it names and types it, or it clears it again. -/
theorem registerCall_eq_some {path : List Char} {type : VfsType} {populated : Int} {env : CallEnv}
    {s' : Tables} {r : Int} (h : s.registerCall path type populated env = some (s', r)) :
    s' = s ∨ ∃ n, s.inodeAlloc = some n ∧
      (s' = s.setNode n (fun x => { x with name := some path, type := type }) ∨
        s' = s.setNode n fun _ => .empty) := by
  unfold registerCall at h
  split at h
  · cases h
    exact .inl rfl
  · split at h
    · split at h
      · cases h
      · cases h
        exact .inl rfl
    · next s₁ n hres =>
      obtain ⟨halloc, rfl⟩ := s.inodeReserve_eq_ok hres
      rw [setNode_setNode] at h
      split at h
      · cases h
        exact .inr ⟨n, halloc, .inr (by rw [setNode_setNode])⟩
      · cases h
        exact .inr ⟨n, halloc, .inl rfl⟩

/-- An unregistration leaves the tables as they were, or as `inode_release` leaves them,
whatever the unlock returns. -/
theorem aosUnregister_cases (path : List Char) (env : CallEnv) :
    (s.aosUnregister path env).1 = s ∨ ∃ s', s.inodeRelease path = .ok s' ∧ (s.aosUnregister path env).1 = s' := by
  unfold aosUnregister
  split
  · exact .inl rfl
  · cases hrelease : s.inodeRelease path with
    | error e => dsimp only; split <;> exact .inl rfl
    | ok s' => dsimp only; split <;> exact .inr ⟨s', rfl, rfl⟩

/-- `aos_open` leaves the tables as they were, sets the flags of the inode it finds, or
also makes a file in a free slot, which `del_file` takes back when the `open` fails. -/
theorem aosOpen_cases (path : List Char) (flags : Int) (env : CallEnv) :
    (s.aosOpen path flags env).1 = s ∨ ∃ n, s.inodeOpen path = some n ∧
      ((s.aosOpen path flags env).1 = s.setNode n (fun x => { x with flags := flags }) ∨
        ∃ i, i < maxFileNum ∧ s.files i = none ∧
          ((s.aosOpen path flags env).1 =
              ((s.setNode n fun x => { x with flags := flags }).setFile i (some n)).inodeRef n ∨
            (s.aosOpen path flags env).1 =
              (((s.setNode n fun x => { x with flags := flags }).setFile i (some n)).inodeRef n).delFile i n)) := by
  unfold aosOpen
  split
  · exact .inl rfl
  · split
    · exact .inl rfl
    · split
      · exact .inl rfl
      · next n hopen =>
        dsimp only
        split
        · exact .inr ⟨n, hopen, .inl rfl⟩
        · next s₂ file hnew =>
          obtain ⟨hfile, hslot, rfl⟩ := Tables.newFile_eq_some _ hnew
          refine .inr ⟨n, hopen, .inr ⟨file, hfile, hslot, ?_⟩⟩
          split
          · exact .inr rfl
          · exact .inl rfl

/-- `aos_close` leaves the tables as they were, or gives back the file of the descriptor. -/
theorem aosClose_cases (fd : Int) (env : CallEnv) :
    (s.aosClose fd env).1 = s ∨
      ∃ file n, s.getFile fd = some file ∧ s.files file = some n ∧ (s.aosClose fd env).1 = s.delFile file n := by
  cases hfile : s.getFile fd with
  | none =>
    unfold aosClose
    rw [hfile]
    exact .inl rfl
  | some file =>
    obtain ⟨n, hnode⟩ := s.getFile_files hfile
    rw [s.aosClose_eq env hfile hnode]
    split
    · exact .inl rfl
    · exact .inr ⟨file, n, rfl, hnode, rfl⟩

end Tables

/-! ### The invariant, call by call -/

namespace SeqInv

variable {s : Tables}

/-- A free inode counts no file. -/
theorem fileCount_free (hs : SeqInv s) {n : Nat} (hfree : (s.nodes n).type = .notInit) : fileCount s n = 0 := by
  refine Slots.count_eq_zero_iff.mpr fun i hi hfile => ?_
  exact hs.live i hi n hfile hfree

/-- Changing one inode of the table keeps the invariant when its count stays, a name
comes with a type, and it becomes free only without files. -/
theorem setNode (hs : SeqInv s) {n : Nat} {f : Inode → Inode} (hn : n < aosConfigVfsDevNodes)
    (hrefs : (f (s.nodes n)).refs = (s.nodes n).refs)
    (hnamed : (f (s.nodes n)).name ≠ none → (f (s.nodes n)).type ≠ .notInit)
    (hfree : (f (s.nodes n)).type = .notInit → fileCount s n = 0) : SeqInv (s.setNode n f) := by
  constructor
  · intro m hm
    rw [s.fileCount_setNode, s.setNode_nodes]
    split
    · next heq => subst heq; rw [hrefs]; exact hs.refs m hm
    · exact hs.refs m hm
  · intro i hi m hm
    rw [s.setNode_nodes]
    split
    · next heq =>
      subst heq
      intro hnot
      have hpos := s.fileCount_pos hi hm
      have hzero := hfree hnot
      omega
    · exact hs.live i hi m hm
  · intro m hm
    rw [s.setNode_nodes]
    split
    · next heq => subst heq; exact hnamed
    · exact hs.named m hm
  · exact hs.bound

/-- A free slot that names a registered inode, counted by `inode_ref`. -/
theorem newFile (hs : SeqInv s) {i n : Nat} (hi : i < maxFileNum) (hslot : s.files i = none)
    (hn : n < aosConfigVfsDevNodes) (hlive : (s.nodes n).type ≠ .notInit) :
    SeqInv ((s.setFile i (some n)).inodeRef n) := by
  constructor
  · intro m hm
    have hcount := s.fileCount_setFile hi (some n) m
    rw [hslot] at hcount
    simp only [inodeRef, fileCount_setNode, setNode_nodes, setFile_nodes]
    split
    · next heq =>
      subst heq
      -- the count was at most the number of slots, so the increment does not wrap
      have hle := s.fileCount_le m
      have hmax : maxFileNum + 1 < 256 := by decide
      simp only [reduceCtorEq, ↓reduceIte, Nat.add_zero] at hcount
      dsimp only
      rw [hs.refs m hm, Nat.mod_eq_of_lt (by omega)]
      omega
    · next hne =>
      simp only [reduceCtorEq, Option.some.injEq, Ne.symm hne, ↓reduceIte, Nat.add_zero] at hcount
      rw [hs.refs m hm, hcount]
  · intro j hj m hm
    simp only [inodeRef, setNode_files, setFile_files] at hm
    simp only [inodeRef, setNode_nodes, setFile_nodes]
    rw [Function.update_apply] at hm
    split at hm
    · cases hm
      split <;> exact hlive
    · split
      · next heq => subst heq; exact hlive
      · exact hs.live j hj m hm
  · intro m hm
    simp only [inodeRef, setNode_nodes, setFile_nodes]
    split
    · next heq => subst heq; exact hs.named m hm
    · exact hs.named m hm
  · intro j hj m hm
    simp only [inodeRef, setNode_files, setFile_files] at hm
    rw [Function.update_apply] at hm
    split at hm
    · cases hm
      exact hn
    · exact hs.bound j hj m hm

/-- `del_file` of a file in use. -/
theorem delFile (hs : SeqInv s) {i n : Nat} (hi : i < maxFileNum) (hfile : s.files i = some n) :
    SeqInv (s.delFile i n) := by
  have hn := hs.bound i hi n hfile
  constructor
  · intro m hm
    have hcount := (s.inodeUnref n).fileCount_setFile hi none m
    simp only [inodeUnref, setNode_files, hfile, fileCount_setNode] at hcount
    simp only [Tables.delFile, inodeUnref, setFile_nodes, setNode_nodes]
    split
    · next heq =>
      subst heq
      -- the file counted, so the count was positive and the decrement is exact
      have hpos := s.fileCount_pos hi hfile
      simp only [↓reduceIte, reduceCtorEq, Nat.add_zero] at hcount
      dsimp only
      rw [hs.refs m hm, if_pos hpos]
      omega
    · next hne =>
      simp only [reduceCtorEq, Option.some.injEq, Ne.symm hne, ↓reduceIte, Nat.add_zero] at hcount
      rw [hs.refs m hm, hcount]
  · intro j hj m hm
    simp only [Tables.delFile, inodeUnref, setFile_files, setNode_files] at hm
    simp only [Tables.delFile, inodeUnref, setFile_nodes, setNode_nodes]
    rw [Function.update_apply] at hm
    split at hm
    · cases hm
    · split
      · next heq => subst heq; exact hs.live j hj m hm
      · exact hs.live j hj m hm
  · intro m hm
    simp only [Tables.delFile, inodeUnref, setFile_nodes, setNode_nodes]
    split
    · next heq => subst heq; exact hs.named m hm
    · exact hs.named m hm
  · intro j hj m hm
    simp only [Tables.delFile, inodeUnref, setFile_files, setNode_files] at hm
    rw [Function.update_apply] at hm
    split at hm
    · cases hm
    · exact hs.bound j hj m hm

theorem registerCall (hs : SeqInv s) {path : List Char} {type : VfsType} {populated : Int} {env : CallEnv}
    (htype : type ≠ .notInit) {s' : Tables} {r : Int} (h : s.registerCall path type populated env = some (s', r)) :
    SeqInv s' := by
  rcases s.registerCall_eq_some h with rfl | ⟨n, halloc, rfl | rfl⟩
  · exact hs
  · obtain ⟨hn, hfree, -⟩ := s.inodeAlloc_eq_some_iff.mp halloc
    exact hs.setNode hn rfl (fun _ => htype) (fun h => absurd h htype)
  · obtain ⟨hn, hfree, -⟩ := s.inodeAlloc_eq_some_iff.mp halloc
    have hzero := hs.fileCount_free hfree
    exact hs.setNode hn (by rw [hs.refs n hn, hzero]; rfl) (fun h => absurd rfl h) (fun _ => hzero)

theorem aosUnregister (hs : SeqInv s) (path : List Char) (env : CallEnv) : SeqInv (s.aosUnregister path env).1 := by
  rcases s.aosUnregister_cases path env with h | ⟨s', hrelease, h⟩ <;> rw [h]
  · exact hs
  · -- `inode_del` frees only an inode that counts no file
    obtain ⟨n, hopen, hrefs, rfl⟩ := s.inodeRelease_eq_ok hrelease
    have hn := (s.inodeOpen_eq_some_iff.mp hopen).1
    have hzero : fileCount s n = 0 := by rw [← hs.refs n hn, hrefs]
    exact hs.setNode hn rfl (fun h => absurd rfl h) (fun _ => hzero)

/-- The inode `inode_open` finds is registered. -/
theorem live_of_inodeOpen (hs : SeqInv s) {path : List Char} {n : Nat} (hopen : s.inodeOpen path = some n) :
    n < aosConfigVfsDevNodes ∧ (s.nodes n).type ≠ .notInit := by
  obtain ⟨hn, ⟨name, hname, -⟩, -⟩ := s.inodeOpen_eq_some_iff.mp hopen
  exact ⟨hn, hs.named n hn (by rw [hname]; exact Option.some_ne_none name)⟩

theorem aosOpen (hs : SeqInv s) (path : List Char) (flags : Int) (env : CallEnv) :
    SeqInv (s.aosOpen path flags env).1 := by
  rcases s.aosOpen_cases path flags env with h | ⟨n, hopen, hmade⟩
  · rw [h]
    exact hs
  obtain ⟨hn, hlive⟩ := hs.live_of_inodeOpen hopen
  -- setting the flags keeps the invariant, and so does the file made next
  have hs₁ : SeqInv (s.setNode n fun x => { x with flags := flags }) :=
    hs.setNode hn rfl (hs.named n hn) (fun h => absurd h hlive)
  rcases hmade with h | ⟨i, hi, hslot, h | h⟩ <;> rw [h]
  · exact hs₁
  · exact hs₁.newFile hi hslot hn (by rwa [setNode_nodes, if_pos rfl])
  · exact (hs₁.newFile hi hslot hn (by rwa [setNode_nodes, if_pos rfl])).delFile hi (by simp [inodeRef])

theorem aosClose (hs : SeqInv s) (fd : Int) (env : CallEnv) : SeqInv (s.aosClose fd env).1 := by
  rcases s.aosClose_cases fd env with h | ⟨file, n, hfile, hnode, h⟩ <;> rw [h]
  · exact hs
  · exact hs.delFile (s.getFile_lt hfile) hnode

end SeqInv

theorem seqInv_vfsInit : SeqInv vfsInit := by
  constructor
  · intro n hn
    rfl
  · intro i hi n hn
    cases hn
  · intro n hn hname
    exact absurd rfl hname
  · intro i hi n hn
    cases hn

/-- Every call keeps the invariant, whatever the world answers. -/
theorem callStep_seqInv {s : Tables} (hs : SeqInv s) (c : Call × CallEnv) {s' : Tables}
    (h : (callStep (some s) c).1 = some s') : SeqInv s' := by
  obtain ⟨c, env⟩ := c
  cases c with
  | aosRegisterDriver path =>
    obtain ⟨⟨s'', r⟩, hcall, rfl⟩ := Option.map_eq_some_iff.mp h
    exact hs.registerCall (by decide) hcall
  | aosRegisterFs path =>
    obtain ⟨⟨s'', r⟩, hcall, rfl⟩ := Option.map_eq_some_iff.mp h
    exact hs.registerCall (by decide) hcall
  | aosUnregisterDriver path => cases h; exact hs.aosUnregister path env
  | aosUnregisterFs path => cases h; exact hs.aosUnregister path env
  | aosOpen path flags => cases h; exact hs.aosOpen path flags env
  | aosClose fd => cases h; exact hs.aosClose fd env


/-- A call changes the tables only through `setNode` and `setFile`, so what those keep,
every call keeps. -/
theorem callStep_closed (P : Tables → Prop) (hnode : ∀ s n f, P s → P (s.setNode n f))
    (hfile : ∀ s i v, P s → P (s.setFile i v)) {s s' : Tables} (hs : P s) (c : Call × CallEnv)
    (h : (callStep (some s) c).1 = some s') : P s' := by
  obtain ⟨c, env⟩ := c
  have hdel : ∀ s i n, P s → P (s.delFile i n) := fun s i n hs => hfile _ _ _ (hnode _ _ _ hs)
  have hreg : ∀ {path type populated s' r}, s.registerCall path type populated env = some (s', r) → P s' := by
    intro path type populated s' r hcall
    rcases s.registerCall_eq_some hcall with rfl | ⟨n, -, rfl | rfl⟩
    · exact hs
    · exact hnode _ _ _ hs
    · exact hnode _ _ _ hs
  have hunreg : ∀ path, P (s.aosUnregister path env).1 := by
    intro path
    rcases s.aosUnregister_cases path env with h | ⟨s', hrelease, h⟩ <;> rw [h]
    · exact hs
    · obtain ⟨n, -, -, rfl⟩ := s.inodeRelease_eq_ok hrelease
      exact hnode _ _ _ hs
  cases c with
  | aosRegisterDriver path =>
    obtain ⟨⟨s'', r⟩, hcall, rfl⟩ := Option.map_eq_some_iff.mp h
    exact hreg hcall
  | aosRegisterFs path =>
    obtain ⟨⟨s'', r⟩, hcall, rfl⟩ := Option.map_eq_some_iff.mp h
    exact hreg hcall
  | aosUnregisterDriver path => cases h; exact hunreg path
  | aosUnregisterFs path => cases h; exact hunreg path
  | aosOpen path flags =>
    cases h
    rcases s.aosOpen_cases path flags env with h | ⟨n, -, h | ⟨i, -, -, h | h⟩⟩ <;> rw [h]
    · exact hs
    · exact hnode _ _ _ hs
    · exact hnode _ _ _ (hfile _ _ _ (hnode _ _ _ hs))
    · exact hdel _ _ _ (hnode _ _ _ (hfile _ _ _ (hnode _ _ _ hs)))
  | aosClose fd =>
    cases h
    rcases s.aosClose_cases fd env with h | ⟨file, n, -, -, h⟩ <;> rw [h]
    · exact hs
    · exact hdel _ _ _ hs

/-! ### Whole runs -/

/-- Every state that a run of calls from `vfs_init` reaches keeps the invariant. -/
theorem seqInv_exec {cs : List (Call × CallEnv)} {s : Tables} (h : exec callStep (some vfsInit) cs = some s) :
    SeqInv s :=
  exec_invariant_some SeqInv (fun _ : Call × CallEnv => True) (fun _ => rfl)
    (fun _ c _ _ hs hc => callStep_seqInv hs c hc) seqInv_vfsInit (fun _ _ => trivial) h

/-- The calls of `openRace` one at a time: a driver registered at `/dev/x`, opened while
its `open` fails, and opened again. -/
def openSeq : List (Call × CallEnv) :=
  [(.aosRegisterDriver devX, .allOk), (.aosOpen devX 0, { CallEnv.allOk with op := -5 }), (.aosOpen devX 0, .allOk)]

end Vfs
