import AliosThings.Kv.Mgr
import AliosThings.Lib.Machine

/-!
# The key-value store over whole runs

The store answers the calls of its users one at a time; the device may also start
again, with the flash as it was, and run `aos_kv_init` on a fresh `g_kv_mgr`. The
collector task `aos_kv_gc` runs after a call that started it, before the next call,
as `aos_kv_set` waits for it. A call that never returns (the search of
`kv_item_calc_pos` or the block loop of `aos_kv_gc` going round) leaves the store
stuck: it holds `kv_mutex`, and every later call waits on it. The API promises a
finite map from keys to values; `mapCall` is that map.
-/

namespace Kv

/-- A call on the store, or the device starting again. -/
inductive KvCall where
  | boot
  | set (key val : List UInt8)
  | get (key : List UInt8) (bufferLen : Nat)
  | del (key : List UInt8)
  deriving DecidableEq, Repr

/-- The answer to one call: the result and the value read, or nothing when the call
never returns. -/
abbrev KvReply := Option (KvRes × List UInt8)

/-- One call on the store. -/
def kvCall (blkNums : Nat) (m : KvMgr) : KvCall → Option (KvMgr × KvRes × List UInt8)
  | .boot => some ((aosKvInit blkNums (KvMgr.zero m.flash m.faults)).1,
      (aosKvInit blkNums (KvMgr.zero m.flash m.faults)).2, [])
  | .set key val => (aosKvSet blkNums m key val).map fun r => (r.1, r.2, [])
  | .get key bufferLen => some (aosKvGet blkNums m key bufferLen)
  | .del key => some ((aosKvDel blkNums m key).1, (aosKvDel blkNums m key).2, [])

/-- The collector, when a call has started it. -/
def kvCollect (blkNums : Nat) (m : KvMgr) : Option KvMgr :=
  if m.gcTriggered then aosKvGc blkNums m else some m

/-- The store as its users see it: `none` once a call has not returned. -/
def kvStep (blkNums : Nat) : Option KvMgr → KvCall → Option KvMgr × KvReply
  | none, _ => (none, none)
  | some m, c =>
    match kvCall blkNums m c with
    | none => (none, none)
    | some (m, r, v) => (kvCollect blkNums m, some (r, v))

/-- A store whose flash is erased everywhere, before it is started. -/
def kvBlank (faults : PlatformOp → List Bool) : KvMgr :=
  KvMgr.zero (fun _ => 0xFF) faults

/-! ### The map the API promises -/

/-- The contents a store should have: a value for some keys. -/
def KvMap : Type := List UInt8 → Option (List UInt8)

/-- The empty map. -/
def KvMap.empty : KvMap := fun _ => none

/-- The map answering one call as `aos_kv_set`, `aos_kv_get` and `aos_kv_del` describe
it. -/
def mapCall (s : KvMap) : KvCall → KvMap × KvReply
  | .boot => (s, some (.ok, []))
  | .set key val =>
    if val.length = 0 ∨ itemMaxKeyLen < key.length ∨ itemMaxValLen < val.length then (s, some (.invalidParam, []))
    else (fun k => if k = key then some val else s k, some (.ok, []))
  | .get key bufferLen =>
    if bufferLen = 0 then (s, some (.invalidParam, []))
    else
      match s key with
      | none => (s, some (.itemNotFound, []))
      | some v => if bufferLen < v.length then (s, some (.noSpace, [])) else (s, some (.ok, v))
  | .del key =>
    match s key with
    | none => (s, some (.itemNotFound, []))
    | some _ => (fun k => if k = key then none else s k, some (.ok, []))

/-! ### Runs from an erased flash -/

/-- `c` sets of 512 bytes, under keys of the lengths `len0`, `len0 + 1`, and so on. -/
def bigSets (c len0 : Nat) : List KvCall :=
  (List.range c).map fun k => .set (List.replicate (len0 + k) 0x6B) (List.replicate 512 0x55)

/-- A value set under the empty key, and read back. -/
def emptyKeySet : List KvCall :=
  [.boot, .set [] [0x61], .get [] 16]

/-- `aos_kv_set` accepts the empty key and stores an item with `key_len` zero, which
`kv_item_traverse` skips as a malformed header: the value is never read back
(`aosKvGet_nil` says so of every state). -/
theorem kvSet_emptyKey_unread :
    Machine.replies (kvStep 2) (some (kvBlank fun _ => [])) emptyKeySet =
        [some (.ok, []), some (.ok, []), some (.itemNotFound, [])] ∧
      Machine.replies mapCall KvMap.empty emptyKeySet = [some (.ok, []), some (.ok, []), some (.ok, [0x61])] := by
  decide

/-- Three blocks: seven sets fill block `0` and a delete leaves it dirty; the sets
that follow fill block `1`, start the collector, which compacts block `0` into block
`2`, fill block `2` and take block `0` again, the last clean one. -/
def reserveSpent : List KvCall :=
  [.boot] ++ bigSets 7 1 ++ [.del [0x6B]] ++ bigSets 15 8

set_option maxRecDepth 20000 in
/-- The last clean block becomes the write block; the collector then refuses to run,
and the next set of 512 bytes, with no block left with room, never returns. -/
theorem kvSet_spends_reserve :
    Machine.replies (kvStep 3) (some (kvBlank fun _ => [])) reserveSpent = List.replicate 24 (some (.ok, [])) ∧
      (Machine.exec (kvStep 3) (some (kvBlank fun _ => [])) reserveSpent).map KvMgr.cleanBlkNums = some 0 ∧
      (kvStep 3 (Machine.exec (kvStep 3) (some (kvBlank fun _ => [])) reserveSpent)
        (.set [0x70] (List.replicate 512 0x55))).2 = none := by
  decide +kernel

/-- The twelfth flash write fails: it is the state write that makes block `1` used
when the eighth set of 512 bytes moves there. -/
def stateWriteFault : PlatformOp → List Bool :=
  fun op => if op = .write then List.replicate 11 false ++ [true] else []

/-- Eight sets of 512 bytes over three blocks, then a small set and its read. -/
def failedMove : List KvCall :=
  [.boot] ++ bigSets 8 1 ++ [.set [0x7A] [1, 2, 3], .get [0x7A] 16]

set_option maxRecDepth 20000 in
/-- `kv_item_calc_pos` moves `write_pos` into block `1` before the state write that
fails: block `1` stays clean in `block_info` and on flash with `write_pos` in it. The
next set writes there and returns `RES_OK`, and `kv_item_get`, which skips clean
blocks, never finds it. -/
theorem kvCalcPos_fault_leaves_clean :
    Machine.replies (kvStep 3) (some (kvBlank stateWriteFault)) failedMove =
        List.replicate 8 (some (.ok, [])) ++ [some (.noSpace, []), some (.ok, []), some (.itemNotFound, [])] ∧
      ((Machine.exec (kvStep 3) (some (kvBlank stateWriteFault)) (failedMove.take 9)).map fun m =>
        (m.writePos, (m.blockInfo 1).state, (m.flash 4097).toNat)) = some (4100, blkStateClean, blkStateClean) := by
  decide +kernel

/-- A value whose bytes at offsets `2` to `10` look like the header of a normal item
with the one-byte key `A`. -/
def staleValue : List UInt8 :=
  List.replicate 2 0x55 ++ [0x49, 0xEE, 0, 1, 1, 0, 0, 0] ++ [0x41] ++ List.replicate 501 0x55

/-- `A` is updated in block `0`, so its new item keeps `origin_off` 16. The collector
copies block `0` to block `2` and formats it; `BB`, the first item of block `1`, is
later copied by the collector to offset 4 of block `0`, and its value covers offset
16. The items that only fill blocks are then deleted. -/
def staleOrigin : List KvCall :=
  [.boot, .set [0x43, 0x43, 0x43] [1], .set [0x41] [1], .set [0x41] [2]] ++ bigSets 7 5 ++
    [.set [0x42, 0x42] staleValue] ++ bigSets 6 12 ++ [.del (List.replicate 17 0x6B), .set [0x5A, 0x5A, 0x5A, 0x5A] [9]] ++
    (List.range 12).map fun k => .del (List.replicate (5 + k) 0x6B)

/-! Every read of `BB` after `staleOrigin` goes through the collector's copy, a read
of the flash as it was, so the kernel walks two lists for each byte. It does that once,
to show that the flash holds `BB`'s bytes by position; the calls after `staleOrigin`
then run on that flash. -/

/-- The store after `staleOrigin`. -/
@[irreducible] def staleOriginState : KvMgr :=
  (Machine.exec (kvStep 3) (some (kvBlank fun _ => [])) staleOrigin).getD (kvBlank fun _ => [])

/-- The item of `BB` by position: header and key, the value (`0x55` but at its bytes
`2` to `10`), then two bytes of padding. -/
def bbAt (j : Nat) : UInt8 :=
  if j < 10 then ((itemBytes [0x42, 0x42] staleValue 0).take 10).getD j 0
  else if 12 ≤ j ∧ j < 21 then [0x49, 0xEE, 0, 1, 1, 0, 0, 0, 0x41].getD (j - 12) 0
  else if j < 522 then 0x55 else 0

/-- `staleOriginState` with the item of `BB` at offset `4` given by `bbAt`. -/
def staleOriginFlat : KvMgr :=
  { staleOriginState with
    flash := fun i => if 4 ≤ i ∧ i < 528 then bbAt (i - 4) else staleOriginState.flash i }

/-- The flash after `staleOrigin` agrees with `bbAt` for the `len` bytes from `off`. -/
def bbChunk (off len : Nat) : Bool :=
  (List.range len).all fun k => staleOriginState.flash (4 + (off + k)) == bbAt (off + k)

-- the byte `k` costs two walks of `k` steps, once for the whole item
set_option maxRecDepth 20000 in
theorem bbChunk_all : bbChunk 0 524 = true := by
  decide +kernel

theorem KvMgr.eq_of_flash {m : KvMgr} {f : Nat → UInt8} (h : m.flash = f) :
    m = { m with flash := f } := by
  subst h
  rfl

theorem staleOriginState_eq_flat : staleOriginState = staleOriginFlat := by
  apply KvMgr.eq_of_flash
  funext i
  split_ifs with hi
  · -- the byte `i - 4` of the item, as the one walk over it found it
    have h := List.all_eq_true.mp bbChunk_all (i - 4) (List.mem_range.mpr (by omega))
    rw [beq_iff_eq, Nat.zero_add, show 4 + (i - 4) = i by omega] at h
    exact h
  · rfl

set_option maxRecDepth 20000 in
theorem staleOrigin_run :
    (Machine.exec (kvStep 3) (some (kvBlank fun _ => [])) staleOrigin).isSome = true ∧
      Machine.replies (kvStep 3) (some (kvBlank fun _ => [])) staleOrigin =
        List.replicate 32 (some (.ok, [])) ∧
      Machine.replies (kvStep 3) (some staleOriginFlat) [.get [0x42, 0x42] 512, .boot, .get [0x42, 0x42] 512] =
        [some (.ok, staleValue), some (.ok, []), some (.ok, staleValue.set 3 0)] := by
  decide +kernel

theorem exec_staleOrigin :
    Machine.exec (kvStep 3) (some (kvBlank fun _ => [])) staleOrigin = some staleOriginState := by
  unfold staleOriginState
  exact (Option.getD_of_ne_none (Option.ne_none_iff_isSome.mpr staleOrigin_run.1) _).symm

/-- After a restart with every write done, `__item_recovery_cb` follows the stale
`origin_off` of `A` into the value of `BB`, finds a normal header with key `A` there,
and clears its state byte: the value of `BB` reads back with byte 3 cleared. -/
theorem kvRecovery_clears_live_value :
    Machine.replies (kvStep 3) (some (kvBlank fun _ => []))
        (staleOrigin ++ [.get [0x42, 0x42] 512, .boot, .get [0x42, 0x42] 512]) =
      List.replicate 32 (some (.ok, [])) ++ [some (.ok, staleValue), some (.ok, []), some (.ok, staleValue.set 3 0)] := by
  rw [Machine.replies_append, exec_staleOrigin, staleOriginState_eq_flat, staleOrigin_run.2.1,
    staleOrigin_run.2.2]

/-- The key `X` sits in block `0`, which a delete left dirty; block `1` fills until
the fourteenth set of 512 bytes starts the collector. -/
def gcCopyPrefix : List KvCall :=
  [.boot, .set [0x58] [7], .set [0x44] [1], .del [0x44]] ++ bigSets 13 2

/-- The state after the set that started the collector, before it runs. -/
def gcCopyState : Option KvMgr :=
  (Machine.exec (kvStep 3) (some (kvBlank fun _ => [])) gcCopyPrefix).bind fun m =>
    (kvCall 3 m (.set (List.replicate 15 0x6B) (List.replicate 512 0x55))).map fun r => r.1

set_option maxRecDepth 20000 in
/-- The collector's second `aos_malloc`, the copy buffer of the first item, fails:
`kv_item_traverse` returns `NULL` as after a full copy, and `aos_kv_gc` formats block
`0` with `X` in it. -/
theorem kvGc_copy_fault_loses_item :
    (gcCopyState.map fun m => (m.gcTriggered, (aosKvGet 3 m [0x58] 16).2)) = some (true, .ok, [7]) ∧
      (gcCopyState.bind fun m =>
        (aosKvGc 3 { m with faults := fun op => if op = .malloc then [false, true] else [] }).map fun m' =>
          (aosKvGet 3 m' [0x58] 16).2) = some (.itemNotFound, []) := by
  decide +kernel

end Kv
