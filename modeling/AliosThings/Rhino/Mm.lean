import AliosThings.Rhino.MblkPool
import AliosThings.Lib.LowBits

/-!
# The heap of `k_mm.c`

A heap is a set of regions, each tiled by blocks: a block holding the region's info,
the blocks of the heap, and a sentinel of buffer size `0`. A block's header is
`k_mm_list_t`: `prev`, kept right when the block before is free, and `buf_size`,
whose two low bits say whether the block and the one before it are free; a free
block keeps the links of its free list at the start of its buffer. `freelist[l]`
holds the free blocks whose buffer size has `l + 6` bits (level `0` also the smaller
ones), and bit `l` of `free_bitmap` says whether that list is non-empty. Requests of
at most `DEF_FIX_BLK_SIZE` bytes are served first by a pool of fixed blocks that
`krhino_init_mm_head` carves out of the heap.

The model keeps memory as two maps: the headers by block address, and the words
through which the fixed-block pool links its free blocks. The bytes of the buffers
are not modelled. `size_t` is 32 bits wide; only `MM_ALIGN_UP` can wrap on the
sizes the functions see.
-/

namespace Rhino

def mmAlignBit : Nat := 3
def mmAlignSize : Nat := 1 <<< mmAlignBit
def mmAlignMask : Nat := mmAlignSize - 1

/-- `~m` on a 32-bit `size_t`. -/
def sizeNot (m : Nat) : Nat := 2 ^ 32 - 1 - m

/-- `MM_ALIGN_UP`: `a + MM_ALIGN_MASK` is a 32-bit `size_t`, and wraps. -/
def mmAlignUp (a : Nat) : Nat := (a + mmAlignMask) % 2 ^ 32 &&& sizeNot mmAlignMask

def mmAlignDown (a : Nat) : Nat := a &&& sizeNot mmAlignMask

def defFixBlkSize : Nat := 32
def mmMaxBit : Nat := 24
def mmMaxSize : Nat := 1 <<< mmMaxBit
def mmMinBit : Nat := 6
def mmMinSize : Nat := 1 <<< (mmMinBit - 1)
def mmBitLevel : Nat := mmMaxBit - mmMinBit + 2
def minFreeMemorySize : Nat := 1024
def rhinoMmPrestatMask : Nat := 2
def rhinoMmFree : Nat := 1
def rhinoMmAlloced : Nat := 0
def rhinoMmPrevfree : Nat := 2
def rhinoMmPrevalloced : Nat := 0
def rhinoConfigMmTlfBlkSize : Nat := 8192

/-- `MMLIST_HEAD_SIZE`: `prev` and `buf_size` of a 32-bit `k_mm_list_t`, where the
buffer starts. -/
def mmlistHeadSize : Nat := 8

/-- `sizeof(k_mm_region_info_t)`: two pointers. -/
def sizeofRegionInfo : Nat := 8

/-- `krhino_clz32`: `32` for `0`, else the count by halving of `Bitmap.clz`. -/
def krhinoClz32 (x : UInt32) : Nat := if x = 0 then 32 else Bitmap.clz x

/-- One halving step of `krhino_ctz32`: when the low bits of what is left, the mask
`lo` of `s` bits, are clear, they are shifted out and counted. -/
def ctzStep (s : Nat) (lo : UInt32) (p : UInt32 × Nat) : UInt32 × Nat :=
  if p.1 &&& lo = 0 then (p.1 >>> UInt32.ofNat s, p.2 + s) else p

/-- `krhino_ctz32`. -/
def krhinoCtz32 (x : UInt32) : Nat :=
  if x = 0 then 32
  else
    let p := ctzStep 2 0x3 (ctzStep 4 0xF (ctzStep 8 0xFF (ctzStep 16 0xFFFF (x, 0))))
    if p.1 &&& 0x1 = 0 then p.2 + 1 else p.2

/-- `size_to_level`; `none` is its `-1`, for sizes of more than `MM_MAX_BIT` bits. -/
def sizeToLevel (size : Nat) : Option Nat :=
  let cnt := 32 - krhinoClz32 (UInt32.ofNat size)
  if cnt < mmMinBit then some 0
  else if cnt > mmMaxBit then none
  else some (cnt - mmMinBit)

/-- `k_mm_list_t`: `prev`, `buf_size` with the two flag bits, and the `free_ptr` links
a free block keeps at the start of its buffer. `0` is `NULL`. -/
structure MmList where
  prev : Nat
  bufSize : Nat
  freePrev : Nat
  freeNext : Nat
  deriving DecidableEq, Repr

/-- `k_mm_head` with the statistics of `K_MM_STATISTIC`, and the memory it manages: the
headers by address, the `mblk_pool_t` in the buffer of the fixed-block pool's block,
and the words the pool links its free blocks through. The list of regions is left
out: no modelled function reads it. -/
structure MmHead where
  blk : Nat → MmList
  fixedmblk : Nat
  usedSize : Nat
  maxusedSize : Nat
  freeSize : Nat
  mmSizeStats : Nat → Nat
  freeBitmap : UInt32
  freelist : Nat → Nat
  pool : MblkPool
  words : Nat → Nat

/-- The sizes a build fixes: `sizeof(k_mm_head)` and `sizeof(mblk_pool_t)`. -/
structure MmSizes where
  mmHead : Nat
  mblkPool : Nat

namespace MmHead

/-- Rewrite the header at `b`. -/
def setBlk (h : MmHead) (b : Nat) (f : MmList → MmList) : MmHead :=
  { h with blk := Function.update h.blk b (f (h.blk b)) }

/-- `MM_GET_BUF_SIZE`. -/
def mmGetBufSize (h : MmHead) (b : Nat) : Nat := (h.blk b).bufSize &&& sizeNot mmAlignMask

/-- `MM_GET_BLK_SIZE`. -/
def mmGetBlkSize (h : MmHead) (b : Nat) : Nat := h.mmGetBufSize b + mmlistHeadSize

/-- `MM_GET_NEXT_BLK`: the buffer starts `MMLIST_HEAD_SIZE` after the header. -/
def mmGetNextBlk (h : MmHead) (b : Nat) : Nat := b + mmlistHeadSize + h.mmGetBufSize b

/-- `MM_IS_FIXEDBLK`: the pointer lies strictly inside the buffer of the pool's block,
bounded by its `buf_size` as stored, flags included. -/
def mmIsFixedblk (h : MmHead) (ptr : Nat) : Bool :=
  h.fixedmblk != 0 && decide (h.fixedmblk + mmlistHeadSize < ptr) &&
    decide (ptr < h.fixedmblk + mmlistHeadSize + (h.blk h.fixedmblk).bufSize)

/-! ## Statistics -/

/-- `addsize`: the free size saturates at `0`. -/
def addsize (h : MmHead) (size reqSize : Nat) : MmHead :=
  { h with
    freeSize := if h.freeSize > size then h.freeSize - size else 0
    usedSize := h.usedSize + size
    maxusedSize := if h.usedSize + size > h.maxusedSize then h.usedSize + size else h.maxusedSize
    mmSizeStats := match sizeToLevel reqSize with
      | some level => Function.update h.mmSizeStats level (h.mmSizeStats level + 1)
      | none => h.mmSizeStats }

/-- `removesize`: the used size saturates at `0`. -/
def removesize (h : MmHead) (size : Nat) : MmHead :=
  { h with
    usedSize := if h.usedSize > size then h.usedSize - size else 0
    freeSize := h.freeSize + size }

/-! ## The free lists -/

def setFreePrev (h : MmHead) (b p : Nat) : MmHead := h.setBlk b fun x => { x with freePrev := p }

def setFreeNext (h : MmHead) (b n : Nat) : MmHead := h.setBlk b fun x => { x with freeNext := n }

def setFreelist (h : MmHead) (level b : Nat) : MmHead :=
  { h with freelist := Function.update h.freelist level b }

def setBit (h : MmHead) (level : Nat) : MmHead :=
  { h with freeBitmap := h.freeBitmap ||| (1 <<< UInt32.ofNat level) }

def clearBit (h : MmHead) (level : Nat) : MmHead :=
  { h with freeBitmap := h.freeBitmap &&& ~~~(1 <<< UInt32.ofNat level) }

/-- `if (freelist[level] != NULL) freelist[level]->free_ptr.prev = blk`. -/
def linkHead (h : MmHead) (level b : Nat) : MmHead :=
  if h.freelist level ≠ 0 then h.setFreePrev (h.freelist level) b else h

/-- `k_mm_freelist_insert`: at the head of the list of the block's level. A block whose
size has no level goes in no list. -/
def kMmFreelistInsert (h : MmHead) (b : Nat) : MmHead :=
  match sizeToLevel (h.mmGetBufSize b) with
  | some level =>
    if level < mmBitLevel then
      ((((h.setFreePrev b 0).setFreeNext b (h.freelist level)).linkHead level b).setFreelist
        level b).setBit level
    else h
  | none => h

/-- `blk->free_ptr.next->free_ptr.prev = blk->free_ptr.prev`, when there is a next. -/
def unlinkNext (h : MmHead) (b : Nat) : MmHead :=
  if (h.blk b).freeNext ≠ 0 then h.setFreePrev (h.blk b).freeNext (h.blk b).freePrev else h

/-- `blk->free_ptr.prev->free_ptr.next = blk->free_ptr.next`, when there is a previous. -/
def unlinkPrev (h : MmHead) (b : Nat) : MmHead :=
  if (h.blk b).freePrev ≠ 0 then h.setFreeNext (h.blk b).freePrev (h.blk b).freeNext else h

/-- A block at the head of its list hands the head on; a list left empty clears its bit. -/
def unlinkHead (h : MmHead) (level b : Nat) : MmHead :=
  if h.freelist level = b then
    if (h.blk b).freeNext = 0 then (h.setFreelist level 0).clearBit level
    else h.setFreelist level (h.blk b).freeNext
  else h

/-- `k_mm_freelist_delete`. -/
def kMmFreelistDelete (h : MmHead) (b : Nat) : MmHead :=
  match sizeToLevel (h.mmGetBufSize b) with
  | some level =>
    if level < mmBitLevel then
      ((((h.unlinkNext b).unlinkPrev b).unlinkHead level b).setFreePrev b 0).setFreeNext b 0
    else h
  | none => h

/-- `find_up_level`: the head of the first non-empty list above `level`, or `NULL`. -/
def findUpLevel (h : MmHead) (level : Nat) : Nat :=
  let l := krhinoCtz32 (h.freeBitmap &&& (0xFFFFFFFF <<< UInt32.ofNat (level + 1)))
  if l < mmBitLevel then h.freelist l else 0

/-- The bound on the scan of one free list: a list of distinct 32-bit addresses is
shorter. -/
def mmScanFuel : Nat := 2 ^ 32

/-- The scan of `k_mm_alloc` along one free list for the first block of at least
`size` bytes, for at most `fuel` nodes: `NULL` at the end of the list, `none` when
the fuel runs out, where the code may go round a cycle for ever. -/
def scanLevel (h : MmHead) (size : Nat) : Nat → Nat → Option Nat
  | _, 0 => some 0
  | 0, _ + 1 => none
  | fuel + 1, b + 1 =>
    if h.mmGetBufSize (b + 1) ≥ size then some (b + 1)
    else scanLevel h size fuel (h.blk (b + 1)).freeNext

/-! ## Splitting and merging blocks -/

/-- The first half of a split: `b` keeps `size` and its `PREVFREE` bit, and the block
after it, of buffer size `left`, is free and follows a used block. -/
def splitHead (h : MmHead) (b size left : Nat) : MmHead :=
  let h := h.setBlk b fun x => { x with bufSize := size ||| (x.bufSize &&& rhinoMmPrestatMask) }
  h.setBlk (h.mmGetNextBlk b) fun x =>
    { x with prev := b, bufSize := left ||| rhinoMmFree ||| rhinoMmPrevalloced }

/-- The split of `k_mm_alloc`: `nextB` records the new block as its predecessor, and the
new block goes in its list. -/
def allocSplit (h : MmHead) (b nextB size left : Nat) : MmHead :=
  let h := h.splitHead b size left
  (h.setBlk nextB fun x => { x with prev := h.mmGetNextBlk b }).kMmFreelistInsert (h.mmGetNextBlk b)

/-- The split of `k_mm_realloc`: `nextB` also sets its `PREVFREE` bit. -/
def reallocSplit (h : MmHead) (b nextB size left : Nat) : MmHead :=
  let h := h.splitHead b size left
  (h.setBlk nextB fun x => { x with prev := h.mmGetNextBlk b, bufSize := x.bufSize ||| rhinoMmPrevfree
    }).kMmFreelistInsert (h.mmGetNextBlk b)

/-- `b->buf_size += MM_GET_BLK_SIZE(c)`: the block `c` after `b` joins it. -/
def absorb (h : MmHead) (b c : Nat) : MmHead :=
  h.setBlk b fun x => { x with bufSize := x.bufSize + h.mmGetBlkSize c }

/-! ## `k_mm_alloc` -/

/-- `k_mm_smallblk_alloc`: a block of the fixed-block pool, counted as
`DEF_FIX_BLK_SIZE` bytes. -/
def kMmSmallblkAlloc (h : MmHead) (size : Nat) : MmHead × Nat :=
  match krhinoMblkAlloc h.pool h.words with
  | (pool, tmp, .success) => (({ h with pool := pool } : MmHead).addsize defFixBlkSize size, tmp)
  | _ => (h, 0)

/-- `k_mm_alloc` once it holds the free block `getB`: out of its list, split when the
rest can hold a block of `MM_MIN_SIZE`, marked used, and counted. -/
def takeBlk (h : MmHead) (getB size reqSize : Nat) : MmHead × Nat :=
  let h := h.kMmFreelistDelete getB
  let nextB := h.mmGetNextBlk getB
  let h :=
    if h.mmGetBufSize getB ≥ size + mmlistHeadSize + mmMinSize then
      h.allocSplit getB nextB size (h.mmGetBufSize getB - size - mmlistHeadSize)
    else h.setBlk nextB fun x => { x with bufSize := x.bufSize &&& sizeNot rhinoMmPrevfree }
  let h := h.setBlk getB fun x => { x with bufSize := x.bufSize &&& sizeNot rhinoMmFree }
  (h.addsize (h.mmGetBlkSize getB) reqSize, getB + mmlistHeadSize)

/-- The size `k_mm_alloc` and `k_mm_realloc` look for: aligned up, and at least
`MM_MIN_SIZE`. -/
def mmReqSize (size : Nat) : Nat :=
  if mmAlignUp size < mmMinSize then mmMinSize else mmAlignUp size

/-- The part of `k_mm_alloc` past the fixed blocks: a block at a higher level, or else
the first large enough at the same level. -/
def kMmAllocTlf (h : MmHead) (reqSize : Nat) : Option (MmHead × Nat) :=
  match sizeToLevel (mmReqSize reqSize) with
  | none => some (h, 0)
  | some level =>
    let found :=
      if h.findUpLevel level = 0 then h.scanLevel (mmReqSize reqSize) mmScanFuel (h.freelist level)
      else some (h.findUpLevel level)
    found.map fun getB => if getB = 0 then (h, 0) else h.takeBlk getB (mmReqSize reqSize) reqSize

/-- `k_mm_alloc`: a request of at most `DEF_FIX_BLK_SIZE` bytes goes to the fixed-block
pool while it has blocks; the rest, or what the pool cannot serve, to the free lists.
`none` where the scan of a free list does not end. -/
def kMmAlloc (h : MmHead) (size : Nat) : Option (MmHead × Nat) :=
  if size = 0 then some (h, 0)
  else if h.fixedmblk ≠ 0 ∧ size ≤ defFixBlkSize ∧ 0 < h.pool.blkAvail ∧
      (h.kMmSmallblkAlloc size).2 ≠ 0 then some (h.kMmSmallblkAlloc size)
  else h.kMmAllocTlf size

/-! ## `k_mm_free` -/

/-- `k_mm_smallblk_free`. The pool refuses only `NULL`, which the callers rule out. -/
def kMmSmallblkFree (h : MmHead) (ptr : Nat) : MmHead :=
  if ptr = 0 then h
  else
    match krhinoMblkFree h.pool h.words ptr with
    | (pool, words, .success) => ({ h with pool := pool, words := words } : MmHead).removesize defFixBlkSize
    | _ => h

/-- Merge with the next block when it is free. -/
def mergeNext (h : MmHead) (b : Nat) : MmHead :=
  if (h.blk (h.mmGetNextBlk b)).bufSize &&& rhinoMmFree ≠ 0 then
    (h.kMmFreelistDelete (h.mmGetNextBlk b)).absorb b (h.mmGetNextBlk b)
  else h

/-- The block that stays after the merge with the previous block. -/
def mergePrevBlk (h : MmHead) (b : Nat) : Nat :=
  if (h.blk b).bufSize &&& rhinoMmPrevfree ≠ 0 then (h.blk b).prev else b

/-- Merge into the previous block when it is free. -/
def mergePrev (h : MmHead) (b : Nat) : MmHead :=
  if (h.blk b).bufSize &&& rhinoMmPrevfree ≠ 0 then
    (h.kMmFreelistDelete (h.blk b).prev).absorb (h.blk b).prev b
  else h

/-- The end of `k_mm_free`: the block goes in its list, and the block after it records
it as its free predecessor. -/
def releaseBlk (h : MmHead) (b : Nat) : MmHead :=
  (h.kMmFreelistInsert b).setBlk ((h.kMmFreelistInsert b).mmGetNextBlk b) fun x =>
    { x with prev := b, bufSize := x.bufSize ||| rhinoMmPrevfree }

/-- `k_mm_free`. -/
def kMmFree (h : MmHead) (ptr : Nat) : MmHead :=
  if ptr = 0 then h
  else if h.mmIsFixedblk ptr then h.kMmSmallblkFree ptr
  else
    let freeB := ptr - mmlistHeadSize
    let h := h.setBlk freeB fun x => { x with bufSize := x.bufSize ||| rhinoMmFree }
    let h := (h.removesize (h.mmGetBlkSize freeB)).mergeNext freeB
    (h.mergePrev freeB).releaseBlk (h.mergePrevBlk freeB)

/-! ## `k_mm_realloc` -/

/-- The shrink of `k_mm_realloc`, in place: the free block after it joins, and what is
more than `size` is split off when it can hold a block. -/
def reallocShrink (h : MmHead) (thisB nextB oldSize size reqSize : Nat) : MmHead :=
  let h := h.removesize (h.mmGetBlkSize thisB)
  let merged := decide ((h.blk nextB).bufSize &&& rhinoMmFree ≠ 0)
  let h' := if merged then h.kMmFreelistDelete nextB else h
  let oldSize := if merged then oldSize + h'.mmGetBlkSize nextB else oldSize
  let nextB := if merged then h'.mmGetNextBlk nextB else nextB
  let h' :=
    if oldSize ≥ size + mmlistHeadSize + mmMinSize then
      h'.reallocSplit thisB nextB size (oldSize - size - mmlistHeadSize)
    else h'
  h'.addsize (h'.mmGetBlkSize thisB) reqSize

/-- The growth of `k_mm_realloc`, in place, into the free block after it. -/
def reallocEnlarge (h : MmHead) (thisB nextB size reqSize : Nat) : MmHead :=
  let h := ((h.removesize (h.mmGetBlkSize thisB)).kMmFreelistDelete nextB).absorb thisB nextB
  let nextB := h.mmGetNextBlk thisB
  let h := h.setBlk nextB fun x => { x with prev := thisB, bufSize := x.bufSize &&& sizeNot rhinoMmPrevfree }
  let h :=
    if h.mmGetBufSize thisB ≥ size + mmlistHeadSize + mmMinSize then
      h.reallocSplit thisB nextB size (h.mmGetBufSize thisB - size - mmlistHeadSize)
    else h
  h.addsize (h.mmGetBlkSize thisB) reqSize

/-- `k_mm_realloc`. In place when the block, with the free block after it, holds the
new size; else moved by `k_mm_alloc` and `k_mm_free` (the copy is not modelled). -/
def kMmRealloc (h : MmHead) (oldmem newSize : Nat) : Option (MmHead × Nat) :=
  if oldmem = 0 then
    if newSize > 0 then h.kMmAlloc newSize else some (h, 0)
  else if newSize = 0 then some (h.kMmFree oldmem, 0)
  else if h.mmIsFixedblk oldmem then
    if newSize ≤ defFixBlkSize then some (h, oldmem)
    else (h.kMmAlloc newSize).map fun r => if r.2 ≠ 0 then (r.1.kMmSmallblkFree oldmem, r.2) else r
  else
    let thisB := oldmem - mmlistHeadSize
    let nextB := h.mmGetNextBlk thisB
    if mmReqSize newSize ≤ h.mmGetBufSize thisB then
      some (h.reallocShrink thisB nextB (h.mmGetBufSize thisB) (mmReqSize newSize) newSize, oldmem)
    else if (h.blk nextB).bufSize &&& rhinoMmFree ≠ 0 ∧
        mmReqSize newSize ≤ h.mmGetBufSize thisB + h.mmGetBlkSize nextB then
      some (h.reallocEnlarge thisB nextB (mmReqSize newSize) newSize, oldmem)
    else
      (h.kMmAlloc (mmReqSize newSize)).map fun r => if r.2 = 0 then r else (r.1.kMmFree oldmem, r.2)

/-! ## Regions -/

/-- `init_mm_region`: the region-info block, the block for the heap, and the sentinel,
used and with a free predecessor so that nothing merges past the region. -/
def initMmRegion (h : MmHead) (regionaddr len : Nat) : MmHead :=
  let h := h.setBlk regionaddr fun x =>
    { x with prev := 0, bufSize := mmAlignUp sizeofRegionInfo ||| rhinoMmAlloced ||| rhinoMmPrevalloced }
  let lastblk := regionaddr + len - mmlistHeadSize
  let midblk := h.mmGetNextBlk regionaddr
  let h := h.setBlk midblk fun x =>
    { x with bufSize := (lastblk - (midblk + mmlistHeadSize)) ||| rhinoMmAlloced ||| rhinoMmPrevalloced,
             freePrev := 0, freeNext := 0 }
  h.setBlk lastblk fun x => { x with prev := midblk, bufSize := 0 ||| rhinoMmAlloced ||| rhinoMmPrevfree }

/-- The head `krhino_init_mm_head` clears, over memory as it was. -/
def zeroed (blk : Nat → MmList) (words : Nat → Nat) : MmHead :=
  ⟨blk, 0, 0, 0, 0, fun _ => 0, 0, fun _ => 0, ⟨0, 0, 0, 0⟩, words⟩

/-- The fixed-block pool of `krhino_init_mm_head` in the block `k_mm_alloc` gave it:
the pool when `krhino_mblk_pool_init` accepts it, else the block goes back. -/
def poolSetup (sz : MmSizes) (fuel : Nat) (h : MmHead) (mmblkPool : Nat) : Option MmHead :=
  (krhinoMblkPoolInit fuel h.words (mmblkPool + mmAlignUp sz.mblkPool) defFixBlkSize
      rhinoConfigMmTlfBlkSize).map fun r =>
    let h := match r with
      | (.success, some (pool, words)) =>
        { h with fixedmblk := mmblkPool - mmlistHeadSize, pool := pool, words := words }
      | _ => h.kMmFree mmblkPool
    let h := h.removesize rhinoConfigMmTlfBlkSize
    { h with maxusedSize := h.usedSize }

end MmHead

open MmHead in
/-- `krhino_init_mm_head` on the memory `blk`, `words`: the head at the aligned `addr`,
one region after it, its block freed, and the fixed-block pool. `none` where
`k_mm_alloc` or `krhino_mblk_pool_init` does not end within the fuel. -/
def krhinoInitMmHead (sz : MmSizes) (fuel : Nat) (blk : Nat → MmList) (words : Nat → Nat)
    (addr len : Nat) : Option (Kstat × Option MmHead) :=
  if addr = 0 then some (.nullPtr, none)
  else
    -- `len` loses what aligning `addr` skips; below `0` the code wraps to a huge size,
    -- which the bound rejects as this `0` is
    let len := mmAlignDown (len - (mmAlignUp addr - addr))
    if len = 0 ∨ len < minFreeMemorySize + rhinoConfigMmTlfBlkSize ∨ len > mmMaxSize then
      some (.mmPoolSizeErr, none)
    else
      let firstblk := mmAlignUp addr + mmAlignUp sz.mmHead
      let h := (zeroed blk words).initMmRegion firstblk (mmAlignDown (len - sz.mmHead))
      let nextblk := h.mmGetNextBlk firstblk
      let h := h.kMmFree (nextblk + mmlistHeadSize)
      let h := { h with
        freeSize := h.mmGetBufSize nextblk
        usedSize := len - h.mmGetBufSize nextblk
        maxusedSize := len - h.mmGetBufSize nextblk
        fixedmblk := 0 }
      match h.kMmAlloc (rhinoConfigMmTlfBlkSize + mmAlignUp sz.mblkPool) with
      | none => none
      | some (h, mmblkPool) =>
        if mmblkPool = 0 then some (.success, some h)
        else (h.poolSetup sz fuel mmblkPool).map fun h => (.success, some h)

open MmHead in
/-- `krhino_add_mm_region`: the memory of the region is cleared, the region is set up,
its size counted as used, and its block freed. -/
def krhinoAddMmRegion (h : MmHead) (addr len : Nat) : Kstat × MmHead :=
  if addr = 0 then (.nullPtr, h)
  else
    let len := mmAlignDown (len - (mmAlignUp addr - addr))
    let addr := mmAlignUp addr
    if len = 0 ∨ len < sizeofRegionInfo + mmlistHeadSize * 3 + mmMinSize then (.mmPoolSizeErr, h)
    else
      let h := { h with
        blk := fun a => if addr ≤ a ∧ a < addr + len then ⟨0, 0, 0, 0⟩ else h.blk a
        words := fun a => if addr ≤ a ∧ a < addr + len then 0 else h.words a }
      let h := h.initMmRegion addr len
      let nextblk := h.mmGetNextBlk addr
      let h := { h with usedSize := h.usedSize + len }
      (.success, h.kMmFree (nextblk + mmlistHeadSize))

end Rhino
