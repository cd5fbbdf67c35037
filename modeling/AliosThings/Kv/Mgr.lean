import AliosThings.Lib.RingMemory

/-!
# The flash key-value store of `kvmgr.c`

`g_kv_mgr` and the flash partition it manages, with every function of `kvmgr.c` as a
function of that state. Numbers are naturals below the width of their C field, and an
assignment to a narrower field takes the value modulo its width: positions are
`uint16_t`, block indices and `clean_blk_nums` are `uint8_t`. The flash is a byte
array; `raw_read`, `raw_write`, `raw_erase` and `aos_malloc` go to the platform, which
may fail: `faults op` says, call by call, whether the next calls of kind `op` fail, and
once it is used up they succeed. A failed flash call changes nothing.

`BLK_NUMS` is a parameter `blkNums` of the functions that read it. The garbage
collector runs as its own task in the source; here `trigger_gc` only raises
`gc_triggered`, and the runs of `Kv.Run` call `aos_kv_gc` after the call that raised
it. The search of `kv_item_calc_pos` and the block loop of `aos_kv_gc` can go round
forever: they return `none` then.
-/

namespace Kv

open RingMemory

/-! ### Constants -/

/-- `BLK_BITS` and `BLK_SIZE`. -/
def blkBits : Nat := 12
def blkSize : Nat := 4096

/-- `BLK_STATE_USED`, `BLK_STATE_CLEAN` and `BLK_STATE_DIRTY`. -/
def blkStateUsed : Nat := 0xCC
def blkStateClean : Nat := 0xEE
def blkStateDirty : Nat := 0x44

/-- `BLK_HEADER_SIZE`. -/
def blkHeaderSize : Nat := 4

/-- `ITEM_HEADER_SIZE`, `ITEM_STATE_NORMAL` and `ITEM_STATE_DELETE`. -/
def itemHeaderSize : Nat := 8
def itemStateNormal : Nat := 0xEE
def itemStateDelete : Nat := 0

/-- `ITEM_MAX_KEY_LEN`, `ITEM_MAX_VAL_LEN` and `ITEM_MAX_LEN`. -/
def itemMaxKeyLen : Nat := 128
def itemMaxValLen : Nat := 512
def itemMaxLen : Nat := itemHeaderSize + itemMaxKeyLen + itemMaxValLen

/-- `KV_STATE_OFF` and `KV_GC_RESERVED`. -/
def kvStateOff : Nat := 1
def kvGcReserved : Nat := 1

/-- `sizeof(void *)` on the 32-bit targets: `KV_ALIGN_MASK` is `~(kvAlign - 1)`. -/
def kvAlign : Nat := 4

/-- `BLK_MAGIC_NUM` (`'K'`) and `ITEM_MAGIC_NUM` (`'I'`). -/
def blkMagicNum : Nat := 75
def itemMagicNum : Nat := 73

/-- `INVALID_BLK_STATE`. -/
def invalidBlkState (state : Nat) : Bool :=
  state != blkStateUsed && state != blkStateClean && state != blkStateDirty

/-- A value stored into a `uint16_t` or a `uint8_t`. -/
def u16 (n : Nat) : Nat := n % 65536
def u8 (n : Nat) : Nat := n % 256

/-- `a -= b` on a `uint16_t` holding `a`, and `c--` on a `uint8_t` holding `c`. -/
def u16Sub (a b : Nat) : Nat := (a + 65536 - b % 65536) % 65536
def u8Dec (c : Nat) : Nat := (c + 255) % 256

/-- `(n + ~KV_ALIGN_MASK) & KV_ALIGN_MASK`: `n` rounded up to the alignment. -/
def alignUp (n : Nat) : Nat := (n + (kvAlign - 1)) / kvAlign * kvAlign

/-- `utils_crc8`: CRC-8 with polynomial `0x31`, a bit at a time. -/
def crc8Bit (crc : Nat) : Nat :=
  if crc &&& 0x80 != 0 then ((crc <<< 1) ^^^ 0x31) % 256 else (crc <<< 1) % 256

def crc8Byte (crc : Nat) (b : UInt8) : Nat :=
  Nat.iterate crc8Bit 8 (crc ^^^ b.toNat)

def utilsCrc8 (buf : List UInt8) : Nat :=
  buf.foldl crc8Byte 0

/-! ### Flash layout -/

/-- `item_hdr_t`, eight packed little-endian bytes. -/
structure ItemHdr where
  magic : Nat
  state : Nat
  crc : Nat
  keyLen : Nat
  valLen : Nat
  originOff : Nat
  deriving DecidableEq, Repr

/-- The bytes of a header as `memcpy` lays them out. -/
def ItemHdr.encode (h : ItemHdr) : List UInt8 :=
  [UInt8.ofNat h.magic, UInt8.ofNat h.state, UInt8.ofNat h.crc, UInt8.ofNat h.keyLen,
    UInt8.ofNat h.valLen, UInt8.ofNat (h.valLen / 256), UInt8.ofNat h.originOff,
    UInt8.ofNat (h.originOff / 256)]

/-- The header read back from eight bytes. -/
def ItemHdr.decode (bs : List UInt8) : ItemHdr where
  magic := (bs.getD 0 0).toNat
  state := (bs.getD 1 0).toNat
  crc := (bs.getD 2 0).toNat
  keyLen := (bs.getD 3 0).toNat
  valLen := (bs.getD 4 0).toNat + (bs.getD 5 0).toNat * 256
  originOff := (bs.getD 6 0).toNat + (bs.getD 7 0).toNat * 256

/-- `kv_item_t`: a header, the buffer `store` of `__item_find_cb`, the length of key
and value, and the position of the item. -/
structure KvItem where
  hdr : ItemHdr
  store : List UInt8
  len : Nat
  pos : Nat
  deriving DecidableEq, Repr

/-- `block_info_t`. -/
structure BlockInfo where
  space : Nat
  state : Nat
  deriving DecidableEq, Repr

/-- A call of the store to the platform. -/
inductive PlatformOp where
  | read
  | write
  | erase
  | malloc
  deriving DecidableEq, Repr

/-- `g_kv_mgr` and the flash partition `KV_PTN`. -/
structure KvMgr where
  kvInitialize : Bool
  gcTriggered : Bool
  cleanBlkNums : Nat
  writePos : Nat
  blockInfo : Nat → BlockInfo
  flash : Nat → UInt8
  faults : PlatformOp → List Bool

/-- The result codes of `result_e`. The three flash errors are one value, `-EIO`;
a failing HAL call is reported as that value too. -/
inductive KvRes where
  | ok
  | cont
  | noSpace
  | invalidParam
  | mallocFailed
  | itemNotFound
  | flashErr
  deriving DecidableEq, Repr

namespace KvMgr

/-- `memset(&g_kv_mgr, 0, sizeof(g_kv_mgr))` over a flash. -/
def zero (flash : Nat → UInt8) (faults : PlatformOp → List Bool) : KvMgr where
  kvInitialize := false
  gcTriggered := false
  cleanBlkNums := 0
  writePos := 0
  blockInfo := fun _ => ⟨0, 0⟩
  flash := flash
  faults := faults

/-- `block_info[i] = b`. -/
def setBlock (m : KvMgr) (i : Nat) (b : BlockInfo) : KvMgr :=
  { m with blockInfo := fun j => if j = i then b else m.blockInfo j }

/-- Whether the next platform call of kind `op` fails. -/
def fails (m : KvMgr) (op : PlatformOp) : Bool × KvMgr :=
  match m.faults op with
  | [] => (false, m)
  | b :: bs => (b, { m with faults := fun o => if o = op then bs else m.faults o })

end KvMgr

/-- The flash after programming `bs` at `off`. -/
def flashProgram (mem : Nat → UInt8) (off : Nat) (bs : List UInt8) : Nat → UInt8 :=
  fun i => if off ≤ i ∧ i < off + bs.length then bs.getD (i - off) 0 else mem i

/-- The flash after erasing `size` bytes at `off`. -/
def flashErase (mem : Nat → UInt8) (off size : Nat) : Nat → UInt8 :=
  fun i => if off ≤ i ∧ i < off + size then 0xFF else mem i

/-- `raw_read`: on a failure the buffer keeps `buf`, what it held before. -/
def rawRead (m : KvMgr) (offset n : Nat) (buf : List UInt8) : KvMgr × Bool × List UInt8 :=
  match m.fails .read with
  | (true, m) => (m, false, buf)
  | (false, m) => (m, true, readAt m.flash offset n)

/-- `raw_write`. -/
def rawWrite (m : KvMgr) (offset : Nat) (bs : List UInt8) : KvMgr × Bool :=
  match m.fails .write with
  | (true, m) => (m, false)
  | (false, m) => ({ m with flash := flashProgram m.flash offset bs }, true)

/-- `raw_erase`. -/
def rawErase (m : KvMgr) (offset size : Nat) : KvMgr × Bool :=
  match m.fails .erase with
  | (true, m) => (m, false)
  | (false, m) => ({ m with flash := flashErase m.flash offset size }, true)

/-- `aos_malloc`: whether the memory was given. -/
def aosMalloc (m : KvMgr) : KvMgr × Bool :=
  match m.fails .malloc with
  | (true, m) => (m, false)
  | (false, m) => (m, true)

/-- `trigger_gc`: the collector task is started unless it already was. -/
def triggerGc (m : KvMgr) : KvMgr :=
  if m.gcTriggered then m else { m with gcTriggered := true }

/-- `kv_state_set`: the state byte of the header at `pos`. -/
def kvStateSet (m : KvMgr) (pos state : Nat) : KvMgr × Bool :=
  rawWrite m (pos + kvStateOff) [UInt8.ofNat state]

/-- `kv_block_format`. -/
def kvBlockFormat (m : KvMgr) (index : Nat) : KvMgr × KvRes :=
  let pos := u16 (index <<< blkBits)
  match rawErase m pos blkSize with
  | (m, false) => (m, .flashErr)
  | (m, true) =>
    match rawWrite m pos [UInt8.ofNat blkMagicNum, UInt8.ofNat blkStateClean, 0, 0] with
    | (m, false) => (m, .flashErr)
    | (m, true) =>
      ({ m.setBlock index ⟨blkSize - blkHeaderSize, blkStateClean⟩ with
          cleanBlkNums := u8 (m.cleanBlkNums + 1) }, .ok)

/-! ### `kv_item_calc_pos` -/

/-- The iterations a `uint8_t` counter makes before it repeats a value. -/
def counterFuel : Nat := 257

/-- The search of `kv_item_calc_pos` from counter `i` (already past the test against
`blk_index`): the first block with more than `len` bytes left becomes the write
block, marked used if it was clean. The `uint8_t` counter goes round without end when
no block has room and `blk_index` is `0`, as the wrap to `0` comes after the test. -/
def calcPosLoop (blkNums blkIndex len : Nat) (m : KvMgr) : Nat → Nat → Option (KvMgr × Nat)
  | 0, _ => none
  | fuel + 1, i =>
    if i = blkIndex then some (triggerGc m, 0)
    else
      let i := if i = blkNums then 0 else i
      let bi := m.blockInfo i
      if len < bi.space then
        let m := { m with writePos := u16 ((i <<< blkBits) + blkSize - bi.space) }
        if bi.state = blkStateClean then
          match kvStateSet m (u16 (i <<< blkBits)) blkStateUsed with
          | (m, false) => some (m, 0)
          | (m, true) =>
            some ({ m.setBlock i { bi with state := blkStateUsed } with
              cleanBlkNums := u8Dec m.cleanBlkNums }, m.writePos)
        else some (m, m.writePos)
      else calcPosLoop blkNums blkIndex len m fuel (u8 (i + 1))

/-- `kv_item_calc_pos`: where an item of `len` bytes goes, `0` when nowhere. The
search of the other blocks is compiled only when `BLK_NUMS > KV_GC_RESERVED + 1`. -/
def kvItemCalcPos (blkNums : Nat) (m : KvMgr) (len : Nat) : Option (KvMgr × Nat) :=
  let blkIndex := u8 (m.writePos >>> blkBits)
  let bi := m.blockInfo blkIndex
  if len < bi.space then
    let m := if bi.space - len < itemMaxLen ∧ m.cleanBlkNums ≤ kvGcReserved then triggerGc m else m
    some (m, m.writePos)
  else if kvGcReserved + 1 < blkNums then
    calcPosLoop blkNums blkIndex len m counterFuel (u8 (blkIndex + 1))
  else some (triggerGc m, 0)

/-! ### `kv_item_del` -/

/-- `KV_SELF_REMOVE` and `KV_ORIG_REMOVE`. -/
inductive DelMode where
  | selfRemove
  | origRemove
  deriving DecidableEq, Repr

/-- The state byte at `offset` cleared to `ITEM_STATE_DELETE`, and its block marked
dirty if it was used. -/
def kvItemDelAt (m : KvMgr) (offset : Nat) : KvMgr × KvRes :=
  match kvStateSet m offset itemStateDelete with
  | (m, false) => (m, .flashErr)
  | (m, true) =>
    let i := u8 (offset >>> blkBits)
    if (m.blockInfo i).state = blkStateUsed then
      match kvStateSet m (offset / blkSize * blkSize) blkStateDirty with
      | (m, false) => (m, .flashErr)
      | (m, true) => (m.setBlock i { m.blockInfo i with state := blkStateDirty }, .ok)
    else (m, .ok)

/-- `kv_item_del`. With `KV_ORIG_REMOVE` the item at `origin_off` goes only if it is
a normal item with the same key; the two key reads are not checked, and a buffer a
failed read leaves is read as zeros. -/
def kvItemDel (m : KvMgr) (item : KvItem) : DelMode → KvMgr × KvRes
  | .selfRemove => kvItemDelAt m item.pos
  | .origRemove =>
    let offset := item.hdr.originOff
    match rawRead m offset itemHeaderSize (List.replicate itemHeaderSize 0) with
    | (m, false, _) => (m, .flashErr)
    | (m, true, bytes) =>
      let hdr := ItemHdr.decode bytes
      if hdr.magic ≠ itemMagicNum ∨ hdr.state ≠ itemStateNormal ∨ hdr.keyLen ≠ item.hdr.keyLen then
        (m, .ok)
      else
        match aosMalloc m with
        | (m, false) => (m, .mallocFailed)
        | (m, true) =>
          match aosMalloc m with
          | (m, false) => (m, .mallocFailed)
          | (m, true) =>
            let zeros := List.replicate hdr.keyLen 0
            let (m, _, originKey) := rawRead m (offset + itemHeaderSize) hdr.keyLen zeros
            let (m, _, newKey) := rawRead m (item.pos + itemHeaderSize) hdr.keyLen zeros
            if originKey ≠ newKey then (m, .ok) else kvItemDelAt m offset

/-! ### The callbacks of `kv_item_traverse` -/

/-- The `item_func` callbacks. -/
inductive ItemFunc where
  | recovery
  | find
  | gc
  deriving DecidableEq, Repr

/-- `__item_recovery_cb`: an item whose CRC fails is deleted; one that checks and was
written by an update deletes the item it replaced. -/
def itemRecoveryCb (m : KvMgr) (item : KvItem) : KvMgr × KvItem × KvRes :=
  match aosMalloc m with
  | (m, false) => (m, item, .mallocFailed)
  | (m, true) =>
    match rawRead m (item.pos + itemHeaderSize) item.len (List.replicate item.len 0) with
    | (m, false, _) => (m, item, .flashErr)
    | (m, true, p) =>
      if item.hdr.crc = utilsCrc8 p then
        if item.hdr.originOff ≠ 0 ∧ item.pos ≠ item.hdr.originOff then
          ((kvItemDel m item .origRemove).1, item, .cont)
        else (m, item, .cont)
      else ((kvItemDel m item .selfRemove).1, item, .cont)

/-- `__item_find_cb`: the item whose key is `key`, with its key and value read into
`store`. -/
def itemFindCb (m : KvMgr) (item : KvItem) (key : List UInt8) : KvMgr × KvItem × KvRes :=
  if item.hdr.keyLen ≠ key.length then (m, item, .cont)
  else
    match aosMalloc m with
    | (m, false) => (m, item, .mallocFailed)
    | (m, true) =>
      match rawRead m (item.pos + itemHeaderSize) item.len (List.replicate item.len 0) with
      | (m, false, _) => (m, item, .flashErr)
      | (m, true, store) =>
        let item := { item with store := store }
        if store.take key.length = key then (m, item, .ok) else (m, item, .cont)

/-- `__item_gc_cb`: the item copied to `write_pos`, whose block loses the space. -/
def itemGcCb (m : KvMgr) (item : KvItem) : KvMgr × KvItem × KvRes :=
  let len := u16 (alignUp (itemHeaderSize + item.len))
  match aosMalloc m with
  | (m, false) => (m, item, .mallocFailed)
  | (m, true) =>
    match rawRead m item.pos len (List.replicate len 0) with
    | (m, false, _) => (m, item, .flashErr)
    | (m, true, p) =>
      match rawWrite m m.writePos p with
      | (m, false) => (m, item, .flashErr)
      | (m, true) =>
        let m := { m with writePos := u16 (m.writePos + len) }
        let index := u8 (m.writePos >>> blkBits)
        (m.setBlock index { m.blockInfo index with space := u16Sub (m.blockInfo index).space len }, item,
          .cont)

/-- The callback `func` on one item. -/
def ItemFunc.call (m : KvMgr) (item : KvItem) (key : List UInt8) : ItemFunc → KvMgr × KvItem × KvRes
  | .recovery => itemRecoveryCb m item
  | .find => itemFindCb m item key
  | .gc => itemGcCb m item

/-! ### `kv_item_traverse` -/

/-- Mark block `blkIndex` dirty if it is used; the state write is not checked. -/
def markDirty (m : KvMgr) (blkIndex : Nat) : KvMgr :=
  if (m.blockInfo blkIndex).state = blkStateUsed then
    let m := (kvStateSet m (u16 (blkIndex <<< blkBits)) blkStateDirty).1
    m.setBlock blkIndex { m.blockInfo blkIndex with state := blkStateDirty }
  else m

/-- The end of the walk: the block's space is what is left after `pos`. -/
def traverseEnd (m : KvMgr) (blkIndex endPos pos : Nat) : KvMgr × Option KvItem :=
  (m.setBlock blkIndex
    { m.blockInfo blkIndex with space := u16 (if pos < endPos then endPos - pos else itemHeaderSize) }, none)

/-- The `do ... while (end > pos + ITEM_HEADER_SIZE)` loop of `kv_item_traverse` from
the header at `pos`. A header with a bad magic is read with `val_len = 0xFFFF`, and a
header out of bounds is skipped by its eight bytes. Every item is at least eight
bytes, so `fuel` of `BLK_SIZE` is never used up. -/
def traverseLoop (func : ItemFunc) (blkIndex endPos : Nat) (key : List UInt8) :
    Nat → KvMgr → Nat → KvMgr × Option KvItem
  | 0, m, pos => traverseEnd m blkIndex endPos pos
  | fuel + 1, m, pos =>
    match aosMalloc m with
    | (m, false) => (m, none)
    | (m, true) =>
      match rawRead m pos itemHeaderSize (List.replicate itemHeaderSize 0) with
      | (m, false, _) => (m, none)
      | (m, true, bytes) =>
        let hdr := ItemHdr.decode bytes
        if hdr.magic ≠ itemMagicNum ∧ hdr.magic = 0xFF ∧ hdr.state = 0xFF then
          traverseEnd m blkIndex endPos pos
        else
          let hdr := if hdr.magic ≠ itemMagicNum then { hdr with valLen := 0xFFFF } else hdr
          let next (m : KvMgr) (pos : Nat) : KvMgr × Option KvItem :=
            if pos + itemHeaderSize < endPos then traverseLoop func blkIndex endPos key fuel m pos
            else traverseEnd m blkIndex endPos pos
          if itemMaxValLen < hdr.valLen ∨ itemMaxKeyLen < hdr.keyLen ∨ hdr.valLen = 0 ∨ hdr.keyLen = 0 then
            next (markDirty m blkIndex) (u16 (pos + itemHeaderSize))
          else
            let len := u16 (alignUp (itemHeaderSize + hdr.keyLen + hdr.valLen))
            if hdr.state = itemStateNormal then
              let item : KvItem := ⟨hdr, [], hdr.keyLen + hdr.valLen, pos⟩
              match func.call m item key with
              | (m, item, .ok) => (m, some item)
              | (m, _, .cont) => next m (u16 (pos + len))
              | (m, _, _) => (m, none)
            else next (markDirty m blkIndex) (u16 (pos + len))

/-- `kv_item_traverse`: the first normal item of block `blkIndex` for which `func`
answers `RES_OK`. -/
def kvItemTraverse (m : KvMgr) (func : ItemFunc) (blkIndex : Nat) (key : List UInt8) : KvMgr × Option KvItem :=
  traverseLoop func blkIndex (u16 ((blkIndex <<< blkBits) + blkSize)) key blkSize m
    (u16 ((blkIndex <<< blkBits) + blkHeaderSize))

/-- The loop of `kv_item_get` from block `i`. -/
def kvItemGetFrom (blkNums : Nat) (key : List UInt8) : Nat → KvMgr → Nat → KvMgr × Option KvItem
  | 0, m, _ => (m, none)
  | n + 1, m, i =>
    if (m.blockInfo i).state ≠ blkStateClean then
      match kvItemTraverse m .find i key with
      | (m, some item) => (m, some item)
      | (m, none) => kvItemGetFrom blkNums key n m (i + 1)
    else kvItemGetFrom blkNums key n m (i + 1)

/-- `kv_item_get`: the first normal item with key `key`, block by block. -/
def kvItemGet (blkNums : Nat) (m : KvMgr) (key : List UInt8) : KvMgr × Option KvItem :=
  kvItemGetFrom blkNums key blkNums m 0

/-! ### Storing and updating -/

/-- The bytes `kv_item_store` writes: the header, the key and the value, padded with
zeros to the alignment. -/
def itemBytes (key val : List UInt8) (originOff : Nat) : List UInt8 :=
  let hdr : ItemHdr := ⟨itemMagicNum, itemStateNormal, utilsCrc8 (key ++ val), u8 key.length,
    u16 val.length, originOff⟩
  let len := u16 (alignUp (itemHeaderSize + key.length + val.length))
  hdr.encode ++ key ++ val ++ List.replicate (len - (itemHeaderSize + key.length + val.length)) 0

/-- `kv_item_store`: the item written where `kv_item_calc_pos` says. -/
def kvItemStore (blkNums : Nat) (m : KvMgr) (key val : List UInt8) (originOff : Nat) : Option (KvMgr × KvRes) :=
  let len := u16 (alignUp (itemHeaderSize + u8 key.length + u16 val.length))
  match aosMalloc m with
  | (m, false) => some (m, .mallocFailed)
  | (m, true) =>
    match kvItemCalcPos blkNums m len with
    | none => none
    | some (m, pos) =>
      if 0 < pos then
        match rawWrite m pos (itemBytes key val originOff) with
        | (m, false) => some (m, .flashErr)
        | (m, true) =>
          let m := { m with writePos := u16 (pos + len) }
          let index := u8 (m.writePos >>> blkBits)
          some (m.setBlock index { m.blockInfo index with space := u16Sub (m.blockInfo index).space len }, .ok)
      else some (m, .noSpace)

/-- `kv_item_update`: nothing when the value is the same; otherwise the new item is
stored with the old one's position as `origin_off`, and then the old one deleted. -/
def kvItemUpdate (blkNums : Nat) (m : KvMgr) (item : KvItem) (key val : List UInt8) : Option (KvMgr × KvRes) :=
  if item.hdr.valLen = val.length ∧ (item.store.drop item.hdr.keyLen).take val.length = val then some (m, .ok)
  else
    match kvItemStore blkNums m key val item.pos with
    | none => none
    | some (m, .ok) => some (kvItemDel m item .selfRemove)
    | some (m, ret) => some (m, ret)

/-! ### Initialisation -/

/-- The first loop of `kv_init` from block `i`: a block without the magic number or
with a bad state is formatted, the others are walked with the recovery callback; the
clean blocks that hold something are collected in `unclean`. -/
def kvInitScan (blkNums : Nat) : Nat → KvMgr → Nat → List Nat → KvMgr × Option KvRes × List Nat
  | 0, m, _, unclean => (m, none, unclean)
  | n + 1, m, i, unclean =>
    let (m, _, bytes) := rawRead m (u16 (i <<< blkBits)) blkHeaderSize (List.replicate blkHeaderSize 0)
    let magic := (bytes.getD 0 0).toNat
    let state := (bytes.getD 1 0).toNat
    if magic = blkMagicNum ∧ invalidBlkState state = false then
      let m := m.setBlock i { m.blockInfo i with state := state }
      let m := (kvItemTraverse m .recovery i []).1
      if state = blkStateClean then
        if (m.blockInfo i).space ≠ blkSize - blkHeaderSize then kvInitScan blkNums n m (i + 1) (unclean ++ [i])
        else kvInitScan blkNums n { m with cleanBlkNums := u8 (m.cleanBlkNums + 1) } (i + 1) unclean
      else kvInitScan blkNums n m (i + 1) unclean
    else
      match kvBlockFormat m i with
      | (m, .ok) => kvInitScan blkNums n m (i + 1) unclean
      | (m, ret) => (m, some ret, unclean)

/-- The second loop of `kv_init`, from the last block collected: each is marked dirty
while a clean block is left, and formatted otherwise. -/
def kvInitUnclean : List Nat → KvMgr → KvMgr × KvRes
  | [], m => (m, .ok)
  | i :: rest, m =>
    if kvGcReserved ≤ m.cleanBlkNums then
      match kvStateSet m (u16 (i <<< blkBits)) blkStateDirty with
      | (m, false) => (m, .flashErr)
      | (m, true) => kvInitUnclean rest (m.setBlock i { m.blockInfo i with state := blkStateDirty })
    else
      match kvBlockFormat m i with
      | (m, .ok) => kvInitUnclean rest m
      | (m, ret) => (m, ret)

/-- The write position of `kv_init` when some block is not clean: the end of the
first used or dirty block followed by a clean one. -/
def kvInitWritePos (blkNums : Nat) : Nat → KvMgr → Nat → KvMgr
  | 0, m, _ => m
  | n + 1, m, i =>
    let next := if i + 1 = blkNums then 0 else i + 1
    if ((m.blockInfo i).state = blkStateUsed ∨ (m.blockInfo i).state = blkStateDirty) ∧
        (m.blockInfo next).state = blkStateClean then
      { m with writePos := u16 ((i <<< blkBits) + blkSize - (m.blockInfo i).space) }
    else kvInitWritePos blkNums n m (i + 1)

/-- `kv_init`. -/
def kvInit (blkNums : Nat) (m : KvMgr) : KvMgr × KvRes :=
  match kvInitScan blkNums blkNums m 0 [] with
  | (m, some ret, _) => (m, ret)
  | (m, none, unclean) =>
    match kvInitUnclean unclean.reverse m with
    | (m, .ok) =>
      let formatted : KvMgr × KvRes := if m.cleanBlkNums = 0 then kvBlockFormat m 0 else (m, .ok)
      match formatted with
      | (m, .ok) =>
        if m.cleanBlkNums = blkNums then
          let m := { m with writePos := blkHeaderSize }
          match kvStateSet m (m.writePos / blkSize * blkSize) blkStateUsed with
          | (m, true) =>
            ({ m.setBlock 0 { m.blockInfo 0 with state := blkStateUsed } with
              cleanBlkNums := u8Dec m.cleanBlkNums }, .ok)
          | (m, false) => (m, .ok)
        else (kvInitWritePos blkNums blkNums m 0, .ok)
      | (m, ret) => (m, ret)
    | (m, ret) => (m, ret)

/-! ### The collector -/

/-- The first clean block from `i`: the block `aos_kv_gc` copies into. -/
def firstClean (m : KvMgr) : Nat → Nat → Option Nat
  | 0, _ => none
  | n + 1, i => if (m.blockInfo i).state = blkStateClean then some i else firstClean m n (i + 1)

/-- The block loop of `aos_kv_gc` from counter `i`: the first dirty block after the
write block has its normal items copied to the clean block `gcIndex` and is
formatted, and the clean block becomes used. The loop ends at the write block; the
result says whether a block was copied. -/
def gcLoop (blkNums gcIndex originBlk : Nat) : Nat → KvMgr → Nat → Option (KvMgr × Bool)
  | 0, _, _ => none
  | fuel + 1, m, i =>
    let i := if i = blkNums then 0 else i
    if (m.blockInfo i).state = blkStateDirty then
      let m := (kvItemTraverse m .gc i []).1
      match kvBlockFormat m i with
      | (m, .ok) =>
        let m := (kvStateSet m (m.writePos / blkSize * blkSize) blkStateUsed).1
        some ({ m.setBlock gcIndex { m.blockInfo gcIndex with state := blkStateUsed } with
          cleanBlkNums := u8Dec m.cleanBlkNums }, true)
      | (m, _) => some (m, true)
    else if i = originBlk then some (m, false)
    else gcLoop blkNums gcIndex originBlk fuel m (u8 (i + 1))

/-- `aos_kv_gc`: one dirty block compacted into a clean one, or nothing. A failed
format leaves the write position in the block copied into. -/
def aosKvGc (blkNums : Nat) (m : KvMgr) : Option KvMgr :=
  let originPos := m.writePos
  let done (m : KvMgr) : KvMgr := { m with gcTriggered := false }
  if m.cleanBlkNums = 0 then some (done m)
  else
    match firstClean m blkNums 0 with
    | none => some (done m)
    | some gcIndex =>
      let m := { m with writePos := u16 ((gcIndex <<< blkBits) + blkHeaderSize) }
      match gcLoop blkNums gcIndex (u8 (originPos >>> blkBits)) counterFuel m (u8 ((originPos >>> blkBits) + 1)) with
      | none => none
      | some (m, true) => some (done m)
      | some (m, false) => some (done { m with writePos := originPos })

/-! ### The API -/

/-- `aos_kv_del`. -/
def aosKvDel (blkNums : Nat) (m : KvMgr) (key : List UInt8) : KvMgr × KvRes :=
  match kvItemGet blkNums m key with
  | (m, none) => (m, .itemNotFound)
  | (m, some item) => kvItemDel m item .selfRemove

/-- `aos_kv_set` of the `val.length` bytes of `val`. -/
def aosKvSet (blkNums : Nat) (m : KvMgr) (key val : List UInt8) : Option (KvMgr × KvRes) :=
  if val.length = 0 ∨ itemMaxKeyLen < key.length ∨ itemMaxValLen < val.length then some (m, .invalidParam)
  else
    match kvItemGet blkNums m key with
    | (m, some item) => kvItemUpdate blkNums m item key val
    | (m, none) => kvItemStore blkNums m key val 0

/-- `aos_kv_get` into a buffer of `bufferLen` bytes: the value, or the length it needs. -/
def aosKvGet (blkNums : Nat) (m : KvMgr) (key : List UInt8) (bufferLen : Nat) : KvMgr × KvRes × List UInt8 :=
  if bufferLen = 0 then (m, .invalidParam, [])
  else
    match kvItemGet blkNums m key with
    | (m, none) => (m, .itemNotFound, [])
    | (m, some item) =>
      if bufferLen < item.hdr.valLen then (m, .noSpace, [])
      else (m, .ok, (item.store.drop item.hdr.keyLen).take item.hdr.valLen)

/-- `aos_kv_init`. -/
def aosKvInit (blkNums : Nat) (m : KvMgr) : KvMgr × KvRes :=
  if m.kvInitialize then (m, .ok)
  else if blkNums ≤ kvGcReserved then (m, .invalidParam)
  else
    match kvInit blkNums (KvMgr.zero m.flash m.faults) with
    | (m, .ok) =>
      let m := { m with kvInitialize := true }
      let blkIndex := u8 (m.writePos >>> blkBits)
      if (m.blockInfo blkIndex).space < itemMaxLen ∧ m.cleanBlkNums < kvGcReserved + 1 then (triggerGc m, .ok)
      else (m, .ok)
    | (m, ret) => (m, ret)

/-! ### What the walk returns -/

/-- The walk returns an item only when its callback accepted a normal item whose key
is not empty. -/
theorem traverseLoop_some {func : ItemFunc} {b e : Nat} {key : List UInt8} {fuel pos : Nat} {m m' : KvMgr}
    {item : KvItem} (h : traverseLoop func b e key fuel m pos = (m', some item)) :
    ∃ m₀ item₀, item₀.hdr.keyLen ≠ 0 ∧ func.call m₀ item₀ key = (m', item, .ok) := by
  induction fuel generalizing m pos with
  | zero => cases h
  | succ fuel ih =>
    unfold traverseLoop at h
    repeat' (first | split at h | dsimp only at h)
    all_goals first
      | (cases h; done)
      | exact ih h
      | skip
    -- what is left are the two calls of the callback that answered `RES_OK`
    all_goals
      obtain ⟨rfl, rfl⟩ : _ ∧ _ := by simpa using h
      refine ⟨_, _, ?_, ‹_›⟩
      simp_all

/-- `__item_find_cb` accepts only an item whose key is as long as the one asked. -/
theorem itemFindCb_ok {m : KvMgr} {item : KvItem} {key : List UInt8}
    (h : (itemFindCb m item key).2.2 = .ok) : item.hdr.keyLen = key.length := by
  unfold itemFindCb at h
  by_contra hne
  simp [hne] at h

/-- No item has the empty key for the walk: a header with `key_len` zero is skipped
as malformed. -/
theorem kvItemTraverse_find_nil (m : KvMgr) (b : Nat) : (kvItemTraverse m .find b []).2 = none := by
  rcases h : kvItemTraverse m .find b [] with ⟨m', _ | item⟩
  · rfl
  · obtain ⟨m₀, item₀, hk, hc⟩ := traverseLoop_some h
    have hlen := itemFindCb_ok (congrArg (fun r => r.2.2) hc)
    exact absurd hlen hk

theorem kvItemGetFrom_nil (blkNums n : Nat) (m : KvMgr) (i : Nat) :
    (kvItemGetFrom blkNums [] n m i).2 = none := by
  induction n generalizing m i with
  | zero => rfl
  | succ n ih =>
    unfold kvItemGetFrom
    split
    · rcases h : kvItemTraverse m .find i [] with ⟨m', _ | item⟩
      · exact ih m' (i + 1)
      · have := kvItemTraverse_find_nil m i
        rw [h] at this
        cases this
    · exact ih m (i + 1)

/-- `aos_kv_get` never finds the empty key, in any state. -/
theorem aosKvGet_nil (blkNums : Nat) (m : KvMgr) {bufferLen : Nat} (hbuf : 0 < bufferLen) :
    (aosKvGet blkNums m [] bufferLen).2.1 = .itemNotFound := by
  unfold aosKvGet kvItemGet
  rw [if_neg (by omega)]
  rcases h : kvItemGetFrom blkNums [] blkNums m 0 with ⟨m', _ | item⟩
  · rfl
  · have := kvItemGetFrom_nil blkNums blkNums m 0
    rw [h] at this
    cases this

/-! ### The search that does not end -/

/-- From block `0`, the search of `kv_item_calc_pos` goes round for ever when no block
has room: the counter runs `1, ..., BLK_NUMS`, is put back to `0` after its test
against `blk_index`, and comes to `1` again. -/
theorem calcPosLoop_full {blkNums len : Nat} {m : KvMgr} (hN : blkNums < 256)
    (hfull : ∀ i, i < blkNums → (m.blockInfo i).space ≤ len) (fuel : Nat) {i : Nat} (hi : 1 ≤ i)
    (hiN : i ≤ blkNums) : calcPosLoop blkNums 0 len m fuel i = none := by
  induction fuel generalizing i with
  | zero => rfl
  | succ fuel ih =>
    unfold calcPosLoop
    rw [if_neg (by omega)]
    dsimp only
    -- the block looked at is `i`, or `0` for the counter at `BLK_NUMS`
    have hj : (if i = blkNums then 0 else i) < blkNums := by split <;> omega
    rw [if_neg (Nat.not_lt.mpr (hfull _ hj))]
    have hnext : u8 ((if i = blkNums then 0 else i) + 1) = (if i = blkNums then 0 else i) + 1 :=
      Nat.mod_eq_of_lt (by omega)
    rw [hnext]
    exact ih (by omega) (by omega)

/-- `kv_item_calc_pos` never returns when the write block is block `0` and no block
has room for the item. -/
theorem kvItemCalcPos_full {blkNums len : Nat} {m : KvMgr} (h2 : 2 < blkNums) (hN : blkNums < 256)
    (hw : m.writePos >>> blkBits = 0) (hfull : ∀ i, i < blkNums → (m.blockInfo i).space ≤ len) :
    kvItemCalcPos blkNums m len = none := by
  unfold kvItemCalcPos
  dsimp only
  have h0 : u8 (m.writePos >>> blkBits) = 0 := by rw [hw]; rfl
  rw [h0, if_neg (Nat.not_lt.mpr (hfull 0 (by omega))), if_pos (by unfold kvGcReserved; omega)]
  exact calcPosLoop_full hN hfull _ (by decide) (by unfold u8; omega)

end Kv
