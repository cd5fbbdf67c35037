import AliosThings.Rhino.Mm

/-!
# Block headers under the operations of `k_mm.c`

A header's `buf_size` is a word with two flag bits below a size that is a multiple of
`MM_ALIGN_SIZE`; `MM_GET_BUF_SIZE` masks the flags away. Setting and clearing flags
never changes the size it reads, and the free-list operations rewrite only the links
kept in a free block's buffer. From these two facts, the size of the block that
`k_mm_alloc` hands out and that `k_mm_realloc` shrinks to is the size asked for after
`MM_ALIGN_UP`, or the size the block had when it was too small to split.

`MM_ALIGN_UP` computes on a 32-bit `size_t`: for the seven sizes from
`SIZE_MAX - MM_ALIGN_MASK + 1` on, it wraps to `0`, and both functions then serve a
request of `MM_MIN_SIZE` bytes.
-/

namespace Rhino

/-! ## Sizes and flags in a word -/

theorem sizeNot_low {m : Nat} (hm : m < 8) : sizeNot m = 2 ^ 3 * (2 ^ 29 - 1) + (7 - m) := by
  unfold sizeNot
  norm_num
  omega

/-- Masking with `~m` for flags `m`: the value above the flags, cut to 32 bits, and the
other flags. -/
theorem land_sizeNot (x : Nat) {m : Nat} (hm : m < 8) :
    x &&& sizeNot m = 2 ^ 3 * (x / 2 ^ 3 % 2 ^ 29) + (x % 2 ^ 3 &&& (7 - m)) := by
  rw [sizeNot_low hm, LowBits.land_high x _ _ (by norm_num; omega), Nat.and_two_pow_sub_one_eq_mod]

theorem land_sizeNot_div (x : Nat) {m : Nat} (hm : m < 8) :
    (x &&& sizeNot m) / 2 ^ 3 = x / 2 ^ 3 % 2 ^ 29 := by
  rw [land_sizeNot x hm, LowBits.div_of_split (Nat.and_lt_two_pow _ (by norm_num; omega))]

theorem lor_low_div (x : Nat) {m : Nat} (hm : m < 8) : (x ||| m) / 2 ^ 3 = x / 2 ^ 3 := by
  rw [LowBits.lor_low x m (k := 3) (by norm_num; omega),
    LowBits.div_of_split (Nat.or_lt_two_pow (Nat.mod_lt _ (by norm_num)) (by norm_num; omega))]

/-- `MM_GET_BUF_SIZE` of a word: its value above the flags, on 32 bits. -/
theorem land_sizeNot_mask (x : Nat) : x &&& sizeNot mmAlignMask = 2 ^ 3 * (x / 2 ^ 3 % 2 ^ 29) := by
  rw [land_sizeNot x (show mmAlignMask < 8 by decide)]
  simp [mmAlignMask, mmAlignSize, mmAlignBit]

/-- Clearing flags keeps the size. -/
@[simp] theorem mask_land_sizeNot (x : Nat) {m : Nat} (hm : m < 8) :
    x &&& sizeNot m &&& sizeNot mmAlignMask = x &&& sizeNot mmAlignMask := by
  rw [land_sizeNot_mask, land_sizeNot_mask, land_sizeNot_div x hm, Nat.mod_mod]

/-- Setting flags keeps the size. -/
@[simp] theorem mask_lor_flags (x : Nat) {m : Nat} (hm : m < 8) :
    (x ||| m) &&& sizeNot mmAlignMask = x &&& sizeNot mmAlignMask := by
  rw [land_sizeNot_mask, land_sizeNot_mask, lor_low_div x hm]

/-- An aligned 32-bit size reads back as itself. -/
theorem mask_aligned {s : Nat} (hs : s % 8 = 0) (hs' : s < 2 ^ 32) :
    s &&& sizeNot mmAlignMask = s := by
  rw [land_sizeNot_mask]
  omega

theorem prestat_lt (x : Nat) : x &&& rhinoMmPrestatMask < 8 :=
  Nat.lt_of_le_of_lt Nat.and_le_right (by decide)

/-- `MM_ALIGN_UP` gives aligned 32-bit sizes. -/
theorem mmAlignUp_mod (a : Nat) : mmAlignUp a % 8 = 0 := by
  rw [mmAlignUp, land_sizeNot_mask]
  omega

theorem mmAlignUp_lt (a : Nat) : mmAlignUp a < 2 ^ 32 := by
  rw [mmAlignUp, land_sizeNot_mask]
  omega

/-- Below the wrap, `MM_ALIGN_UP` rounds up to the next multiple of `MM_ALIGN_SIZE`. -/
theorem mmAlignUp_of_lt {a : Nat} (ha : a + mmAlignMask < 2 ^ 32) : mmAlignUp a = (a + 7) / 8 * 8 := by
  rw [mmAlignUp, land_sizeNot_mask, Nat.mod_eq_of_lt ha]
  simp only [mmAlignMask, mmAlignSize, mmAlignBit] at ha ⊢
  omega

/-- The seven largest sizes wrap to `0`. -/
theorem mmAlignUp_wrap {a : Nat} (hlo : 2 ^ 32 - mmAlignMask ≤ a) (hhi : a < 2 ^ 32) :
    mmAlignUp a = 0 := by
  rw [mmAlignUp, land_sizeNot_mask]
  simp only [mmAlignMask, mmAlignSize, mmAlignBit] at hlo ⊢
  omega

/-! ## Headers under the updates -/

namespace MmHead

theorem mmReqSize_mod (size : Nat) : mmReqSize size % 8 = 0 := by
  unfold mmReqSize
  split
  · decide
  · exact mmAlignUp_mod size

theorem mmReqSize_lt (size : Nat) : mmReqSize size < 2 ^ 32 := by
  unfold mmReqSize
  split
  · decide
  · exact mmAlignUp_lt size

theorem mmReqSize_wrap {a : Nat} (hlo : 2 ^ 32 - mmAlignMask ≤ a) (hhi : a < 2 ^ 32) :
    mmReqSize a = mmMinSize := by
  simp [mmReqSize, mmAlignUp_wrap hlo hhi, mmMinSize, mmMinBit]

variable (h : MmHead)

@[simp] theorem setBlk_blk (b : Nat) (f : MmList → MmList) :
    (h.setBlk b f).blk = Function.update h.blk b (f (h.blk b)) := rfl

theorem setBlk_blk_ne {b a : Nat} (f : MmList → MmList) (hne : a ≠ b) :
    (h.setBlk b f).blk a = h.blk a := by
  simp [hne]

@[simp] theorem setBlk_fixedmblk (b : Nat) (f : MmList → MmList) :
    (h.setBlk b f).fixedmblk = h.fixedmblk := rfl

@[simp] theorem addsize_blk (size reqSize : Nat) : (h.addsize size reqSize).blk = h.blk := rfl

@[simp] theorem removesize_blk (size : Nat) : (h.removesize size).blk = h.blk := rfl

@[simp] theorem setFreelist_blk (level b : Nat) : (h.setFreelist level b).blk = h.blk := rfl

@[simp] theorem setBit_blk (level : Nat) : (h.setBit level).blk = h.blk := rfl

@[simp] theorem clearBit_blk (level : Nat) : (h.clearBit level).blk = h.blk := rfl

theorem mmGetBufSize_eq (b : Nat) : h.mmGetBufSize b = 2 ^ 3 * ((h.blk b).bufSize / 2 ^ 3 % 2 ^ 29) :=
  land_sizeNot_mask _

theorem mmGetNextBlk_gt (b : Nat) : b < h.mmGetNextBlk b := by
  simp [mmGetNextBlk, mmlistHeadSize]
  omega

/-- The header fields a block keeps while the links of a free list change: its
predecessor and its size word. -/
def Header (x : MmList) : Nat × Nat := (x.prev, x.bufSize)

/-- Two heaps with the same headers everywhere. -/
def SameHeaders (h' : MmHead) : Prop := ∀ a, Header (h'.blk a) = Header (h.blk a)

variable {h}

theorem SameHeaders.bufSize {h' : MmHead} (hs : h.SameHeaders h') (a : Nat) :
    (h'.blk a).bufSize = (h.blk a).bufSize :=
  congrArg Prod.snd (hs a)

theorem SameHeaders.prev {h' : MmHead} (hs : h.SameHeaders h') (a : Nat) :
    (h'.blk a).prev = (h.blk a).prev :=
  congrArg Prod.fst (hs a)

theorem SameHeaders.mmGetBufSize {h' : MmHead} (hs : h.SameHeaders h') (a : Nat) :
    h'.mmGetBufSize a = h.mmGetBufSize a := by
  simp [MmHead.mmGetBufSize, hs.bufSize a]

theorem SameHeaders.mmGetNextBlk {h' : MmHead} (hs : h.SameHeaders h') (a : Nat) :
    h'.mmGetNextBlk a = h.mmGetNextBlk a := by
  simp [MmHead.mmGetNextBlk, hs.mmGetBufSize a]

theorem SameHeaders.refl : h.SameHeaders h := fun _ => rfl

theorem SameHeaders.trans {h' h'' : MmHead} (h1 : h.SameHeaders h') (h2 : h'.SameHeaders h'') :
    h.SameHeaders h'' := fun a => (h2 a).trans (h1 a)

variable (h)

theorem sameHeaders_of_blk {h' : MmHead} (hb : h'.blk = h.blk) : h.SameHeaders h' := by
  intro a
  rw [hb]

theorem sameHeaders_setFreePrev (b p : Nat) : h.SameHeaders (h.setFreePrev b p) := by
  intro a
  by_cases hab : a = b
  · subst hab
    simp [setFreePrev, Header]
  · simp [setFreePrev, hab]

theorem sameHeaders_setFreeNext (b n : Nat) : h.SameHeaders (h.setFreeNext b n) := by
  intro a
  by_cases hab : a = b
  · subst hab
    simp [setFreeNext, Header]
  · simp [setFreeNext, hab]

theorem sameHeaders_linkHead (level b : Nat) : h.SameHeaders (h.linkHead level b) := by
  unfold linkHead
  split
  · exact sameHeaders_setFreePrev h _ _
  · exact SameHeaders.refl

theorem sameHeaders_unlinkNext (b : Nat) : h.SameHeaders (h.unlinkNext b) := by
  unfold unlinkNext
  split
  · exact sameHeaders_setFreePrev h _ _
  · exact SameHeaders.refl

theorem sameHeaders_unlinkPrev (b : Nat) : h.SameHeaders (h.unlinkPrev b) := by
  unfold unlinkPrev
  split
  · exact sameHeaders_setFreeNext h _ _
  · exact SameHeaders.refl

theorem sameHeaders_unlinkHead (level b : Nat) : h.SameHeaders (h.unlinkHead level b) := by
  unfold unlinkHead
  split
  · split
    · exact sameHeaders_of_blk h rfl
    · exact sameHeaders_of_blk h rfl
  · exact SameHeaders.refl

/-- `k_mm_freelist_insert` rewrites links only. -/
theorem sameHeaders_kMmFreelistInsert (b : Nat) : h.SameHeaders (h.kMmFreelistInsert b) := by
  unfold kMmFreelistInsert
  split
  · split
    · refine ((((sameHeaders_setFreePrev h b 0).trans (sameHeaders_setFreeNext _ b _)).trans
        (sameHeaders_linkHead _ _ b)).trans (sameHeaders_of_blk _ rfl)).trans
          (sameHeaders_of_blk _ rfl)
    · exact SameHeaders.refl
  · exact SameHeaders.refl

/-- `k_mm_freelist_delete` rewrites links only. -/
theorem sameHeaders_kMmFreelistDelete (b : Nat) : h.SameHeaders (h.kMmFreelistDelete b) := by
  unfold kMmFreelistDelete
  split
  · split
    · exact ((((sameHeaders_unlinkNext h b).trans (sameHeaders_unlinkPrev _ b)).trans
        (sameHeaders_unlinkHead _ _ b)).trans (sameHeaders_setFreePrev _ b 0)).trans
          (sameHeaders_setFreeNext _ b 0)
    · exact SameHeaders.refl
  · exact SameHeaders.refl

@[simp] theorem addsize_mmGetBufSize (size reqSize b : Nat) :
    (h.addsize size reqSize).mmGetBufSize b = h.mmGetBufSize b := rfl

@[simp] theorem removesize_mmGetBufSize (size b : Nat) :
    (h.removesize size).mmGetBufSize b = h.mmGetBufSize b := rfl

/-- A write of `prev` alone keeps every size word. -/
theorem setBlk_prev_bufSize (c p a : Nat) :
    ((h.setBlk c fun x => { x with prev := p }).blk a).bufSize = (h.blk a).bufSize := by
  by_cases hac : a = c
  · subst hac
    simp
  · simp [hac]

/-! ## The size of a block after a split -/

/-- The block that is split keeps `size` and its `PREVFREE` bit. -/
theorem splitHead_bufSize_self (b size left : Nat) :
    ((h.splitHead b size left).blk b).bufSize = size ||| ((h.blk b).bufSize &&& rhinoMmPrestatMask) := by
  unfold splitHead
  rw [setBlk_blk_ne _ _ (ne_of_lt (mmGetNextBlk_gt _ b))]
  simp

theorem allocSplit_bufSize_self (b nextB size left : Nat) :
    ((h.allocSplit b nextB size left).blk b).bufSize =
      size ||| ((h.blk b).bufSize &&& rhinoMmPrestatMask) := by
  unfold allocSplit
  rw [(sameHeaders_kMmFreelistInsert _ _).bufSize, setBlk_prev_bufSize, splitHead_bufSize_self]

/-- The split of `k_mm_realloc` also writes the size word of `nextB`, which lies past `b`. -/
theorem reallocSplit_bufSize_self {b nextB : Nat} (size left : Nat) (hne : b ≠ nextB) :
    ((h.reallocSplit b nextB size left).blk b).bufSize =
      size ||| ((h.blk b).bufSize &&& rhinoMmPrestatMask) := by
  unfold reallocSplit
  rw [(sameHeaders_kMmFreelistInsert _ _).bufSize, setBlk_blk_ne _ _ hne, splitHead_bufSize_self]

/-- A split leaves an aligned 32-bit `size` for `MM_GET_BUF_SIZE` to read. -/
theorem mask_split {size : Nat} (x : Nat) (hs : size % 8 = 0) (hs' : size < 2 ^ 32) :
    (size ||| (x &&& rhinoMmPrestatMask)) &&& sizeNot mmAlignMask = size := by
  rw [mask_lor_flags _ (prestat_lt x), mask_aligned hs hs']

@[simp] theorem takeBlk_snd (getB size reqSize : Nat) :
    (h.takeBlk getB size reqSize).2 = getB + mmlistHeadSize := rfl

/-- The size of the block `k_mm_alloc` hands out: `size` when the block was split, else
all of it. -/
theorem takeBlk_mmGetBufSize (getB : Nat) {size : Nat} (reqSize : Nat) (hs : size % 8 = 0)
    (hs' : size < 2 ^ 32) :
    (h.takeBlk getB size reqSize).1.mmGetBufSize getB =
      if size + mmlistHeadSize + mmMinSize ≤ h.mmGetBufSize getB then size
      else h.mmGetBufSize getB := by
  have hdel := sameHeaders_kMmFreelistDelete h getB
  simp only [takeBlk, addsize_mmGetBufSize]
  rw [mmGetBufSize, setBlk_blk, Function.update_self, mask_land_sizeNot _ (by decide),
    ← hdel.mmGetBufSize getB]
  split_ifs with hsplit
  · rw [allocSplit_bufSize_self, mask_split _ hs hs']
  · -- no split: only the `PREVFREE` bit of the next block is written
    rw [setBlk_blk_ne _ _ (ne_of_lt (mmGetNextBlk_gt _ getB))]
    rfl

/-- The size of the block `k_mm_realloc` shrinks in place: `size` when what it holds,
with the free block after it, was split, else what it held, too little to split. -/
theorem reallocShrink_mmGetBufSize {thisB nextB : Nat} (oldSize : Nat) {size : Nat}
    (reqSize : Nat) (hnext : thisB < nextB) (hs : size % 8 = 0) (hs' : size < 2 ^ 32) :
    (h.reallocShrink thisB nextB oldSize size reqSize).mmGetBufSize thisB = size ∨
      ((h.reallocShrink thisB nextB oldSize size reqSize).mmGetBufSize thisB =
        h.mmGetBufSize thisB ∧ oldSize < size + mmlistHeadSize + mmMinSize) := by
  simp only [reallocShrink, addsize_mmGetBufSize]
  have hs1 : h.SameHeaders (h.removesize (h.mmGetBlkSize thisB)) := sameHeaders_of_blk h rfl
  -- the split, once the free block after has joined or not
  have split : ∀ (h2 : MmHead) (n o : Nat), h.SameHeaders h2 → thisB < n → oldSize ≤ o →
      (if o ≥ size + mmlistHeadSize + mmMinSize then
          h2.reallocSplit thisB n size (o - size - mmlistHeadSize) else h2).mmGetBufSize thisB = size ∨
        ((if o ≥ size + mmlistHeadSize + mmMinSize then
          h2.reallocSplit thisB n size (o - size - mmlistHeadSize) else h2).mmGetBufSize thisB =
            h.mmGetBufSize thisB ∧ oldSize < size + mmlistHeadSize + mmMinSize) := by
    intro h2 n o hs2 hn ho
    split_ifs with hsplit
    · left
      rw [mmGetBufSize, reallocSplit_bufSize_self _ _ _ (ne_of_lt hn), mask_split _ hs hs']
    · right
      exact ⟨hs2.mmGetBufSize thisB, by omega⟩
  by_cases hm : ((h.removesize (h.mmGetBlkSize thisB)).blk nextB).bufSize &&& rhinoMmFree ≠ 0
  · simp only [ne_eq, hm, not_false_eq_true, decide_true, if_true]
    exact split _ _ _ (hs1.trans (sameHeaders_kMmFreelistDelete _ _))
      (lt_trans hnext (mmGetNextBlk_gt _ _)) (Nat.le_add_right _ _)
  · rw [ne_eq, not_not] at hm
    simp only [hm, ne_eq, not_true_eq_false, decide_false, Bool.false_eq_true, if_false]
    exact split _ _ _ hs1 hnext le_rfl

/-! ## Requests that wrap -/

/-- `size_to_level(MM_MIN_SIZE)`: the first level. -/
theorem sizeToLevel_mmMinSize : sizeToLevel mmMinSize = some 0 := by decide

/-- `k_mm_alloc` for one of the seven largest sizes: `MM_ALIGN_UP` wraps, the request
becomes one of `MM_MIN_SIZE` bytes, and a block it hands out holds less than
`MM_MIN_SIZE + MMLIST_HEAD_SIZE + MM_MIN_SIZE` bytes, far less than asked. -/
theorem kMmAlloc_wrapped_small (h : MmHead) {size : Nat} (hlo : 2 ^ 32 - mmAlignMask ≤ size)
    (hhi : size < 2 ^ 32) :
    ∀ r ∈ h.kMmAlloc size, r.2 ≠ 0 →
      r.1.mmGetBufSize (r.2 - mmlistHeadSize) < mmMinSize + mmlistHeadSize + mmMinSize := by
  intro r hr hp
  have hmask : mmAlignMask = 7 := rfl
  have hsize : size ≠ 0 := by omega
  have hbig : ¬ size ≤ defFixBlkSize := by
    simp only [defFixBlkSize]
    omega
  simp only [kMmAlloc, hsize, hbig, if_false, false_and, and_false, kMmAllocTlf,
    mmReqSize_wrap hlo hhi, sizeToLevel_mmMinSize, Option.mem_def, Option.map_eq_some_iff] at hr
  obtain ⟨getB, -, hget⟩ := hr
  split at hget
  · subst hget
    exact absurd rfl hp
  · -- the block found is taken for `MM_MIN_SIZE` bytes
    subst hget
    rw [takeBlk_snd, Nat.add_sub_cancel,
      takeBlk_mmGetBufSize _ _ _ (show mmMinSize % 8 = 0 by decide) (by decide)]
    split_ifs with hsplit
    · decide
    · omega

/-- The heap `krhino_init_mm_head` builds over 16 KiB at `0x20000000`, for a build with a
`k_mm_head` of 216 bytes and a `mblk_pool_t` of 20. -/
def heap16k : MmHead :=
  ((krhinoInitMmHead ⟨216, 20⟩ 300 (fun _ => ⟨0, 0, 0, 0⟩) (fun _ => 0) 0x20000000 16384).bind
    Prod.snd).getD (zeroed (fun _ => ⟨0, 0, 0, 0⟩) (fun _ => 0))

theorem kMmAlloc_wrapped_small_heap16k :
    (heap16k.kMmAlloc 0xFFFFFFFF).any (fun r => r.2 != 0) = true ∧
      ∀ r ∈ heap16k.kMmAlloc 0xFFFFFFFF, r.2 ≠ 0 →
        r.1.mmGetBufSize (r.2 - mmlistHeadSize) < mmMinSize + mmlistHeadSize + mmMinSize :=
  ⟨by decide +kernel, kMmAlloc_wrapped_small heap16k (by decide) (by decide)⟩

/-- `k_mm_realloc` of a block of the heap to one of the seven largest sizes: the wrapped
request of `MM_MIN_SIZE` bytes fits, so the block is shrunk in place and the same pointer
comes back, now with less than `MM_MIN_SIZE + MMLIST_HEAD_SIZE + MM_MIN_SIZE` bytes. -/
theorem kMmRealloc_wrapped_small (h : MmHead) {oldmem newSize : Nat} (hp : oldmem ≠ 0)
    (hfix : h.mmIsFixedblk oldmem = false)
    (hbuf : mmMinSize ≤ h.mmGetBufSize (oldmem - mmlistHeadSize))
    (hlo : 2 ^ 32 - mmAlignMask ≤ newSize) (hhi : newSize < 2 ^ 32) :
    ∃ h', h.kMmRealloc oldmem newSize = some (h', oldmem) ∧
      h'.mmGetBufSize (oldmem - mmlistHeadSize) < mmMinSize + mmlistHeadSize + mmMinSize := by
  have hmask : mmAlignMask = 7 := rfl
  have hsize : newSize ≠ 0 := by omega
  simp only [kMmRealloc, hp, hsize, hfix, mmReqSize_wrap hlo hhi, hbuf, if_false, if_true,
    Bool.false_eq_true]
  refine ⟨_, rfl, ?_⟩
  rcases reallocShrink_mmGetBufSize h _ newSize (mmGetNextBlk_gt h _)
      (show mmMinSize % 8 = 0 by decide) (by decide) with hsplit | ⟨hkeep, hsmall⟩
  · rw [hsplit]
    decide
  · omega

/-- The heap `heap16k` after `k_mm_alloc(100)`, and the pointer it returned. -/
def heap16kAlloc100 : MmHead × Nat := (heap16k.kMmAlloc 100).getD (heap16k, 0)

theorem kMmRealloc_wrapped_small_heap16k :
    ∃ h', heap16kAlloc100.1.kMmRealloc heap16kAlloc100.2 0xFFFFFFFF = some (h', heap16kAlloc100.2) ∧
      h'.mmGetBufSize (heap16kAlloc100.2 - mmlistHeadSize) < mmMinSize + mmlistHeadSize + mmMinSize :=
  kMmRealloc_wrapped_small heap16kAlloc100.1 (by decide +kernel) (by decide +kernel)
    (by decide +kernel) (by decide) (by decide)

end MmHead

end Rhino
