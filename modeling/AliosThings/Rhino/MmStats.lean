import AliosThings.Rhino.MmHeader

/-!
# The statistics of `k_mm.c`

With `K_MM_STATISTIC`, `used_size` and `free_size` are written only by `addsize`, which
moves a block's bytes from free to used, and by `removesize`, which moves them back;
every other update of the heap leaves both alone. `k_mm_alloc` charges the block it
hands out with the `MM_GET_BLK_SIZE` it has when the call returns, header included,
and `k_mm_free` releases the size the block had before it merges. Both updates
saturate at `0`, so the sum of the two statistics never falls, and it rises where one
of them would have gone below `0`.

`krhino_init_mm_head` counts as free the `MM_GET_BUF_SIZE` of the block it frees, and
as used all the rest, that block's header with it. The heap can hand out
`MMLIST_HEAD_SIZE` bytes more than `free_size` holds: the call that takes the last of
them finds `free_size` short, and `used_size` ends above the size of the heap.
-/

namespace Rhino

/-- A call of the heap's interface. -/
inductive MmCall
  | alloc (size : Nat)
  | free (ptr : Nat)
  | realloc (ptr size : Nat)
  deriving DecidableEq, Repr

namespace MmHead

/-- The heap after a call and the pointer the call returns, `NULL` for `k_mm_free`;
`none` where the call does not end. -/
def mmCall (h : MmHead) : MmCall → Option (MmHead × Nat)
  | .alloc size => h.kMmAlloc size
  | .free ptr => some (h.kMmFree ptr, 0)
  | .realloc ptr size => h.kMmRealloc ptr size

/-- The heap after the calls `cs`, in order. -/
def mmRun (h : MmHead) : List MmCall → Option MmHead
  | [] => some h
  | c :: cs => (h.mmCall c).bind fun r => r.1.mmRun cs

/-! ## The updates and the statistics -/

/-- The statistics: the bytes in use and the bytes free. -/
def stats (h : MmHead) : Nat × Nat := (h.usedSize, h.freeSize)

variable (h : MmHead)

@[simp] theorem setBlk_stats (b : Nat) (f : MmList → MmList) : (h.setBlk b f).stats = h.stats := rfl

@[simp] theorem setFreePrev_stats (b p : Nat) : (h.setFreePrev b p).stats = h.stats := rfl

@[simp] theorem setFreeNext_stats (b n : Nat) : (h.setFreeNext b n).stats = h.stats := rfl

@[simp] theorem setFreelist_stats (level b : Nat) : (h.setFreelist level b).stats = h.stats := rfl

@[simp] theorem setBit_stats (level : Nat) : (h.setBit level).stats = h.stats := rfl

@[simp] theorem clearBit_stats (level : Nat) : (h.clearBit level).stats = h.stats := rfl

@[simp] theorem absorb_stats (b c : Nat) : (h.absorb b c).stats = h.stats := rfl

@[simp] theorem splitHead_stats (b size left : Nat) : (h.splitHead b size left).stats = h.stats := rfl

@[simp] theorem linkHead_stats (level b : Nat) : (h.linkHead level b).stats = h.stats := by
  unfold linkHead
  split <;> rfl

@[simp] theorem unlinkNext_stats (b : Nat) : (h.unlinkNext b).stats = h.stats := by
  unfold unlinkNext
  split <;> rfl

@[simp] theorem unlinkPrev_stats (b : Nat) : (h.unlinkPrev b).stats = h.stats := by
  unfold unlinkPrev
  split <;> rfl

@[simp] theorem unlinkHead_stats (level b : Nat) : (h.unlinkHead level b).stats = h.stats := by
  unfold unlinkHead
  split
  · split <;> rfl
  · rfl

@[simp] theorem kMmFreelistInsert_stats (b : Nat) : (h.kMmFreelistInsert b).stats = h.stats := by
  unfold kMmFreelistInsert
  split
  · split
    · simp
    · rfl
  · rfl

@[simp] theorem kMmFreelistDelete_stats (b : Nat) : (h.kMmFreelistDelete b).stats = h.stats := by
  unfold kMmFreelistDelete
  split
  · split
    · simp
    · rfl
  · rfl

@[simp] theorem allocSplit_stats (b nextB size left : Nat) :
    (h.allocSplit b nextB size left).stats = h.stats := by
  simp [allocSplit]

@[simp] theorem reallocSplit_stats (b nextB size left : Nat) :
    (h.reallocSplit b nextB size left).stats = h.stats := by
  simp [reallocSplit]

@[simp] theorem mergeNext_stats (b : Nat) : (h.mergeNext b).stats = h.stats := by
  unfold mergeNext
  split <;> simp

@[simp] theorem mergePrev_stats (b : Nat) : (h.mergePrev b).stats = h.stats := by
  unfold mergePrev
  split <;> simp

@[simp] theorem releaseBlk_stats (b : Nat) : (h.releaseBlk b).stats = h.stats := by
  simp [releaseBlk]

/-- `addsize`: the saturation of `free_size` is the truncation of `Nat` subtraction. -/
@[simp] theorem addsize_stats (size reqSize : Nat) :
    (h.addsize size reqSize).stats = (h.stats.1 + size, h.stats.2 - size) := by
  have hfree : (if h.freeSize > size then h.freeSize - size else 0) = h.freeSize - size := by
    split_ifs <;> omega
  simp only [stats, addsize, hfree]

/-- `removesize`: the saturation of `used_size` is the truncation of `Nat` subtraction. -/
@[simp] theorem removesize_stats (size : Nat) :
    (h.removesize size).stats = (h.stats.1 - size, h.stats.2 + size) := by
  have hused : (if h.usedSize > size then h.usedSize - size else 0) = h.usedSize - size := by
    split_ifs <;> omega
  simp only [stats, removesize, hused]

@[simp] theorem addsize_mmGetBlkSize (size reqSize b : Nat) :
    (h.addsize size reqSize).mmGetBlkSize b = h.mmGetBlkSize b := rfl

/-- Setting flags in a header keeps every block's size. -/
theorem setFlags_mmGetBufSize (b a : Nat) {m : Nat} (hm : m < 8) :
    (h.setBlk b fun x => { x with bufSize := x.bufSize ||| m }).mmGetBufSize a = h.mmGetBufSize a := by
  by_cases hab : a = b
  · subst hab
    simp [mmGetBufSize, mask_lor_flags _ hm]
  · simp [mmGetBufSize, hab]

/-! ## What each call does to the statistics -/

/-- `h'` is `h` with `c` bytes moved from free to used, as `addsize` moves them. -/
def Charges (h' : MmHead) (c : Nat) : Prop := h'.stats = (h.usedSize + c, h.freeSize - c)

/-- `h'` is `h` with `c` bytes moved from used to free, as `removesize` moves them. -/
def Releases (h' : MmHead) (c : Nat) : Prop := h'.stats = (h.usedSize - c, h.freeSize + c)

variable {h}

theorem Charges.statSum_le {h' : MmHead} {c : Nat} (hc : h.Charges h' c) :
    h.usedSize + h.freeSize ≤ h'.usedSize + h'.freeSize := by
  have hu : h'.usedSize = h.usedSize + c := congrArg Prod.fst hc
  have hf : h'.freeSize = h.freeSize - c := congrArg Prod.snd hc
  omega

theorem Releases.statSum_le {h' : MmHead} {c : Nat} (hc : h.Releases h' c) :
    h.usedSize + h.freeSize ≤ h'.usedSize + h'.freeSize := by
  have hu : h'.usedSize = h.usedSize - c := congrArg Prod.fst hc
  have hf : h'.freeSize = h.freeSize + c := congrArg Prod.snd hc
  omega

variable (h)

/-- A fixed block is charged `DEF_FIX_BLK_SIZE`, whatever was asked. -/
theorem kMmSmallblkAlloc_charges (size : Nat) (hp : (h.kMmSmallblkAlloc size).2 ≠ 0) :
    h.Charges (h.kMmSmallblkAlloc size).1 defFixBlkSize := by
  unfold kMmSmallblkAlloc at hp ⊢
  split
  · rw [Charges, addsize_stats]
    rfl
  · -- the pool had no block: nothing was handed out
    simp at hp

/-- The block `k_mm_alloc` takes is charged its size once split and marked used. -/
theorem takeBlk_charges (getB size reqSize : Nat) :
    h.Charges (h.takeBlk getB size reqSize).1 ((h.takeBlk getB size reqSize).1.mmGetBlkSize getB) := by
  simp only [Charges, takeBlk, addsize_stats, addsize_mmGetBlkSize, setBlk_stats, apply_ite stats,
    allocSplit_stats, kMmFreelistDelete_stats, ite_self]
  rfl

theorem kMmAllocTlf_charges (reqSize : Nat) :
    ∀ r ∈ h.kMmAllocTlf reqSize, r = (h, 0) ∨ h.Charges r.1 (r.1.mmGetBlkSize (r.2 - mmlistHeadSize)) := by
  intro r hr
  unfold kMmAllocTlf at hr
  split at hr
  · exact Or.inl (Option.mem_some_iff.mp hr).symm
  · simp only [Option.mem_def, Option.map_eq_some_iff] at hr
    obtain ⟨getB, -, hget⟩ := hr
    subst hget
    split_ifs with hb
    · exact Or.inl rfl
    · right
      rw [takeBlk_snd, Nat.add_sub_cancel]
      exact takeBlk_charges h getB _ _

/-- What `k_mm_alloc` does to the statistics: nothing when it hands nothing out, else it
charges `DEF_FIX_BLK_SIZE` for a fixed block, or the `MM_GET_BLK_SIZE` the block it
hands out has when the call returns. -/
theorem kMmAlloc_charges (size : Nat) :
    ∀ r ∈ h.kMmAlloc size, r = (h, 0) ∨ h.Charges r.1 defFixBlkSize ∨
      h.Charges r.1 (r.1.mmGetBlkSize (r.2 - mmlistHeadSize)) := by
  intro r hr
  unfold kMmAlloc at hr
  split_ifs at hr with h0 hsmall
  · exact Or.inl (Option.mem_some_iff.mp hr).symm
  · rw [← Option.mem_some_iff.mp hr]
    exact Or.inr (Or.inl (kMmSmallblkAlloc_charges h size hsmall.2.2.2))
  · rcases kMmAllocTlf_charges h size r hr with hr | hc
    · exact Or.inl hr
    · exact Or.inr (Or.inr hc)

theorem kMmAlloc_statSum_le (size : Nat) :
    ∀ r ∈ h.kMmAlloc size, h.usedSize + h.freeSize ≤ r.1.usedSize + r.1.freeSize := by
  intro r hr
  rcases kMmAlloc_charges h size r hr with rfl | hc | hc
  · exact le_rfl
  · exact hc.statSum_le
  · exact hc.statSum_le

theorem kMmSmallblkFree_releases (ptr : Nat) :
    h.kMmSmallblkFree ptr = h ∨ h.Releases (h.kMmSmallblkFree ptr) defFixBlkSize := by
  unfold kMmSmallblkFree
  split_ifs
  · exact Or.inl rfl
  · split
    · right
      rw [Releases, removesize_stats]
      rfl
    · exact Or.inl rfl

/-- What `k_mm_free` does to the statistics: it releases `DEF_FIX_BLK_SIZE` for a fixed
block, and for a block of the lists the `MM_GET_BLK_SIZE` it had before the call. -/
theorem kMmFree_releases (ptr : Nat) :
    h.kMmFree ptr = h ∨ h.Releases (h.kMmFree ptr) defFixBlkSize ∨
      h.Releases (h.kMmFree ptr) (h.mmGetBlkSize (ptr - mmlistHeadSize)) := by
  unfold kMmFree
  split_ifs with h0 hfix
  · exact Or.inl rfl
  · rcases kMmSmallblkFree_releases h ptr with he | hr
    · exact Or.inl he
    · exact Or.inr (Or.inl hr)
  · -- the free bit set first leaves the size `removesize` reads as it was
    right; right
    simp only [Releases, releaseBlk_stats, mergePrev_stats, mergeNext_stats, removesize_stats,
      setBlk_stats, mmGetBlkSize, setFlags_mmGetBufSize _ _ _ (show rhinoMmFree < 8 by decide)]
    rfl

theorem kMmFree_statSum_le (ptr : Nat) :
    h.usedSize + h.freeSize ≤ (h.kMmFree ptr).usedSize + (h.kMmFree ptr).freeSize := by
  rcases kMmFree_releases h ptr with he | hr | hr
  · rw [he]
  · exact hr.statSum_le
  · exact hr.statSum_le

/-- The shrink of `k_mm_realloc` releases the block's old size and charges its new one. -/
theorem reallocShrink_stats (thisB nextB oldSize size reqSize : Nat) :
    (h.reallocShrink thisB nextB oldSize size reqSize).stats =
      (h.usedSize - h.mmGetBlkSize thisB + (h.reallocShrink thisB nextB oldSize size reqSize).mmGetBlkSize thisB,
        h.freeSize + h.mmGetBlkSize thisB - (h.reallocShrink thisB nextB oldSize size reqSize).mmGetBlkSize thisB) := by
  simp only [reallocShrink, addsize_stats, addsize_mmGetBlkSize, apply_ite stats, reallocSplit_stats,
    kMmFreelistDelete_stats, removesize_stats, ite_self]
  rfl

/-- The growth of `k_mm_realloc` releases the block's old size and charges its new one. -/
theorem reallocEnlarge_stats (thisB nextB size reqSize : Nat) :
    (h.reallocEnlarge thisB nextB size reqSize).stats =
      (h.usedSize - h.mmGetBlkSize thisB + (h.reallocEnlarge thisB nextB size reqSize).mmGetBlkSize thisB,
        h.freeSize + h.mmGetBlkSize thisB - (h.reallocEnlarge thisB nextB size reqSize).mmGetBlkSize thisB) := by
  simp only [reallocEnlarge, addsize_stats, addsize_mmGetBlkSize, apply_ite stats, reallocSplit_stats,
    setBlk_stats, absorb_stats, kMmFreelistDelete_stats, removesize_stats, ite_self]
  rfl

/-- A release followed by a charge never lowers the sum. -/
theorem statSum_le_of_stats {h' : MmHead} {a b : Nat} (hs : h'.stats = (h.usedSize - a + b, h.freeSize + a - b)) :
    h.usedSize + h.freeSize ≤ h'.usedSize + h'.freeSize := by
  have hu : h'.usedSize = h.usedSize - a + b := congrArg Prod.fst hs
  have hf : h'.freeSize = h.freeSize + a - b := congrArg Prod.snd hs
  omega

theorem kMmRealloc_statSum_le (oldmem newSize : Nat) :
    ∀ r ∈ h.kMmRealloc oldmem newSize, h.usedSize + h.freeSize ≤ r.1.usedSize + r.1.freeSize := by
  intro r hr
  unfold kMmRealloc at hr
  split_ifs at hr with h0 hpos hzero hfix hsmall
  · exact kMmAlloc_statSum_le h newSize r hr
  · rw [← Option.mem_some_iff.mp hr]
  · rw [← Option.mem_some_iff.mp hr]
    exact kMmFree_statSum_le h oldmem
  · rw [← Option.mem_some_iff.mp hr]
  · -- a fixed block moved to the lists: a charge, then the fixed block released
    simp only [Option.mem_def, Option.map_eq_some_iff] at hr
    obtain ⟨r', hr', rfl⟩ := hr
    have halloc := kMmAlloc_statSum_le h newSize r' hr'
    split_ifs
    · rcases kMmSmallblkFree_releases r'.1 oldmem with he | hrel
      · simpa [he] using halloc
      · exact le_trans halloc hrel.statSum_le
    · exact halloc
  · -- a block of the lists: in place, or moved
    dsimp only at hr
    split_ifs at hr with hshrink hgrow
    · rw [← Option.mem_some_iff.mp hr]
      exact statSum_le_of_stats h (reallocShrink_stats h _ _ _ _ _)
    · rw [← Option.mem_some_iff.mp hr]
      exact statSum_le_of_stats h (reallocEnlarge_stats h _ _ _ _)
    · -- moved: a charge for the new block, then the old one released
      simp only [Option.mem_def, Option.map_eq_some_iff] at hr
      obtain ⟨r', hr', rfl⟩ := hr
      have halloc := kMmAlloc_statSum_le h _ r' hr'
      split_ifs
      · exact halloc
      · exact le_trans halloc (kMmFree_statSum_le r'.1 oldmem)

/-- One call never lowers `used_size + free_size`. -/
theorem mmCall_statSum_le (c : MmCall) :
    ∀ r ∈ h.mmCall c, h.usedSize + h.freeSize ≤ r.1.usedSize + r.1.freeSize := by
  intro r hr
  cases c with
  | alloc size => exact kMmAlloc_statSum_le h size r hr
  | free ptr =>
    rw [mmCall, Option.mem_some_iff] at hr
    subst hr
    exact kMmFree_statSum_le h ptr
  | realloc ptr size => exact kMmRealloc_statSum_le h ptr size r hr

/-- No run of calls lowers `used_size + free_size`: the statistics can lose track of
bytes only by counting more than the heap has. -/
theorem mmRun_statSum_le (cs : List MmCall) :
    ∀ h' ∈ h.mmRun cs, h.usedSize + h.freeSize ≤ h'.usedSize + h'.freeSize := by
  induction cs generalizing h with
  | nil =>
    intro h' hh'
    rw [mmRun, Option.mem_some_iff] at hh'
    exact hh' ▸ le_rfl
  | cons c cs ih =>
    intro h' hh'
    simp only [mmRun, Option.mem_def, Option.bind_eq_some_iff] at hh'
    obtain ⟨r, hr, hrun⟩ := hh'
    exact le_trans (mmCall_statSum_le h c r hr) (ih r.1 h' hrun)

/-- One allocation of `16` bytes from the fresh heap of 16 KiB. -/
theorem mmRun_statSum_le_alloc16 :
    ∃ h' ∈ heap16k.mmRun [.alloc 16], heap16k.usedSize + heap16k.freeSize ≤ h'.usedSize + h'.freeSize := by
  obtain ⟨h', hh'⟩ := Option.isSome_iff_exists.mp (by decide +kernel : (heap16k.mmRun [.alloc 16]).isSome)
  exact ⟨h', hh', mmRun_statSum_le heap16k [.alloc 16] h' hh'⟩

/-! ## A call that takes more than `free_size` counts -/

theorem kMmAlloc_saturates_freeSize (h : MmHead) (size : Nat) :
    ∀ r ∈ h.kMmAlloc size, h.freeSize < r.1.usedSize - h.usedSize →
      r.1.freeSize = 0 ∧ h.usedSize + h.freeSize < r.1.usedSize + r.1.freeSize := by
  intro r hr hover
  -- every outcome is a charge, of nothing when nothing is handed out
  obtain ⟨c, hc⟩ : ∃ c, h.Charges r.1 c := by
    rcases kMmAlloc_charges h size r hr with rfl | hc | hc
    · exact ⟨0, by simp [Charges, stats]⟩
    · exact ⟨_, hc⟩
    · exact ⟨_, hc⟩
  have hu : r.1.usedSize = h.usedSize + c := congrArg Prod.fst hc
  have hf : r.1.freeSize = h.freeSize - c := congrArg Prod.snd hc
  omega

/-- The calls that take all of `heap16k` but one fixed block: the one block of its free
lists, whole, then 255 of the 256 fixed blocks. -/
def exhaust16k : List MmCall := .alloc 7912 :: List.replicate 255 (.alloc 1)

/-- `heap16k` after `exhaust16k`. -/
def heap16kExhausted : MmHead := (heap16k.mmRun exhaust16k).getD heap16k

/-- The last fixed block of `heap16kExhausted`, and the heap after `k_mm_alloc(1)` took it. -/
def heap16kLast : MmHead × Nat := (heap16kExhausted.kMmAlloc 1).getD (heap16kExhausted, 0)

theorem kMmAlloc_saturates_freeSize_heap16k :
    heap16kExhausted ∈ heap16k.mmRun exhaust16k ∧ heap16kLast ∈ heap16kExhausted.kMmAlloc 1 ∧
      heap16kExhausted.freeSize < heap16kLast.1.usedSize - heap16kExhausted.usedSize ∧
      heap16kLast.1.usedSize = 16392 ∧
      (heap16kLast.1.freeSize = 0 ∧
        heap16kExhausted.usedSize + heap16kExhausted.freeSize <
          heap16kLast.1.usedSize + heap16kLast.1.freeSize) := by
  -- one run of the kernel evaluates the calls for all four facts
  obtain ⟨hsome, hsome', hover, hused⟩ : (heap16k.mmRun exhaust16k).isSome ∧
      (heap16kExhausted.kMmAlloc 1).isSome ∧
      heap16kExhausted.freeSize < heap16kLast.1.usedSize - heap16kExhausted.usedSize ∧
      heap16kLast.1.usedSize = 16392 := by
    decide +kernel
  have hlast : heap16kLast ∈ heap16kExhausted.kMmAlloc 1 :=
    (Option.getD_of_ne_none (Option.ne_none_iff_isSome.mpr hsome') _).symm
  exact ⟨(Option.getD_of_ne_none (Option.ne_none_iff_isSome.mpr hsome) _).symm, hlast, hover, hused,
    kMmAlloc_saturates_freeSize heap16kExhausted 1 heap16kLast hlast hover⟩

end MmHead

end Rhino
