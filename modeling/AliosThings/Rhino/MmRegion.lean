import AliosThings.Rhino.MmFreelist
import AliosThings.Lib.Tiles

/-!
# The regions of the heap

`init_mm_region` tiles a region with three blocks: the block of the region's info at
`r`, the block of the heap, and a sentinel `e` of buffer size `0`. From then on the
blocks from `r` to `e` tile the region: each block ends, `MM_GET_NEXT_BLK`, where the
next one starts. `RegionInv` is what the heap keeps of them between two calls:

* the `RHINO_MM_PREVFREE` bit of a block's successor is the block's `RHINO_MM_FREE`
  bit, and the successor of a free block names it as its `prev`;
* no two neighbours are free, and the info block and the sentinel are used;
* every free block is in the free list of its level, and only those are;
* the block of the fixed-block pool, when there is one, is a used block of the region.

The calls rewrite the headers of a window of neighbouring blocks and of the block
right after it, and leave every other header alone. `RegionInv.window` states once
what such a rewrite must establish of the window for the whole region to keep the
invariant; each call then proves only the facts of its own window.
-/

namespace Rhino

namespace MmHead

/-- `buf_size & RHINO_MM_FREE`: the block is free. -/
def IsFree (h : MmHead) (b : Nat) : Prop := (h.blk b).bufSize &&& rhinoMmFree ≠ 0

/-- `buf_size & RHINO_MM_PREVFREE`: the block before it is free. -/
def PrevFree (h : MmHead) (b : Nat) : Prop := (h.blk b).bufSize &&& rhinoMmPrevfree ≠ 0

instance (h : MmHead) (b : Nat) : Decidable (h.IsFree b) := inferInstanceAs (Decidable (_ ≠ 0))

instance (h : MmHead) (b : Nat) : Decidable (h.PrevFree b) := inferInstanceAs (Decidable (_ ≠ 0))

/-! ## The flags of a size word under the writes of `k_mm.c` -/

/-- The two flags are bits of the word's lowest three. -/
theorem flag_mod (w : Nat) {m : Nat} (hm : m < 8) : w &&& m = w % 8 &&& m :=
  LowBits.land_low (k := 3) w m hm

theorem lor_mod (w : Nat) {m : Nat} (hm : m < 8) : (w ||| m) % 8 = w % 8 ||| m := by
  rw [LowBits.lor_low (k := 3) w m hm]
  exact LowBits.mod_of_split (k := 3) (Nat.or_lt_two_pow (Nat.mod_lt _ (by norm_num)) hm)

theorem land_sizeNot_mod (w : Nat) {m : Nat} (hm : m < 8) : (w &&& sizeNot m) % 8 = w % 8 &&& (7 - m) := by
  rw [land_sizeNot w hm]
  exact LowBits.mod_of_split (k := 3) (Nat.and_lt_two_pow _ (by norm_num; omega))

theorem add_aligned_mod (w : Nat) {s : Nat} (hs : s % 8 = 0) : (w + s) % 8 = w % 8 := by
  omega

theorem aligned_lor_mod {s : Nat} (hs : s % 8 = 0) {m : Nat} (hm : m < 8) : (s ||| m) % 8 = m := by
  rw [lor_mod s hm, hs, Nat.zero_or]

/-- A flag of a word is a flag of its lowest three bits. -/
theorem flag_iff_mod (w : Nat) {m : Nat} (hm : m < 8) : w &&& m ≠ 0 ↔ w % 8 &&& m ≠ 0 := by
  rw [flag_mod w hm]

/-- What the writes of `k_mm.c` leave of the two flags, as facts about three bits. -/
theorem low_flags (a : Nat) (ha : a < 8) :
    (a ||| 1) &&& 1 ≠ 0 ∧ ((a ||| 1) &&& 2 ≠ 0 ↔ a &&& 2 ≠ 0) ∧
    ((a ||| 2) &&& 1 ≠ 0 ↔ a &&& 1 ≠ 0) ∧ (a ||| 2) &&& 2 ≠ 0 ∧
    ((a &&& (7 - 2)) &&& 1 ≠ 0 ↔ a &&& 1 ≠ 0) ∧ (a &&& (7 - 2)) &&& 2 = 0 ∧
    (a &&& (7 - 1)) &&& 1 = 0 ∧ ((a &&& (7 - 1)) &&& 2 ≠ 0 ↔ a &&& 2 ≠ 0) ∧
    (a &&& 2) &&& 1 = 0 ∧ ((a &&& 2) &&& 2 ≠ 0 ↔ a &&& 2 ≠ 0) := by
  interval_cases a <;> decide

section Word

variable (w : Nat)

@[simp] theorem lor_free_free : (w ||| rhinoMmFree) &&& rhinoMmFree ≠ 0 := by
  rw [flag_iff_mod _ (by decide), lor_mod _ (by decide)]
  exact (low_flags _ (Nat.mod_lt w (by norm_num))).1

@[simp] theorem lor_free_prevFree : (w ||| rhinoMmFree) &&& rhinoMmPrevfree ≠ 0 ↔ w &&& rhinoMmPrevfree ≠ 0 := by
  rw [flag_iff_mod _ (by decide), lor_mod _ (by decide), flag_iff_mod w (by decide)]
  exact (low_flags _ (Nat.mod_lt w (by norm_num))).2.1

@[simp] theorem lor_prevFree_free : (w ||| rhinoMmPrevfree) &&& rhinoMmFree ≠ 0 ↔ w &&& rhinoMmFree ≠ 0 := by
  rw [flag_iff_mod _ (by decide), lor_mod _ (by decide), flag_iff_mod w (by decide)]
  exact (low_flags _ (Nat.mod_lt w (by norm_num))).2.2.1

@[simp] theorem lor_prevFree_prevFree : (w ||| rhinoMmPrevfree) &&& rhinoMmPrevfree ≠ 0 := by
  rw [flag_iff_mod _ (by decide), lor_mod _ (by decide)]
  exact (low_flags _ (Nat.mod_lt w (by norm_num))).2.2.2.1

@[simp] theorem clearPrevFree_free :
    (w &&& sizeNot rhinoMmPrevfree) &&& rhinoMmFree ≠ 0 ↔ w &&& rhinoMmFree ≠ 0 := by
  rw [flag_iff_mod _ (by decide), land_sizeNot_mod _ (by decide), flag_iff_mod w (by decide)]
  exact (low_flags _ (Nat.mod_lt w (by norm_num))).2.2.2.2.1

@[simp] theorem clearPrevFree_prevFree : ¬ (w &&& sizeNot rhinoMmPrevfree) &&& rhinoMmPrevfree ≠ 0 := by
  rw [flag_iff_mod _ (by decide), land_sizeNot_mod _ (by decide), not_not]
  exact (low_flags _ (Nat.mod_lt w (by norm_num))).2.2.2.2.2.1

@[simp] theorem clearFree_free : ¬ (w &&& sizeNot rhinoMmFree) &&& rhinoMmFree ≠ 0 := by
  rw [flag_iff_mod _ (by decide), land_sizeNot_mod _ (by decide), not_not]
  exact (low_flags _ (Nat.mod_lt w (by norm_num))).2.2.2.2.2.2.1

@[simp] theorem clearFree_prevFree :
    (w &&& sizeNot rhinoMmFree) &&& rhinoMmPrevfree ≠ 0 ↔ w &&& rhinoMmPrevfree ≠ 0 := by
  rw [flag_iff_mod _ (by decide), land_sizeNot_mod _ (by decide), flag_iff_mod w (by decide)]
  exact (low_flags _ (Nat.mod_lt w (by norm_num))).2.2.2.2.2.2.2.1

/-- A size that is a multiple of `MM_ALIGN_SIZE` leaves the flags alone. -/
theorem add_aligned_flag {s : Nat} (hs : s % 8 = 0) {m : Nat} (hm : m < 8) :
    (w + s) &&& m ≠ 0 ↔ w &&& m ≠ 0 := by
  rw [flag_iff_mod _ hm, add_aligned_mod w hs, flag_iff_mod w hm]

/-- The split keeps the `PREVFREE` bit and clears the `FREE` bit. -/
theorem split_free {s : Nat} (hs : s % 8 = 0) : ¬ (s ||| (w &&& rhinoMmPrestatMask)) &&& rhinoMmFree ≠ 0 := by
  rw [flag_iff_mod _ (by decide), aligned_lor_mod hs (prestat_lt w), not_not, flag_mod w (by decide)]
  exact (low_flags _ (Nat.mod_lt w (by norm_num))).2.2.2.2.2.2.2.2.1

theorem split_prevFree {s : Nat} (hs : s % 8 = 0) :
    (s ||| (w &&& rhinoMmPrestatMask)) &&& rhinoMmPrevfree ≠ 0 ↔ w &&& rhinoMmPrevfree ≠ 0 := by
  rw [flag_iff_mod _ (by decide), aligned_lor_mod hs (prestat_lt w), flag_mod w (by decide),
    flag_iff_mod w (by decide)]
  exact (low_flags _ (Nat.mod_lt w (by norm_num))).2.2.2.2.2.2.2.2.2

/-- The word of a new free block after a used one. -/
theorem newFree_free {s : Nat} (hs : s % 8 = 0) : (s ||| rhinoMmFree ||| rhinoMmPrevalloced) &&& rhinoMmFree ≠ 0 := by
  rw [flag_iff_mod _ (by decide), lor_mod _ (by decide), aligned_lor_mod hs (by decide)]
  decide

theorem newFree_prevFree {s : Nat} (hs : s % 8 = 0) :
    ¬ (s ||| rhinoMmFree ||| rhinoMmPrevalloced) &&& rhinoMmPrevfree ≠ 0 := by
  rw [flag_iff_mod _ (by decide), lor_mod _ (by decide), aligned_lor_mod hs (by decide)]
  decide

end Word

/-! ## Sizes under the writes -/

/-- Adding a block's size to a word adds it to the buffer size it holds, below `2 ^ 32`. -/
theorem add_aligned_mask (w : Nat) {s : Nat} (hs : s % 8 = 0)
    (hlt : (w &&& sizeNot mmAlignMask) + s < 2 ^ 32) :
    (w + s) &&& sizeNot mmAlignMask = (w &&& sizeNot mmAlignMask) + s := by
  rw [land_sizeNot_mask, land_sizeNot_mask] at *
  omega

/-- The word of a new block reads back as its size. -/
theorem newFree_mask {s : Nat} (hs : s % 8 = 0) (hs' : s < 2 ^ 32) :
    (s ||| rhinoMmFree ||| rhinoMmPrevalloced) &&& sizeNot mmAlignMask = s := by
  rw [mask_lor_flags _ (by decide), mask_lor_flags _ (by decide), mask_aligned hs hs']

/-- A word below `2 ^ 32` holds its buffer size and the flags, nothing more. -/
theorem le_mask_add {w : Nat} (hw : w < 2 ^ 32) : w < (w &&& sizeNot mmAlignMask) + 8 := by
  rw [land_sizeNot_mask]
  omega

theorem mmGetBufSize_mod (h : MmHead) (b : Nat) : h.mmGetBufSize b % 8 = 0 := by
  rw [mmGetBufSize_eq]
  omega

theorem mmGetBlkSize_mod (h : MmHead) (b : Nat) : h.mmGetBlkSize b % 8 = 0 := by
  have := h.mmGetBufSize_mod b
  simp only [mmGetBlkSize, mmlistHeadSize]
  omega

/-! ## What a heap reads of one header -/

/-- The flags and the `prev` of the header at `a` are the same in `h'` as in `h`. -/
structure SameFlags (h h' : MmHead) (a : Nat) : Prop where
  free : h'.IsFree a ↔ h.IsFree a
  prevFree : h'.PrevFree a ↔ h.PrevFree a
  prev : (h'.blk a).prev = (h.blk a).prev

theorem SameFlags.of_header {h h' : MmHead} {a : Nat} (hh : Header (h'.blk a) = Header (h.blk a)) :
    SameFlags h h' a := by
  simp only [Header, Prod.mk.injEq] at hh
  exact ⟨by rw [IsFree, IsFree, hh.2], by rw [PrevFree, PrevFree, hh.2], hh.1⟩

theorem mmGetBufSize_of_header {h h' : MmHead} {a : Nat} (hh : Header (h'.blk a) = Header (h.blk a)) :
    h'.mmGetBufSize a = h.mmGetBufSize a := by
  simp only [Header, Prod.mk.injEq] at hh
  rw [mmGetBufSize, mmGetBufSize, hh.2]

theorem mmGetNextBlk_of_header {h h' : MmHead} {a : Nat} (hh : Header (h'.blk a) = Header (h.blk a)) :
    h'.mmGetNextBlk a = h.mmGetNextBlk a := by
  rw [mmGetNextBlk, mmGetNextBlk, mmGetBufSize_of_header hh]

theorem header_of_sameHeaders {h h' : MmHead} (hs : h.SameHeaders h') (a : Nat) :
    Header (h'.blk a) = Header (h.blk a) :=
  hs a

theorem header_setBlk_ne (h : MmHead) {b a : Nat} (f : MmList → MmList) (hne : a ≠ b) :
    Header ((h.setBlk b f).blk a) = Header (h.blk a) := by
  rw [setBlk_blk_ne _ _ hne]

/-- A write of a header that keeps its flags and `prev`. -/
theorem SameFlags.setBlk (h : MmHead) {b : Nat} (f : MmList → MmList) (hp : (f (h.blk b)).prev = (h.blk b).prev)
    (hfree : (f (h.blk b)).bufSize &&& rhinoMmFree ≠ 0 ↔ (h.blk b).bufSize &&& rhinoMmFree ≠ 0)
    (hpf : (f (h.blk b)).bufSize &&& rhinoMmPrevfree ≠ 0 ↔ (h.blk b).bufSize &&& rhinoMmPrevfree ≠ 0) (a : Nat) :
    SameFlags h (h.setBlk b f) a := by
  by_cases hab : a = b
  · subst hab
    refine ⟨?_, ?_, ?_⟩
    · simp only [IsFree, setBlk_blk, Function.update_self]
      exact hfree
    · simp only [PrevFree, setBlk_blk, Function.update_self]
      exact hpf
    · simp only [setBlk_blk, Function.update_self]
      exact hp
  · exact SameFlags.of_header (header_setBlk_ne h f hab)

theorem SameFlags.trans {h h' h'' : MmHead} {a : Nat} (h₁ : SameFlags h h' a) (h₂ : SameFlags h' h'' a) :
    SameFlags h h'' a :=
  ⟨h₂.free.trans h₁.free, h₂.prevFree.trans h₁.prevFree, h₂.prev.trans h₁.prev⟩

/-- The reads of one header, at the block being written. -/
@[simp] theorem isFree_setBlk_self (h : MmHead) (b : Nat) (f : MmList → MmList) :
    (h.setBlk b f).IsFree b ↔ (f (h.blk b)).bufSize &&& rhinoMmFree ≠ 0 := by
  simp [IsFree]

@[simp] theorem prevFree_setBlk_self (h : MmHead) (b : Nat) (f : MmList → MmList) :
    (h.setBlk b f).PrevFree b ↔ (f (h.blk b)).bufSize &&& rhinoMmPrevfree ≠ 0 := by
  simp [PrevFree]

@[simp] theorem mmGetBufSize_setBlk_self (h : MmHead) (b : Nat) (f : MmList → MmList) :
    (h.setBlk b f).mmGetBufSize b = (f (h.blk b)).bufSize &&& sizeNot mmAlignMask := by
  simp [mmGetBufSize]

theorem isFree_setBlk_ne (h : MmHead) {b a : Nat} (f : MmList → MmList) (hne : a ≠ b) :
    (h.setBlk b f).IsFree a ↔ h.IsFree a :=
  (SameFlags.of_header (header_setBlk_ne h f hne)).free

theorem mmGetBufSize_setBlk_ne (h : MmHead) {b a : Nat} (f : MmList → MmList) (hne : a ≠ b) :
    (h.setBlk b f).mmGetBufSize a = h.mmGetBufSize a :=
  mmGetBufSize_of_header (header_setBlk_ne h f hne)

theorem SameHeaders.isFree {h h' : MmHead} (hs : h.SameHeaders h') (a : Nat) : h'.IsFree a ↔ h.IsFree a :=
  (SameFlags.of_header (hs a)).free

theorem SameHeaders.prevFree {h h' : MmHead} (hs : h.SameHeaders h') (a : Nat) : h'.PrevFree a ↔ h.PrevFree a :=
  (SameFlags.of_header (hs a)).prevFree

/-! ## One block and the one after it -/

/-- Block `x` and the header after it: the successor's `PREVFREE` bit is `x`'s `FREE`
bit, the successor of a free `x` names it as `prev`, and no free block is followed by a
free block. -/
structure LinkOk (h : MmHead) (x : Nat) : Prop where
  prevFree : h.PrevFree (h.mmGetNextBlk x) ↔ h.IsFree x
  prev : h.IsFree x → (h.blk (h.mmGetNextBlk x)).prev = x
  coalesced : h.IsFree x → ¬ h.IsFree (h.mmGetNextBlk x)

/-- The link of `x` reads `x`'s flag and size, and the flags of its successor. -/
theorem LinkOk.congr {h h' : MmHead} {x : Nat} (hl : h.LinkOk x) (hx : h'.IsFree x ↔ h.IsFree x)
    (hn : h'.mmGetNextBlk x = h.mmGetNextBlk x) (hs : SameFlags h h' (h.mmGetNextBlk x)) : h'.LinkOk x := by
  refine ⟨?_, fun hf => ?_, fun hf => ?_⟩
  · rw [hn, hs.prevFree, hx]
    exact hl.prevFree
  · rw [hn, hs.prev]
    exact hl.prev (hx.mp hf)
  · rw [hn, hs.free]
    exact hl.coalesced (hx.mp hf)

theorem LinkOk.of_header {h h' : MmHead} {x : Nat} (hl : h.LinkOk x) (hx : Header (h'.blk x) = Header (h.blk x))
    (hn : Header (h'.blk (h.mmGetNextBlk x)) = Header (h.blk (h.mmGetNextBlk x))) : h'.LinkOk x :=
  hl.congr (SameFlags.of_header hx).free (mmGetNextBlk_of_header hx) (SameFlags.of_header hn)

/-- A free block ends where its successor, as `prev` names it, starts. -/
theorem LinkOk.next_of_prevFree {h : MmHead} {p : Nat} (hl : h.LinkOk p) (hp : h.PrevFree (h.mmGetNextBlk p)) :
    (h.blk (h.mmGetNextBlk p)).prev = p :=
  hl.prev (hl.prevFree.mp hp)

/-! ## The free lists under header writes -/

/-- Every size below `MM_MAX_SIZE` has a level. -/
theorem sizeToLevel_of_lt {size : Nat} (hs : size < mmMaxSize) : ∃ l, sizeToLevel size = some l := by
  have hs32 : size < 2 ^ 32 := lt_trans hs (by decide)
  have hx : (UInt32.ofNat size).toNat = size := UInt32.toNat_ofNat_of_lt' hs32
  unfold sizeToLevel krhinoClz32
  dsimp only
  by_cases h0 : UInt32.ofNat size = 0
  · rw [if_pos h0]
    exact ⟨0, rfl⟩
  · rw [if_neg h0]
    -- a size below `2 ^ 24` has at least eight leading zeros
    have hlo := (Bitmap.clz_bounds _ h0).1
    rw [hx] at hlo
    have hclz : 8 ≤ Bitmap.clz (UInt32.ofNat size) := by
      by_contra hc
      have : 2 ^ 24 ≤ 2 ^ (31 - Bitmap.clz (UInt32.ofNat size)) := Nat.pow_le_pow_right (by norm_num) (by omega)
      simp only [mmMaxSize, mmMaxBit] at hs
      omega
    split
    · exact ⟨0, rfl⟩
    · rw [if_neg (by simp only [mmMaxBit]; omega)]
      exact ⟨_, rfl⟩

namespace FreeLists

variable {h : MmHead} {ls : Nat → List Nat}

/-- The free lists read only the links, the heads, the bitmap and the sizes of their
blocks: a write of the header of a block in no list keeps them. -/
theorem setBlk (hf : h.FreeLists ls) {b : Nat} (f : MmList → MmList) (hb : ∀ l, b ∉ ls l)
    (hfp : ∀ x, (f x).freePrev = x.freePrev) (hfn : ∀ x, (f x).freeNext = x.freeNext) :
    (h.setBlk b f).FreeLists ls := by
  have hn : (h.setBlk b f).freeNextOf = h.freeNextOf := by
    funext a
    by_cases hab : a = b
    · subst hab
      simp [freeNextOf, hfn]
    · simp [freeNextOf, hab]
  have hp : (h.setBlk b f).freePrevOf = h.freePrevOf := by
    funext a
    by_cases hab : a = b
    · subst hab
      simp [freePrevOf, hfp]
    · simp [freePrevOf, hab]
  refine ⟨fun l => ?_, hf.nodup, fun l a ha => ?_, hf.lt, hf.bitmap⟩
  · rw [hn, hp]
    exact hf.chain l
  · rw [mmGetBufSize_setBlk_ne _ _ (show a ≠ b from fun hab => hb l (hab ▸ ha))]
    exact hf.level l a ha

/-- The statistics are not read by the free lists. -/
theorem congr {h' : MmHead} (hf : h.FreeLists ls) (hb : h'.blk = h.blk) (hl : h'.freelist = h.freelist)
    (hm : h'.freeBitmap = h.freeBitmap) : h'.FreeLists ls := by
  have hn : h'.freeNextOf = h.freeNextOf := freeNextOf_of_blk h hb
  have hp : h'.freePrevOf = h.freePrevOf := freePrevOf_of_blk h hb
  refine ⟨fun l => ?_, hf.nodup, fun l a ha => ?_, hf.lt, fun l hl' => ?_⟩
  · rw [hn, hp, hl]
    exact hf.chain l
  · rw [mmGetBufSize, hb]
    exact hf.level l a ha
  · rw [hm]
    exact hf.bitmap l hl'

/-- The blocks listed after `k_mm_freelist_delete`. -/
theorem listed_delete (hf : h.FreeLists ls) {b level : Nat} (hb : b ∈ ls level) (x : Nat) :
    (∃ l, x ∈ Function.update ls level ((ls level).erase b) l) ↔ (∃ l, x ∈ ls l) ∧ x ≠ b := by
  constructor
  · rintro ⟨l, hx⟩
    by_cases hl : l = level
    · subst hl
      rw [Function.update_self] at hx
      exact ⟨⟨l, List.mem_of_mem_erase hx⟩, fun hxb => ((hf.nodup l).mem_erase_iff.mp (hxb ▸ hx)).1 rfl⟩
    · rw [Function.update_of_ne hl] at hx
      exact ⟨⟨l, hx⟩, fun hxb => hl (hf.eq_of_mem hx (hxb ▸ hb))⟩
  · rintro ⟨⟨l, hx⟩, hxb⟩
    refine ⟨l, ?_⟩
    by_cases hl : l = level
    · subst hl
      rw [Function.update_self]
      exact (hf.nodup l).mem_erase_iff.mpr ⟨hxb, hx⟩
    · rw [Function.update_of_ne hl]
      exact hx

/-- The blocks listed after `k_mm_freelist_insert`. -/
theorem listed_insert (ls : Nat → List Nat) (b level x : Nat) :
    (∃ l, x ∈ Function.update ls level (b :: ls level) l) ↔ (∃ l, x ∈ ls l) ∨ x = b := by
  constructor
  · rintro ⟨l, hx⟩
    by_cases hl : l = level
    · subst hl
      rw [Function.update_self] at hx
      rcases List.mem_cons.mp hx with rfl | hx
      · exact .inr rfl
      · exact .inl ⟨l, hx⟩
    · rw [Function.update_of_ne hl] at hx
      exact .inl ⟨l, hx⟩
  · rintro (⟨l, hx⟩ | rfl)
    · by_cases hl : l = level
      · subst hl
        exact ⟨l, by rw [Function.update_self]; exact List.mem_cons_of_mem _ hx⟩
      · exact ⟨l, by rw [Function.update_of_ne hl]; exact hx⟩
    · exact ⟨level, by rw [Function.update_self]; exact List.mem_cons_self⟩

end FreeLists

/-! ## The invariant of a region -/

/-- The region from the info block `r` to the sentinel `e`, with the blocks `bs` of the
heap between them and the free lists `ls`. -/
structure RegionInv (h : MmHead) (r e : Nat) (bs : List Nat) (ls : Nat → List Nat) : Prop where
  /-- The blocks tile the region. -/
  tiles : Tiling.Tiles h.mmGetNextBlk r e (r :: bs)
  links : ∀ x ∈ r :: bs, h.LinkOk x
  info : ¬ h.IsFree r
  sentinel : h.mmGetBufSize e = 0 ∧ ¬ h.IsFree e
  minSize : ∀ x ∈ bs, mmMinSize ≤ h.mmGetBufSize x
  /-- The region lies below `2 ^ 32` and holds at most `MM_MAX_SIZE` bytes. -/
  bound : e ≤ r + mmMaxSize ∧ e < 2 ^ 32
  lists : h.FreeLists ls
  /-- The free lists hold the free blocks, and nothing else. -/
  listed : ∀ x, (∃ l, x ∈ ls l) ↔ x ∈ bs ∧ h.IsFree x
  /-- The block of the fixed-block pool is a used block, with a 32-bit size word. -/
  fixed : h.fixedmblk = 0 ∨ (h.fixedmblk ∈ bs ∧ ¬ h.IsFree h.fixedmblk ∧ (h.blk h.fixedmblk).bufSize < 2 ^ 32)

namespace RegionInv

variable {h : MmHead} {r e : Nat} {bs : List Nat} {ls : Nat → List Nat}

/-- Every block ends past its start. -/
theorem next_gt (h : MmHead) : ∀ c, c < h.mmGetNextBlk c := mmGetNextBlk_gt h

/-- A block of the heap ends inside the region: its size is below `MM_MAX_SIZE`. -/
theorem size_lt (hi : h.RegionInv r e bs ls) {x : Nat} (hx : x ∈ r :: bs) :
    h.mmGetBufSize x < mmMaxSize ∧ h.mmGetNextBlk x ≤ e ∧ r ≤ x := by
  have hle := hi.tiles.le_of_mem (next_gt h) hx
  have hb := hi.bound
  simp only [mmGetNextBlk, mmlistHeadSize] at hle
  exact ⟨by omega, hle.2, hle.1⟩

/-- The blocks of the heap lie past the info block, below `2 ^ 32`. -/
theorem lt_of_mem (hi : h.RegionInv r e bs ls) {x : Nat} (hx : x ∈ bs) : r < x :=
  lt_of_lt_of_le (next_gt h r) (List.rel_of_pairwise_cons (hi.tiles.pairwise (next_gt h)) hx)

theorem ne_zero (hi : h.RegionInv r e bs ls) {x : Nat} (hx : x ∈ bs) : x ≠ 0 :=
  Nat.ne_of_gt (lt_of_le_of_lt (Nat.zero_le r) (hi.lt_of_mem hx))

theorem lt_two_pow (hi : h.RegionInv r e bs ls) {x : Nat} (hx : x ∈ r :: bs) : x < 2 ^ 32 := by
  have := hi.size_lt hx
  have := next_gt h x
  have := hi.bound
  omega

/-- A free block has a level. -/
theorem level_of_free (hi : h.RegionInv r e bs ls) {x : Nat} (hx : x ∈ r :: bs) :
    ∃ l, sizeToLevel (h.mmGetBufSize x) = some l :=
  sizeToLevel_of_lt (hi.size_lt hx).1

theorem not_listed (hi : h.RegionInv r e bs ls) {x : Nat} (hx : ¬ h.IsFree x) (l : Nat) : x ∉ ls l :=
  fun hl => hx ((hi.listed x).mp ⟨l, hl⟩).2

/-- A free block of the heap is in the list of its level. -/
theorem mem_of_free (hi : h.RegionInv r e bs ls) {x : Nat} (hx : x ∈ bs) (hf : h.IsFree x) :
    ∃ l, x ∈ ls l ∧ sizeToLevel (h.mmGetBufSize x) = some l := by
  obtain ⟨l, hl⟩ := (hi.listed x).mpr ⟨hx, hf⟩
  exact ⟨l, hl, hi.lists.level l x hl⟩

/-- A region rewritten in a window of neighbouring blocks, from `a` up to `z`, keeps the
invariant when the window keeps it inside, the header before the window still reads
`a`'s flags, and `z` keeps its flag and its size. -/
theorem window {h' : MmHead} {ls' : Nat → List Nat} (hi : h.RegionInv r e bs ls) {pre win win' post : List Nat}
    {a z : Nat} (hbs : bs = pre ++ win ++ post) (hwne : win ≠ []) (hwin : Tiling.Tiles h.mmGetNextBlk a z win)
    (hwin' : Tiling.Tiles h'.mmGetNextBlk a z win')
    (hframe : ∀ x, x ∉ win → x ∉ win' → x ≠ z → Header (h'.blk x) = Header (h.blk x))
    (hpfa : h'.PrevFree a ↔ h.PrevFree a) (hpa : (h'.blk a).prev = (h.blk a).prev)
    (hca : h.PrevFree a → ¬ h'.IsFree a)
    (hzf : h'.IsFree z ↔ h.IsFree z) (hzs : h'.mmGetBufSize z = h.mmGetBufSize z)
    (hz32 : (h.blk z).bufSize < 2 ^ 32 → (h'.blk z).bufSize < 2 ^ 32)
    (hlinks : ∀ x ∈ win', h'.LinkOk x) (hmin : ∀ x ∈ win', mmMinSize ≤ h'.mmGetBufSize x)
    (hlists : h'.FreeLists ls')
    (hlisted : ∀ x, (∃ l, x ∈ ls' l) ↔ ((∃ l, x ∈ ls l) ∧ x ∉ win) ∨ (x ∈ win' ∧ h'.IsFree x))
    (hfixed : h'.fixedmblk = h.fixedmblk) (hfixwin : h.fixedmblk ∉ win) :
    h'.RegionInv r e (pre ++ win' ++ post) ls' := by
  have hgt := next_gt h
  have hgt' := next_gt h'
  -- the blocks before the window, and after it
  have htiles : Tiling.Tiles h.mmGetNextBlk r e ((r :: pre) ++ win ++ post) := by
    rw [List.cons_append, List.cons_append, ← hbs]
    exact hi.tiles
  obtain ⟨hpre, hpost⟩ := htiles.around hwne hwin
  have hpre_lt : ∀ x ∈ r :: pre, x < a := fun x hx =>
    lt_of_lt_of_le (hgt x) (hpre.le_of_mem hgt hx).2
  have hpost_ge : ∀ x ∈ post, z ≤ x := fun x hx => (hpost.le_of_mem hgt hx).1
  have hze : z ≤ e := hpost.le hgt
  have haz : a ≤ z := hwin.le hgt
  -- the window and its rewrite lie in `[a, z)`
  have hwin_in : ∀ x ∈ win, a ≤ x ∧ x < z := fun x hx =>
    ⟨(hwin.le_of_mem hgt hx).1, lt_of_lt_of_le (hgt x) (hwin.le_of_mem hgt hx).2⟩
  have hwin'_in : ∀ x ∈ win', a ≤ x ∧ x < z := fun x hx =>
    ⟨(hwin'.le_of_mem hgt' hx).1, lt_of_lt_of_le (hgt' x) (hwin'.le_of_mem hgt' hx).2⟩
  have hout : ∀ x, x < a ∨ z ≤ x → x ∉ win ∧ x ∉ win' := fun x hx =>
    ⟨fun hw => by have := hwin_in x hw; omega, fun hw => by have := hwin'_in x hw; omega⟩
  have hsame : ∀ x, x < a ∨ z < x → Header (h'.blk x) = Header (h.blk x) := fun x hx =>
    hframe x (hout x (hx.imp_right le_of_lt)).1 (hout x (hx.imp_right le_of_lt)).2 (by omega)
  have hfree : ∀ x, x < a ∨ z ≤ x → (h'.IsFree x ↔ h.IsFree x) := by
    intro x hx
    by_cases hxz : x = z
    · rw [hxz]
      exact hzf
    · exact (SameFlags.of_header (hsame x (by omega))).free
  have hsize : ∀ x, x < a ∨ z ≤ x → h'.mmGetBufSize x = h.mmGetBufSize x := by
    intro x hx
    by_cases hxz : x = z
    · rw [hxz]
      exact hzs
    · exact mmGetBufSize_of_header (hsame x (by omega))
  have hnext : ∀ x, x < a ∨ z ≤ x → h'.mmGetNextBlk x = h.mmGetNextBlk x := fun x hx => by
    rw [mmGetNextBlk, mmGetNextBlk, hsize x hx]
  have hpre_mem : ∀ x ∈ r :: pre, x ∈ r :: bs := fun x hx => by
    rw [hbs, ← List.cons_append, ← List.cons_append]
    exact List.mem_append_left _ (List.mem_append_left _ hx)
  have hpost_mem : ∀ x ∈ post, x ∈ r :: bs := fun x hx => by
    rw [hbs, ← List.cons_append, ← List.cons_append]
    exact List.mem_append_right _ hx
  have hmem_out : ∀ x ∈ pre ++ win' ++ post, x ∉ win' → x < a ∨ z ≤ x := by
    intro x hx hxw
    rcases List.mem_append.mp hx with hx | hx
    · rcases List.mem_append.mp hx with hx | hx
      · exact .inl (hpre_lt x (List.mem_cons_of_mem _ hx))
      · exact absurd hx hxw
    · exact .inr (hpost_ge x hx)
  refine ⟨?_, ?_, ?_, ?_, ?_, hi.bound, hlists, fun x => ?_, ?_⟩
  · -- the tiling: the blocks around the window end where they did
    have hpre' := hpre.frame fun x hx => hnext x (.inl (hpre_lt x hx))
    have hpost' := hpost.frame fun x hx => hnext x (.inr (hpost_ge x hx))
    rw [← List.cons_append, ← List.cons_append]
    exact Tiling.Tiles.append_iff.mpr ⟨z, Tiling.Tiles.append_iff.mpr ⟨a, hpre', hwin'⟩, hpost'⟩
  · intro x hx
    rw [← List.cons_append, ← List.cons_append] at hx
    rcases List.mem_append.mp hx with hx | hx
    · rcases List.mem_append.mp hx with hx | hx
      · -- before the window: the last block before it reads `a`'s flags
        have hxa := hpre_lt x hx
        have hl := hi.links x (hpre_mem x hx)
        have hxs := hsame x (.inl hxa)
        rcases hpre.next_mem hx with hn | hn
        · exact hl.of_header hxs (hsame _ (.inl (hpre_lt _ hn)))
        · have hfx := (SameFlags.of_header hxs).free
          have hnx := mmGetNextBlk_of_header hxs
          refine ⟨?_, fun hf => ?_, fun hf => ?_⟩
          · rw [hnx, hn, hpfa, hfx, ← hn]
            exact hl.prevFree
          · rw [hnx, hn, hpa, ← hn]
            exact hl.prev (hfx.mp hf)
          · rw [hnx, hn]
            exact hca (hn ▸ hl.prevFree.mpr (hfx.mp hf))
      · exact hlinks x hx
    · -- after the window: `z` keeps its flag and its size, the others their headers
      have hzx := hpost_ge x hx
      have hl := hi.links x (hpost_mem x hx)
      have hnz : z < h.mmGetNextBlk x := lt_of_le_of_lt hzx (hgt x)
      exact hl.congr (hfree x (.inr hzx)) (hnext x (.inr hzx)) (SameFlags.of_header (hsame _ (.inr hnz)))
  · exact (hfree r (.inl (hpre_lt r List.mem_cons_self))).not.mpr hi.info
  · exact ⟨(hsize e (.inr hze)).trans hi.sentinel.1, (hfree e (.inr hze)).not.mpr hi.sentinel.2⟩
  · intro x hx
    by_cases hxw : x ∈ win'
    · exact hmin x hxw
    · have hxo := hmem_out x hx hxw
      rw [hsize x hxo]
      refine hi.minSize x ?_
      rw [hbs]
      rcases List.mem_append.mp hx with hx | hx
      · exact List.mem_append_left _ (List.mem_append_left _ ((List.mem_append.mp hx).resolve_right hxw))
      · exact List.mem_append_right _ hx
  · -- the lists: the free blocks around the window, and those of the new window
    rw [hlisted x, hi.listed x]
    constructor
    · rintro (⟨⟨hxb, hxf⟩, hxw⟩ | ⟨hxw, hxf⟩)
      · rw [hbs] at hxb
        rcases List.mem_append.mp hxb with hxb | hxb
        · have hxp := (List.mem_append.mp hxb).resolve_right hxw
          exact ⟨List.mem_append_left _ (List.mem_append_left _ hxp),
            (hfree x (.inl (hpre_lt x (List.mem_cons_of_mem _ hxp)))).mpr hxf⟩
        · exact ⟨List.mem_append_right _ hxb, (hfree x (.inr (hpost_ge x hxb))).mpr hxf⟩
      · exact ⟨List.mem_append_left _ (List.mem_append_right _ hxw), hxf⟩
    · rintro ⟨hx, hxf⟩
      by_cases hxw : x ∈ win'
      · exact .inr ⟨hxw, hxf⟩
      · have hxo := hmem_out x hx hxw
        refine .inl ⟨⟨?_, (hfree x hxo).mp hxf⟩, (hout x hxo).1⟩
        rw [hbs]
        rcases List.mem_append.mp hx with hx | hx
        · exact List.mem_append_left _ (List.mem_append_left _ ((List.mem_append.mp hx).resolve_right hxw))
        · exact List.mem_append_right _ hx
  · rw [hfixed]
    rcases hi.fixed with h0 | ⟨hfb, hff, hf32⟩
    · exact .inl h0
    · right
      -- the pool's block lies outside the window
      rw [hbs] at hfb
      have hfo : h.fixedmblk < a ∨ z ≤ h.fixedmblk := by
        rcases List.mem_append.mp hfb with hfb | hfb
        · exact .inl (hpre_lt _ (List.mem_cons_of_mem _ ((List.mem_append.mp hfb).resolve_right hfixwin)))
        · exact .inr (hpost_ge _ hfb)
      refine ⟨?_, (hfree _ hfo).not.mpr hff, ?_⟩
      · rcases List.mem_append.mp hfb with hfb | hfb
        · exact List.mem_append_left _ (List.mem_append_left _ ((List.mem_append.mp hfb).resolve_right hfixwin))
        · exact List.mem_append_right _ hfb
      · by_cases hfz : h.fixedmblk = z
        · rw [hfz] at hf32 ⊢
          exact hz32 hf32
        · have := hsame h.fixedmblk (by omega)
          simp only [Header, Prod.mk.injEq] at this
          rw [this.2]
          exact hf32

end RegionInv

end MmHead

end Rhino
