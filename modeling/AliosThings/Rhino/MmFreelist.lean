import AliosThings.Lib.DList
import AliosThings.Rhino.MmHeader
import AliosThings.Rhino.BitmapRef

/-!
# The segregated free lists of `k_mm.c`

`freelist[l]` is a doubly linked list of free blocks, threaded through the `free_ptr`
links each free block keeps at the start of its buffer, and bit `l` of `free_bitmap`
says whether it is empty. `FreeLists h ls` says that the lists are the lists `ls` of
block addresses: each a `DList.Chain` from its head, each block at the level of its
size, and the bitmap set exactly at the non-empty levels.

`k_mm_freelist_insert` pushes a block at the front of its level and
`k_mm_freelist_delete` unlinks it; both keep the lists, with the block added or
removed. `find_up_level` finds the head of the first non-empty list above a level, and
the scan of `k_mm_alloc` the first block of a list that is large enough; so the block
`k_mm_alloc` takes from the lists is a free block of at least the size it looks for.
-/

namespace Rhino

namespace MmHead

/-- The next block of the free list a block is in, as its buffer holds it. -/
def freeNextOf (h : MmHead) (a : Nat) : Nat := (h.blk a).freeNext

/-- The previous block of the free list a block is in. -/
def freePrevOf (h : MmHead) (a : Nat) : Nat := (h.blk a).freePrev

/-- The free lists of the heap are the lists `ls` of block addresses, one a level. -/
structure FreeLists (h : MmHead) (ls : Nat → List Nat) : Prop where
  chain : ∀ l, DList.Chain h.freeNextOf h.freePrevOf 0 (h.freelist l) (ls l)
  nodup : ∀ l, (ls l).Nodup
  /-- A block is in the list of its level. -/
  level : ∀ l, ∀ b ∈ ls l, sizeToLevel (h.mmGetBufSize b) = some l
  /-- The blocks are 32-bit addresses. -/
  lt : ∀ l, ∀ b ∈ ls l, b < 2 ^ 32
  bitmap : ∀ l < 32, h.freeBitmap.toNat.testBit l = decide (ls l ≠ [])

/-! ### The links under the updates of the heap -/

variable (h : MmHead)

@[simp] theorem freeNextOf_setFreePrev (b p a : Nat) : (h.setFreePrev b p).freeNextOf a = h.freeNextOf a := by
  by_cases hab : a = b
  · subst hab
    simp [freeNextOf, setFreePrev]
  · simp [freeNextOf, setFreePrev, hab]

theorem freePrevOf_setFreePrev (b p a : Nat) :
    (h.setFreePrev b p).freePrevOf a = if a = b then p else h.freePrevOf a := by
  by_cases hab : a = b
  · subst hab
    simp [freePrevOf, setFreePrev]
  · simp [freePrevOf, setFreePrev, hab]

theorem freeNextOf_setFreeNext (b n a : Nat) :
    (h.setFreeNext b n).freeNextOf a = if a = b then n else h.freeNextOf a := by
  by_cases hab : a = b
  · subst hab
    simp [freeNextOf, setFreeNext]
  · simp [freeNextOf, setFreeNext, hab]

@[simp] theorem freePrevOf_setFreeNext (b n a : Nat) : (h.setFreeNext b n).freePrevOf a = h.freePrevOf a := by
  by_cases hab : a = b
  · subst hab
    simp [freePrevOf, setFreeNext]
  · simp [freePrevOf, setFreeNext, hab]

@[simp] theorem setFreelist_freelist (level b : Nat) :
    (h.setFreelist level b).freelist = Function.update h.freelist level b := rfl

@[simp] theorem setBit_freelist (level : Nat) : (h.setBit level).freelist = h.freelist := rfl

@[simp] theorem clearBit_freelist (level : Nat) : (h.clearBit level).freelist = h.freelist := rfl

@[simp] theorem setFreePrev_freelist (b p : Nat) : (h.setFreePrev b p).freelist = h.freelist := rfl

@[simp] theorem setFreeNext_freelist (b n : Nat) : (h.setFreeNext b n).freelist = h.freelist := rfl

@[simp] theorem setFreePrev_freeBitmap (b p : Nat) : (h.setFreePrev b p).freeBitmap = h.freeBitmap := rfl

@[simp] theorem setFreeNext_freeBitmap (b n : Nat) : (h.setFreeNext b n).freeBitmap = h.freeBitmap := rfl

@[simp] theorem setFreelist_freeBitmap (level b : Nat) : (h.setFreelist level b).freeBitmap = h.freeBitmap := rfl

/-- The links change only through `setFreePrev` and `setFreeNext`. -/
theorem freeNextOf_of_blk {h' : MmHead} (hb : h'.blk = h.blk) : h'.freeNextOf = h.freeNextOf := by
  funext a
  simp [freeNextOf, hb]

theorem freePrevOf_of_blk {h' : MmHead} (hb : h'.blk = h.blk) : h'.freePrevOf = h.freePrevOf := by
  funext a
  simp [freePrevOf, hb]

theorem testBit_setBit {level i : Nat} (hl : level < 32) (hi : i < 32) :
    (h.setBit level).freeBitmap.toNat.testBit i = (decide (i = level) || h.freeBitmap.toNat.testBit i) :=
  Bitmap.testBit_or_shiftLeft h.freeBitmap hi hl

theorem testBit_clearBit {level i : Nat} (hl : level < 32) (hi : i < 32) :
    (h.clearBit level).freeBitmap.toNat.testBit i = (decide (i ≠ level) && h.freeBitmap.toNat.testBit i) :=
  Bitmap.testBit_and_not_shiftLeft h.freeBitmap hi hl

/-! ### Levels -/

/-- A size with a level has one below `MM_BIT_LEVEL - 1`. -/
theorem sizeToLevel_lt {size l : Nat} (h : sizeToLevel size = some l) : l + 1 < mmBitLevel := by
  unfold sizeToLevel at h
  dsimp only at h
  split at h
  · cases h
    decide
  · split at h
    · cases h
    · cases h
      simp only [mmBitLevel, mmMaxBit, mmMinBit] at *
      omega

/-- A size of level `l` has fewer than `l + 6` bits, and at least `l + 6` from level `1`. -/
theorem sizeToLevel_bounds {size l : Nat} (hs : size < 2 ^ 32) (h : sizeToLevel size = some l) :
    size < 2 ^ (l + 6) ∧ (0 < l → 2 ^ (l + 5) ≤ size) := by
  have hx : (UInt32.ofNat size).toNat = size := UInt32.toNat_ofNat_of_lt' hs
  unfold sizeToLevel krhinoClz32 at h
  dsimp only at h
  by_cases h0 : UInt32.ofNat size = 0
  · -- only `0` has no set bit
    have hsz : size = 0 := by rw [← hx, h0]; rfl
    rw [if_pos h0] at h
    cases h
    rw [hsz]
    exact ⟨by positivity, fun h => absurd h (lt_irrefl 0)⟩
  · rw [if_neg h0] at h
    obtain ⟨hlo, hhi⟩ := Bitmap.clz_bounds _ h0
    rw [hx] at hlo hhi
    have hclz := (Bitmap.clz_spec _ h0).1
    split at h
    · cases h
      refine ⟨lt_of_lt_of_le hhi (Nat.pow_le_pow_right (by norm_num) ?_), fun h => absurd h (lt_irrefl 0)⟩
      simp only [mmMinBit] at *
      omega
    · split at h
      · cases h
      · cases h
        simp only [mmMinBit, mmMaxBit] at *
        refine ⟨lt_of_lt_of_le hhi (Nat.pow_le_pow_right (by norm_num) (by omega)), fun _ => ?_⟩
        exact le_trans (Nat.pow_le_pow_right (by norm_num) (by omega)) hlo

/-- A size of a lower level is smaller. -/
theorem lt_of_sizeToLevel_lt {s t a b : Nat} (hs : s < 2 ^ 32) (ht : t < 2 ^ 32) (ha : sizeToLevel s = some a)
    (hb : sizeToLevel t = some b) (hab : a < b) : s < t := by
  have hsa := (sizeToLevel_bounds hs ha).1
  have htb := (sizeToLevel_bounds ht hb).2 (by omega)
  calc s < 2 ^ (a + 6) := hsa
    _ ≤ 2 ^ (b + 5) := Nat.pow_le_pow_right (by norm_num) (by omega)
    _ ≤ t := htb

@[simp] theorem setBit_freeNextOf (level : Nat) : (h.setBit level).freeNextOf = h.freeNextOf := rfl

@[simp] theorem setBit_freePrevOf (level : Nat) : (h.setBit level).freePrevOf = h.freePrevOf := rfl

@[simp] theorem clearBit_freeNextOf (level : Nat) : (h.clearBit level).freeNextOf = h.freeNextOf := rfl

@[simp] theorem clearBit_freePrevOf (level : Nat) : (h.clearBit level).freePrevOf = h.freePrevOf := rfl

@[simp] theorem setFreelist_freeNextOf (level b : Nat) : (h.setFreelist level b).freeNextOf = h.freeNextOf := rfl

@[simp] theorem setFreelist_freePrevOf (level b : Nat) : (h.setFreelist level b).freePrevOf = h.freePrevOf := rfl

@[simp] theorem clearBit_freeBitmap_setFreelist (level level' b : Nat) :
    ((h.setFreelist level' b).clearBit level).freeBitmap = (h.clearBit level).freeBitmap := rfl

@[simp] theorem setBit_freeBitmap_setFreelist (level level' b : Nat) :
    ((h.setFreelist level' b).setBit level).freeBitmap = (h.setBit level).freeBitmap := rfl

/-! ### `k_mm_freelist_insert` -/

theorem kMmFreelistInsert_eq {b level : Nat} (hlev : sizeToLevel (h.mmGetBufSize b) = some level) :
    h.kMmFreelistInsert b =
      ((((h.setFreePrev b 0).setFreeNext b (h.freelist level)).linkHead level b).setFreelist level b).setBit level := by
  unfold kMmFreelistInsert
  rw [hlev]
  dsimp only
  rw [if_pos (Nat.lt_of_succ_lt (sizeToLevel_lt hlev))]

/-- The block inserted names the old head as next and `NULL` as previous, and the old
head names it. -/
theorem kMmFreelistInsert_links {b level : Nat} (hlev : sizeToLevel (h.mmGetBufSize b) = some level)
    (hhead : h.freelist level ≠ b) (a : Nat) :
    (h.kMmFreelistInsert b).freeNextOf a = (if a = b then h.freelist level else h.freeNextOf a) ∧
      (h.kMmFreelistInsert b).freePrevOf a =
        (if a = b then 0 else if h.freelist level ≠ 0 ∧ a = h.freelist level then b else h.freePrevOf a) := by
  rw [kMmFreelistInsert_eq h hlev]
  unfold linkHead
  rw [setFreeNext_freelist, setFreePrev_freelist]
  by_cases hne : h.freelist level = 0
  · rw [if_neg (not_not.mpr hne)]
    by_cases hab : a = b
    · subst hab
      simp [freeNextOf_setFreeNext, freePrevOf_setFreePrev]
    · simp [freeNextOf_setFreeNext, freePrevOf_setFreePrev, hab, hne]
  · rw [if_pos hne]
    by_cases hab : a = b
    · subst hab
      simp [freeNextOf_setFreeNext, freePrevOf_setFreePrev, hhead.symm]
    · by_cases hah : a = h.freelist level
      · subst hah
        simp [freeNextOf_setFreeNext, freePrevOf_setFreePrev, hab, hne]
      · simp [freeNextOf_setFreeNext, freePrevOf_setFreePrev, hab, hah]

theorem kMmFreelistInsert_freelist {b level : Nat} (hlev : sizeToLevel (h.mmGetBufSize b) = some level) :
    (h.kMmFreelistInsert b).freelist = Function.update h.freelist level b := by
  rw [kMmFreelistInsert_eq h hlev]
  unfold linkHead
  split <;> rfl

theorem kMmFreelistInsert_testBit {b level i : Nat} (hlev : sizeToLevel (h.mmGetBufSize b) = some level)
    (hi : i < 32) :
    (h.kMmFreelistInsert b).freeBitmap.toNat.testBit i = (decide (i = level) || h.freeBitmap.toNat.testBit i) := by
  have hl : level < 32 := by
    have := sizeToLevel_lt hlev
    simp only [mmBitLevel, mmMaxBit, mmMinBit] at this
    omega
  rw [kMmFreelistInsert_eq h hlev]
  unfold linkHead
  split
  · rw [setBit_freeBitmap_setFreelist, testBit_setBit _ hl hi]
    rfl
  · rw [setBit_freeBitmap_setFreelist, testBit_setBit _ hl hi]
    rfl

/-! ### `k_mm_freelist_delete` -/

theorem blk_freeNext (a : Nat) : (h.blk a).freeNext = h.freeNextOf a := rfl

theorem blk_freePrev (a : Nat) : (h.blk a).freePrev = h.freePrevOf a := rfl

theorem unlinkNext_links (b a : Nat) :
    (h.unlinkNext b).freeNextOf a = h.freeNextOf a ∧
      (h.unlinkNext b).freePrevOf a =
        if h.freeNextOf b ≠ 0 ∧ a = h.freeNextOf b then h.freePrevOf b else h.freePrevOf a := by
  unfold unlinkNext
  rw [blk_freeNext, blk_freePrev]
  by_cases hn : h.freeNextOf b = 0
  · rw [if_neg (not_not.mpr hn)]
    exact ⟨rfl, by rw [if_neg fun h' => h'.1 hn]⟩
  · rw [if_pos hn]
    refine ⟨freeNextOf_setFreePrev h _ _ a, ?_⟩
    rw [freePrevOf_setFreePrev]
    by_cases ha : a = h.freeNextOf b
    · rw [if_pos ha, if_pos ⟨hn, ha⟩]
    · rw [if_neg ha, if_neg fun h' => ha h'.2]

theorem unlinkPrev_links (b a : Nat) :
    (h.unlinkPrev b).freeNextOf a =
        (if h.freePrevOf b ≠ 0 ∧ a = h.freePrevOf b then h.freeNextOf b else h.freeNextOf a) ∧
      (h.unlinkPrev b).freePrevOf a = h.freePrevOf a := by
  unfold unlinkPrev
  rw [blk_freeNext, blk_freePrev]
  by_cases hp : h.freePrevOf b = 0
  · rw [if_neg (not_not.mpr hp)]
    exact ⟨by rw [if_neg fun h' => h'.1 hp], rfl⟩
  · rw [if_pos hp]
    refine ⟨?_, freePrevOf_setFreeNext h _ _ a⟩
    rw [freeNextOf_setFreeNext]
    by_cases ha : a = h.freePrevOf b
    · rw [if_pos ha, if_pos ⟨hp, ha⟩]
    · rw [if_neg ha, if_neg fun h' => ha h'.2]

@[simp] theorem unlinkNext_freelist (b : Nat) : (h.unlinkNext b).freelist = h.freelist := by
  unfold unlinkNext
  split <;> rfl

@[simp] theorem unlinkNext_freeBitmap (b : Nat) : (h.unlinkNext b).freeBitmap = h.freeBitmap := by
  unfold unlinkNext
  split <;> rfl

@[simp] theorem unlinkPrev_freelist (b : Nat) : (h.unlinkPrev b).freelist = h.freelist := by
  unfold unlinkPrev
  split <;> rfl

@[simp] theorem unlinkPrev_freeBitmap (b : Nat) : (h.unlinkPrev b).freeBitmap = h.freeBitmap := by
  unfold unlinkPrev
  split <;> rfl

@[simp] theorem unlinkHead_freeNextOf (level b : Nat) : (h.unlinkHead level b).freeNextOf = h.freeNextOf := by
  unfold unlinkHead
  split
  · split <;> rfl
  · rfl

@[simp] theorem unlinkHead_freePrevOf (level b : Nat) : (h.unlinkHead level b).freePrevOf = h.freePrevOf := by
  unfold unlinkHead
  split
  · split <;> rfl
  · rfl

/-- A list that started at the block starts at its next, `NULL` included. -/
theorem unlinkHead_freelist (level b : Nat) :
    (h.unlinkHead level b).freelist =
      if h.freelist level = b then Function.update h.freelist level (h.freeNextOf b) else h.freelist := by
  unfold unlinkHead
  split
  · split
    · next hn => simp [freeNextOf, hn]
    · rfl
  · rfl

/-- A list left empty clears its bit. -/
theorem unlinkHead_testBit {level i : Nat} (b : Nat) (hl : level < 32) (hi : i < 32) :
    (h.unlinkHead level b).freeBitmap.toNat.testBit i =
      if h.freelist level = b ∧ h.freeNextOf b = 0 then (decide (i ≠ level) && h.freeBitmap.toNat.testBit i)
      else h.freeBitmap.toNat.testBit i := by
  unfold unlinkHead
  by_cases hhead : h.freelist level = b
  · rw [if_pos hhead]
    by_cases hn : (h.blk b).freeNext = 0
    · rw [if_pos hn, clearBit_freeBitmap_setFreelist, testBit_clearBit _ hl hi, if_pos ⟨hhead, hn⟩]
    · rw [if_neg hn, if_neg fun h' => hn h'.2]
      rfl
  · rw [if_neg hhead, if_neg fun h' => hhead h'.1]

theorem kMmFreelistDelete_eq {b level : Nat} (hlev : sizeToLevel (h.mmGetBufSize b) = some level) :
    h.kMmFreelistDelete b =
      ((((h.unlinkNext b).unlinkPrev b).unlinkHead level b).setFreePrev b 0).setFreeNext b 0 := by
  unfold kMmFreelistDelete
  rw [hlev]
  dsimp only
  rw [if_pos (Nat.lt_of_succ_lt (sizeToLevel_lt hlev))]

/-- The neighbours of the block deleted name each other, and the block names none. -/
theorem kMmFreelistDelete_links {b level : Nat} (hlev : sizeToLevel (h.mmGetBufSize b) = some level)
    (hnb : h.freeNextOf b ≠ b) (a : Nat) :
    (h.kMmFreelistDelete b).freeNextOf a =
        (if a = b then 0 else if h.freePrevOf b ≠ 0 ∧ a = h.freePrevOf b then h.freeNextOf b else h.freeNextOf a) ∧
      (h.kMmFreelistDelete b).freePrevOf a =
        (if a = b then 0 else if h.freeNextOf b ≠ 0 ∧ a = h.freeNextOf b then h.freePrevOf b else h.freePrevOf a) := by
  -- `unlink_prev` reads the links of the block, which `unlink_next` left alone
  have hn1 : (h.unlinkNext b).freeNextOf b = h.freeNextOf b := (h.unlinkNext_links b b).1
  have hp1 : (h.unlinkNext b).freePrevOf b = h.freePrevOf b := by
    rw [(h.unlinkNext_links b b).2, if_neg fun h' => hnb h'.2.symm]
  rw [kMmFreelistDelete_eq h hlev, freeNextOf_setFreeNext, freePrevOf_setFreeNext, freePrevOf_setFreePrev,
    freeNextOf_setFreePrev, unlinkHead_freeNextOf, unlinkHead_freePrevOf,
    ((h.unlinkNext b).unlinkPrev_links b a).1, ((h.unlinkNext b).unlinkPrev_links b a).2, hn1, hp1,
    (h.unlinkNext_links b a).1, (h.unlinkNext_links b a).2]
  exact ⟨rfl, rfl⟩

theorem kMmFreelistDelete_freelist {b level : Nat} (hlev : sizeToLevel (h.mmGetBufSize b) = some level) :
    (h.kMmFreelistDelete b).freelist =
      if h.freelist level = b then Function.update h.freelist level (h.freeNextOf b) else h.freelist := by
  -- whatever `unlink_prev` writes, the block keeps its next
  have hn2 : ((h.unlinkNext b).unlinkPrev b).freeNextOf b = h.freeNextOf b := by
    rw [((h.unlinkNext b).unlinkPrev_links b b).1, (h.unlinkNext_links b b).1, ite_self]
  rw [kMmFreelistDelete_eq h hlev, setFreeNext_freelist, setFreePrev_freelist, unlinkHead_freelist, hn2,
    unlinkPrev_freelist, unlinkNext_freelist]

namespace FreeLists

variable {h} {ls : Nat → List Nat}

/-- A block is in the list of one level only. -/
theorem eq_of_mem (hf : h.FreeLists ls) {b l l' : Nat} (hb : b ∈ ls l) (hb' : b ∈ ls l') : l = l' :=
  Option.some.inj ((hf.level l b hb).symm.trans (hf.level l' b hb'))

theorem head_mem (hf : h.FreeLists ls) {l : Nat} (hne : h.freelist l ≠ 0) : h.freelist l ∈ ls l := by
  have hc := hf.chain l
  cases hl : ls l with
  | nil =>
    rw [hl] at hc
    exact absurd hc hne
  | cons c t =>
    rw [hl] at hc
    rw [hc.1]
    exact List.mem_cons_self

/-- `k_mm_freelist_insert` of a block in no list pushes it at the front of its level. -/
theorem insert (hf : h.FreeLists ls) {b level : Nat} (hb : b ≠ 0) (hb32 : b < 2 ^ 32) (hnot : ∀ l, b ∉ ls l)
    (hlev : sizeToLevel (h.mmGetBufSize b) = some level) :
    (h.kMmFreelistInsert b).FreeLists (Function.update ls level (b :: ls level)) := by
  have hsame := sameHeaders_kMmFreelistInsert h b
  -- the head of the level, if any, is a block of its list, so not `b`
  have hhead : h.freelist level ≠ b := fun heq => hnot level (heq ▸ hf.head_mem (heq ▸ hb))
  have hlinks := kMmFreelistInsert_links h hlev hhead
  constructor
  · intro l
    rw [kMmFreelistInsert_freelist h hlev]
    by_cases hl : l = level
    · subst hl
      rw [Function.update_self, Function.update_self]
      refine (hf.chain l).push (hf.nodup l) hb (by rw [(hlinks b).1, if_pos rfl]) (by rw [(hlinks b).2, if_pos rfl])
        (fun hne => by rw [(hlinks _).2, if_neg hhead, if_pos ⟨hne, rfl⟩]) (fun y hy => ?_) (fun y hy hyh => ?_)
      · rw [(hlinks y).1, if_neg (show y ≠ b from fun hyb => hnot l (hyb ▸ hy))]
      · rw [(hlinks y).2, if_neg (show y ≠ b from fun hyb => hnot l (hyb ▸ hy)), if_neg fun h => hyh h.2]
    · rw [Function.update_of_ne hl, Function.update_of_ne hl]
      refine (hf.chain l).frame (fun y hy => ?_) (fun y hy => ?_)
      · rw [(hlinks y).1, if_neg (show y ≠ b from fun hyb => hnot l (hyb ▸ hy))]
      · -- a block of another level is neither `b` nor the head of `b`'s level
        rw [(hlinks y).2, if_neg (show y ≠ b from fun hyb => hnot l (hyb ▸ hy)),
          if_neg (show ¬(h.freelist level ≠ 0 ∧ y = h.freelist level) from
            fun h' => hl (hf.eq_of_mem hy (h'.2 ▸ hf.head_mem h'.1)))]
  · intro l
    by_cases hl : l = level
    · subst hl
      rw [Function.update_self]
      exact List.nodup_cons.mpr ⟨hnot l, hf.nodup l⟩
    · rw [Function.update_of_ne hl]
      exact hf.nodup l
  · intro l a ha
    rw [hsame.mmGetBufSize]
    by_cases hl : l = level
    · subst hl
      rw [Function.update_self] at ha
      rcases List.mem_cons.mp ha with rfl | ha
      · exact hlev
      · exact hf.level l a ha
    · rw [Function.update_of_ne hl] at ha
      exact hf.level l a ha
  · intro l a ha
    by_cases hl : l = level
    · subst hl
      rw [Function.update_self] at ha
      rcases List.mem_cons.mp ha with rfl | ha
      · exact hb32
      · exact hf.lt l a ha
    · rw [Function.update_of_ne hl] at ha
      exact hf.lt l a ha
  · intro i hi
    rw [kMmFreelistInsert_testBit h hlev hi, hf.bitmap i hi]
    by_cases hil : i = level
    · subst hil
      simp
    · simp [hil]

/-- `k_mm_freelist_delete` of a block of a list unlinks it from the list of its level. -/
theorem delete (hf : h.FreeLists ls) {b level : Nat} (hb : b ∈ ls level) :
    (h.kMmFreelistDelete b).FreeLists (Function.update ls level ((ls level).erase b)) := by
  have hlev := hf.level level b hb
  have hsame := sameHeaders_kMmFreelistDelete h b
  have hc := hf.chain level
  have hnd := hf.nodup level
  have h0 : (0 : Nat) ∉ ls level := hc.not_mem_zero
  have hlinks := kMmFreelistDelete_links h hlev (hc.next_ne hnd hb)
  -- the neighbours of `b` are blocks of its list, or `NULL`
  have hnmem := hc.next_mem hb
  have hpmem := hc.prev_mem_or hb
  have hrest : DList.Chain (h.kMmFreelistDelete b).freeNextOf (h.kMmFreelistDelete b).freePrevOf 0
      (if h.freelist level = b then h.freeNextOf b else h.freelist level) ((ls level).erase b) := by
    refine hc.unlink hnd h0 hb (fun hp0 => ?_) (fun y hy hyb hyp => ?_) (fun hn0 => ?_) (fun y hy hyb hyn => ?_)
    · rw [(hlinks _).1, if_neg (hc.prev_ne hnd h0 hb), if_pos ⟨hp0, rfl⟩]
    · rw [(hlinks y).1, if_neg hyb, if_neg fun h' => hyp h'.2]
    · rw [(hlinks _).2, if_neg (hc.next_ne hnd hb), if_pos ⟨hn0, rfl⟩]
    · rw [(hlinks y).2, if_neg hyb, if_neg fun h' => hyn h'.2]
  have hfreelist := kMmFreelistDelete_freelist h hlev
  constructor
  · intro l
    by_cases hl : l = level
    · subst hl
      rw [Function.update_self, hfreelist]
      by_cases hhead : h.freelist l = b
      · rw [if_pos hhead, Function.update_self]
        rwa [if_pos hhead] at hrest
      · rw [if_neg hhead] at hrest ⊢
        exact hrest
    · rw [Function.update_of_ne hl]
      have hhl : (h.kMmFreelistDelete b).freelist l = h.freelist l := by
        rw [hfreelist]
        split
        · exact Function.update_of_ne hl _ _
        · rfl
      rw [hhl]
      -- a block of another level is neither `b` nor one of its neighbours
      have hother : ∀ y ∈ ls l, y ≠ b ∧ y ≠ h.freePrevOf b ∧ y ≠ h.freeNextOf b := by
        intro y hy
        have hyl : y ∉ ls level := fun hy' => hl (hf.eq_of_mem hy hy')
        have hy0 : y ≠ 0 := fun hy0 => (hf.chain l).not_mem_zero (hy0 ▸ hy)
        refine ⟨fun hyb => hyl (hyb ▸ hb), fun hyp => ?_, fun hyn => ?_⟩
        · rcases hpmem with hm | hz
          · exact hyl (hyp ▸ hm)
          · exact hy0 (hyp.trans hz)
        · rcases hnmem with hm | hz
          · exact hyl (hyn ▸ hm)
          · exact hy0 (hyn.trans hz)
      refine (hf.chain l).frame (fun y hy => ?_) (fun y hy => ?_)
      · obtain ⟨hyb, hyp, -⟩ := hother y hy
        rw [(hlinks y).1, if_neg hyb, if_neg fun h' => hyp h'.2]
      · obtain ⟨hyb, -, hyn⟩ := hother y hy
        rw [(hlinks y).2, if_neg hyb, if_neg fun h' => hyn h'.2]
  · intro l
    by_cases hl : l = level
    · subst hl
      rw [Function.update_self]
      exact hnd.erase b
    · rw [Function.update_of_ne hl]
      exact hf.nodup l
  · intro l a ha
    rw [hsame.mmGetBufSize]
    by_cases hl : l = level
    · subst hl
      rw [Function.update_self] at ha
      exact hf.level l a (List.mem_of_mem_erase ha)
    · rw [Function.update_of_ne hl] at ha
      exact hf.level l a ha
  · intro l a ha
    by_cases hl : l = level
    · subst hl
      rw [Function.update_self] at ha
      exact hf.lt l a (List.mem_of_mem_erase ha)
    · rw [Function.update_of_ne hl] at ha
      exact hf.lt l a ha
  · intro i hi
    have hl32 : level < 32 := by
      have := sizeToLevel_lt hlev
      simp only [mmBitLevel, mmMaxBit, mmMinBit] at this
      omega
    rw [kMmFreelistDelete_eq h hlev, setFreeNext_freeBitmap, setFreePrev_freeBitmap,
      unlinkHead_testBit _ b hl32 hi, unlinkPrev_freeBitmap, unlinkNext_freeBitmap, unlinkPrev_freelist,
      unlinkNext_freelist, ((h.unlinkNext b).unlinkPrev_links b b).1, (h.unlinkNext_links b b).1, ite_self,
      hf.bitmap i hi]
    -- the list is left empty exactly when `b` was its head and had no next
    have hempty : (ls level).erase b = [] ↔ h.freelist level = b ∧ h.freeNextOf b = 0 := by
      rw [← hrest.eq_zero_iff]
      by_cases hhead : h.freelist level = b
      · rw [if_pos hhead]
        exact ⟨fun hz => ⟨hhead, hz⟩, fun hz => hz.2⟩
      · rw [if_neg hhead, hc.eq_zero_iff]
        exact ⟨fun hz => absurd (hz ▸ hb) List.not_mem_nil, fun hz => absurd hz.1 hhead⟩
    by_cases hil : i = level
    · subst hil
      rw [Function.update_self]
      by_cases hcond : h.freelist i = b ∧ h.freeNextOf b = 0
      · rw [if_pos hcond, hempty.mpr hcond]
        simp
      · rw [if_neg hcond]
        have hne : (ls i).erase b ≠ [] := fun hz => hcond (hempty.mp hz)
        have hne' : ls i ≠ [] := fun hz => absurd (hz ▸ hb) List.not_mem_nil
        simp [hne, hne']
    · rw [Function.update_of_ne hil]
      split
      · simp [hil]
      · rfl

/-- A non-empty list is at a level below `MM_BIT_LEVEL - 1`. -/
theorem lt_of_ne_nil (hf : h.FreeLists ls) {l : Nat} (hne : ls l ≠ []) : l + 1 < mmBitLevel := by
  obtain ⟨b, hb⟩ := List.exists_mem_of_ne_nil _ hne
  exact sizeToLevel_lt (hf.level l b hb)

/-- `find_up_level` returns the head of the first non-empty list above `level`, or `NULL`
when there is none. -/
theorem findUpLevel_eq (hf : h.FreeLists ls) {level : Nat} (hlevel : level + 1 < 32) :
    (∃ l, level < l ∧ ls l ≠ [] ∧ (∀ k, level < k → k < l → ls k = []) ∧ h.findUpLevel level = h.freelist l) ∨
      ((∀ l, level < l → ls l = []) ∧ h.findUpLevel level = 0) := by
  unfold findUpLevel
  have hbit : ∀ i < 32, (h.freeBitmap &&& (0xFFFFFFFF : UInt32) <<< UInt32.ofNat (level + 1)).toNat.testBit i =
      (decide (level < i) && decide (ls i ≠ [])) := by
    intro i hi
    rw [Bitmap.testBit_and_ones_shiftLeft _ hi hlevel, hf.bitmap i hi]
    simp
  generalize hx : h.freeBitmap &&& (0xFFFFFFFF : UInt32) <<< UInt32.ofNat (level + 1) = x at hbit
  dsimp only
  by_cases hx0 : x = 0
  · -- no level above has a list: `krhino_ctz32` gives `32`
    refine .inr ⟨fun l hl => ?_, by rw [hx0, if_neg (by decide)]⟩
    by_contra hne
    have hl32 := hf.lt_of_ne_nil hne
    have hb := hbit l (by simp only [mmBitLevel, mmMaxBit, mmMinBit] at hl32; omega)
    rw [hx0] at hb
    simp [hl, hne] at hb
  · obtain ⟨hset, hbelow⟩ := krhinoCtz32_spec x hx0
    have hk32 : krhinoCtz32 x < 32 := by
      by_contra hk
      rw [Nat.testBit_lt_two_pow (lt_of_lt_of_le x.toNat_lt (Nat.pow_le_pow_right (by norm_num) (by omega)))] at hset
      cases hset
    rw [hbit _ hk32] at hset
    simp only [Bool.and_eq_true, decide_eq_true_eq] at hset
    have hk20 := hf.lt_of_ne_nil hset.2
    refine .inl ⟨krhinoCtz32 x, hset.1, hset.2, fun j hj hjk => ?_, by rw [if_pos (by omega)]⟩
    have hj' := hbelow j hjk
    rw [hbit j (by omega)] at hj'
    simpa [hj] using hj'

/-- The lists are shorter than the scan's bound: their blocks are distinct 32-bit
addresses. -/
theorem length_le_mmScanFuel (hf : h.FreeLists ls) (l : Nat) : (ls l).length ≤ mmScanFuel := by
  rw [← List.toFinset_card_of_nodup (hf.nodup l)]
  calc (ls l).toFinset.card ≤ (Finset.range (2 ^ 32)).card :=
        Finset.card_le_card fun b hb => Finset.mem_range.mpr (hf.lt l b (List.mem_toFinset.mp hb))
    _ = mmScanFuel := Finset.card_range _

end FreeLists

/-- Along a chain, the scan of `k_mm_alloc` finds the first block of at least `size`
bytes, or `NULL`, when the fuel covers the chain. -/
theorem scanLevel_chain {p b : Nat} {l : List Nat} (hc : DList.Chain h.freeNextOf h.freePrevOf p b l)
    (size : Nat) {fuel : Nat} (hfuel : l.length ≤ fuel) :
    h.scanLevel size fuel b = some ((l.find? fun a => decide (size ≤ h.mmGetBufSize a)).getD 0) := by
  induction l generalizing p b fuel with
  | nil =>
    rw [show b = 0 from hc]
    cases fuel <;> rfl
  | cons c t ih =>
    obtain ⟨rfl, hc0, -, ht⟩ := hc
    obtain ⟨fuel, rfl⟩ : ∃ f, fuel = f + 1 := ⟨fuel - 1, by simp at hfuel; omega⟩
    obtain ⟨c', rfl⟩ : ∃ c', b = c' + 1 := ⟨b - 1, by omega⟩
    rw [scanLevel, List.find?_cons]
    by_cases hsize : h.mmGetBufSize (c' + 1) ≥ size
    · rw [if_pos hsize, decide_eq_true hsize]
      rfl
    · rw [if_neg hsize, decide_eq_false hsize]
      exact ih ht (by simp at hfuel; omega)

namespace FreeLists

variable {h} {ls : Nat → List Nat}

/-- The block `k_mm_alloc` takes from the free lists is a block of one of them, with at
least the size it looks for: a block of a higher level, or one the scan of its own
level found large enough. -/
theorem kMmAllocTlf_takes_listed (hf : h.FreeLists ls) {reqSize ptr : Nat} {h' : MmHead}
    (halloc : h.kMmAllocTlf reqSize = some (h', ptr)) (hptr : ptr ≠ 0) :
    ∃ l, ptr - mmlistHeadSize ∈ ls l ∧ mmReqSize reqSize ≤ h.mmGetBufSize (ptr - mmlistHeadSize) := by
  unfold kMmAllocTlf at halloc
  cases hlev : sizeToLevel (mmReqSize reqSize) with
  | none =>
    rw [hlev] at halloc
    cases halloc
    exact absurd rfl hptr
  | some level =>
    rw [hlev] at halloc
    dsimp only at halloc
    obtain ⟨getB, hfound, hres⟩ := Option.map_eq_some_iff.mp halloc
    split at hres
    · cases hres
      exact absurd rfl hptr
    · next hget0 =>
      have hptrb : ptr - mmlistHeadSize = getB := by
        have hsnd := congrArg Prod.snd hres
        rw [takeBlk_snd] at hsnd
        omega
      rw [hptrb]
      have hlevel : level + 1 < 32 := by
        have := sizeToLevel_lt hlev
        simp only [mmBitLevel, mmMaxBit, mmMinBit] at this
        omega
      split at hfound
      · -- no higher level has a block: the scan of the request's own level
        rw [scanLevel_chain h (hf.chain level) _ (hf.length_le_mmScanFuel level)] at hfound
        cases hfind : (ls level).find? fun a => decide (mmReqSize reqSize ≤ h.mmGetBufSize a) with
        | none =>
          rw [hfind] at hfound
          exact absurd (Option.some.inj hfound).symm hget0
        | some a =>
          rw [hfind] at hfound
          cases hfound
          have hsize := List.find?_some hfind
          exact ⟨level, List.mem_of_find?_eq_some hfind, of_decide_eq_true hsize⟩
      · -- the head of the first non-empty list above, whose blocks are larger
        next hup =>
        cases hfound
        rcases hf.findUpLevel_eq hlevel with ⟨l, hl, hne, -, heq⟩ | ⟨-, h0⟩
        · rw [heq] at hup ⊢
          have hmem := hf.head_mem hup
          refine ⟨l, hmem, le_of_lt (lt_of_sizeToLevel_lt (mmReqSize_lt reqSize) ?_ hlev (hf.level l _ hmem) hl)⟩
          rw [mmGetBufSize_eq]
          omega
        · exact absurd h0 hup

end FreeLists

end MmHead

end Rhino
