import AliosThings.Rhino.MmRegionAlloc

/-!
# `k_mm_realloc` keeps the invariant of a region

`k_mm_realloc` of a block of the heap works in place when it can. A shrink merges the
free block after it, when there is one, and splits off what is past the new size when
that can hold a block of `MM_MIN_SIZE`; with the free block merged it always can. A
growth into the free block after it takes that block whole, and splits off the rest in
the same way. Otherwise it moves the buffer with `k_mm_alloc` and `k_mm_free`. Each
in-place case rewrites the window of the block, or of the block and the free block after
it, into one used block or a used block and a free one (`RegionInv.split_window`,
`RegionInv.whole_window`); the moves are an allocation and a free.

A buffer given to `k_mm_free` or `k_mm_realloc` is `NULL`, inside the pool's block, or
the buffer of a used block of the heap other than the pool's (`BufferOk`).
-/

namespace Rhino

namespace MmHead

variable (h : MmHead)

/-! ## The fixed-block pool and `k_mm_free` -/

/-- The fixed-block pool takes its blocks back without touching the region. -/
@[simp] theorem kMmSmallblkFree_blk (ptr : Nat) : (h.kMmSmallblkFree ptr).blk = h.blk := by
  unfold kMmSmallblkFree
  split
  · rfl
  · split <;> rfl

@[simp] theorem kMmSmallblkFree_freelist (ptr : Nat) : (h.kMmSmallblkFree ptr).freelist = h.freelist := by
  unfold kMmSmallblkFree
  split
  · rfl
  · split <;> rfl

@[simp] theorem kMmSmallblkFree_freeBitmap (ptr : Nat) : (h.kMmSmallblkFree ptr).freeBitmap = h.freeBitmap := by
  unfold kMmSmallblkFree
  split
  · rfl
  · split <;> rfl

@[simp] theorem kMmSmallblkFree_fixedmblk (ptr : Nat) : (h.kMmSmallblkFree ptr).fixedmblk = h.fixedmblk := by
  unfold kMmSmallblkFree
  split
  · rfl
  · split <;> rfl

/-- A buffer `k_mm_free` and `k_mm_realloc` accept from the callers: `NULL`, one inside
the buffer of the pool's block, or the buffer of a used block of the heap other than the
pool's. -/
def BufferOk (h : MmHead) (bs : List Nat) (ptr : Nat) : Prop :=
  ptr = 0 ∨ h.mmIsFixedblk ptr = true ∨ ∃ b ∈ bs, ptr = b + mmlistHeadSize ∧ ¬ h.IsFree b ∧ b ≠ h.fixedmblk

/-! ## The shrink in place -/

@[simp] theorem removesize_mmGetNextBlk (size b : Nat) : (h.removesize size).mmGetNextBlk b = h.mmGetNextBlk b := rfl

/-- The shrink of a block `b` followed by a used block: what is past `size` is split off
when it can hold a block. -/
theorem reallocShrink_of_used {b : Nat} (size reqSize : Nat) (hc : ¬ h.IsFree (h.mmGetNextBlk b)) :
    h.reallocShrink b (h.mmGetNextBlk b) (h.mmGetBufSize b) size reqSize =
      let H := h.removesize (h.mmGetBlkSize b)
      let S := if h.mmGetBufSize b ≥ size + mmlistHeadSize + mmMinSize then
          H.reallocSplit b (h.mmGetNextBlk b) size (h.mmGetBufSize b - size - mmlistHeadSize)
        else H
      S.addsize (S.mmGetBlkSize b) reqSize := by
  have hc' : ¬ ((h.blk (h.mmGetNextBlk b)).bufSize &&& rhinoMmFree ≠ 0) := hc
  simp only [reallocShrink, removesize_blk, hc', decide_false, Bool.false_eq_true, ↓reduceIte]

/-- The shrink of a block `b` followed by a free block `c`: `c` leaves its list, joins
`b`, and what is past `size` is split off. -/
theorem reallocShrink_of_free {b : Nat} (size reqSize : Nat) (hc : h.IsFree (h.mmGetNextBlk b))
    (hsplit : size + mmlistHeadSize + mmMinSize ≤ h.mmGetBufSize b + h.mmGetBlkSize (h.mmGetNextBlk b)) :
    h.reallocShrink b (h.mmGetNextBlk b) (h.mmGetBufSize b) size reqSize =
      let D := (h.removesize (h.mmGetBlkSize b)).kMmFreelistDelete (h.mmGetNextBlk b)
      let S := D.reallocSplit b (h.mmGetNextBlk (h.mmGetNextBlk b)) size
        (h.mmGetBufSize b + h.mmGetBlkSize (h.mmGetNextBlk b) - size - mmlistHeadSize)
      S.addsize (S.mmGetBlkSize b) reqSize := by
  have hc' : (h.blk (h.mmGetNextBlk b)).bufSize &&& rhinoMmFree ≠ 0 := hc
  have hsD := sameHeaders_kMmFreelistDelete (h.removesize (h.mmGetBlkSize b)) (h.mmGetNextBlk b)
  have hblk : ((h.removesize (h.mmGetBlkSize b)).kMmFreelistDelete (h.mmGetNextBlk b)).mmGetBlkSize
      (h.mmGetNextBlk b) = h.mmGetBlkSize (h.mmGetNextBlk b) := by
    show _ + mmlistHeadSize = h.mmGetBufSize _ + mmlistHeadSize
    rw [hsD.mmGetBufSize, removesize_mmGetBufSize]
  simp only [reallocShrink, removesize_blk, hc', ne_eq, not_false_eq_true, decide_true, ↓reduceIte, hblk,
    hsD.mmGetNextBlk, removesize_mmGetNextBlk, ge_iff_le, if_pos hsplit]

@[simp] theorem addsize_fixedmblk (size reqSize : Nat) : (h.addsize size reqSize).fixedmblk = h.fixedmblk := rfl

@[simp] theorem reallocSplit_fixedmblk (b nextB size left : Nat) :
    (h.reallocSplit b nextB size left).fixedmblk = h.fixedmblk := by
  simp [reallocSplit, splitHead]

/-- The split of `k_mm_realloc` on a heap with `h`'s headers: `b` keeps `size`, the new
free block follows it, and `z` names it and follows a free block. -/
theorem reallocSplit_header_of_same {X : MmHead} (hX : h.SameHeaders X) {b z size : Nat} (left x : Nat)
    (hs : size % 8 = 0) (hs' : size < 2 ^ 32) (hzn : z ≠ b + mmlistHeadSize + size) (hzb : z ≠ b) :
    Header ((X.reallocSplit b z size left).blk x) =
      if x = z then (b + mmlistHeadSize + size, (h.blk z).bufSize ||| rhinoMmPrevfree)
      else if x = b + mmlistHeadSize + size then (b, left ||| rhinoMmFree ||| rhinoMmPrevalloced)
      else if x = b then ((h.blk b).prev, size ||| ((h.blk b).bufSize &&& rhinoMmPrestatMask))
      else Header (h.blk x) := by
  rw [reallocSplit_header X left x hs hs' hzn hzb, splitHead_header X b left x hs hs']
  simp only [header_of_sameHeaders hX, hX.bufSize, hX.prev]

/-! ## The growth in place -/

/-- The growth in place of `b` into the free block `c` after it: `c` leaves its list and
joins `b`, the block after `c` records `b`, used, before it, and what is past `size` is
split off when it can hold a block. -/
theorem reallocEnlarge_of_next {b c : Nat} (size reqSize : Nat) (hbc : h.mmGetNextBlk b = c)
    (hlt : h.mmGetNextBlk c < 2 ^ 32) :
    h.reallocEnlarge b c size reqSize =
      let W := (((h.removesize (h.mmGetBlkSize b)).kMmFreelistDelete c).absorb b c).setBlk (h.mmGetNextBlk c)
        fun x => { x with prev := b, bufSize := x.bufSize &&& sizeNot rhinoMmPrevfree }
      let S := if W.mmGetBufSize b ≥ size + mmlistHeadSize + mmMinSize then
          W.reallocSplit b (h.mmGetNextBlk c) size (W.mmGetBufSize b - size - mmlistHeadSize)
        else W
      S.addsize (S.mmGetBlkSize b) reqSize := by
  have hsD := sameHeaders_kMmFreelistDelete (h.removesize (h.mmGetBlkSize b)) c
  have hn : (((h.removesize (h.mmGetBlkSize b)).kMmFreelistDelete c).absorb b c).mmGetNextBlk b =
      h.mmGetNextBlk c := by
    rw [absorb_mmGetNextBlk _ (by rw [hsD.mmGetNextBlk]; exact hbc) (by rw [hsD.mmGetNextBlk]; exact hlt),
      hsD.mmGetNextBlk, removesize_mmGetNextBlk]
  simp only [reallocEnlarge, hn]

/-- The headers after `c` joins `b` and the block after `c` records it. -/
theorem reallocEnlarge_grown_header {b c : Nat} (x : Nat) (hbc : h.mmGetNextBlk b = c) :
    Header (((((h.removesize (h.mmGetBlkSize b)).kMmFreelistDelete c).absorb b c).setBlk (h.mmGetNextBlk c)
        fun x => { x with prev := b, bufSize := x.bufSize &&& sizeNot rhinoMmPrevfree }).blk x) =
      if x = h.mmGetNextBlk c then (b, (h.blk (h.mmGetNextBlk c)).bufSize &&& sizeNot rhinoMmPrevfree)
      else if x = b then ((h.blk b).prev, (h.blk b).bufSize + h.mmGetBlkSize c)
      else Header (h.blk x) := by
  have hsD : h.SameHeaders ((h.removesize (h.mmGetBlkSize b)).kMmFreelistDelete c) :=
    (sameHeaders_of_blk h (removesize_blk h _)).trans (sameHeaders_kMmFreelistDelete _ c)
  have hdb : h.mmGetNextBlk c ≠ b := by
    have := mmGetNextBlk_gt h b
    have := mmGetNextBlk_gt h c
    omega
  have hblk : ((h.removesize (h.mmGetBlkSize b)).kMmFreelistDelete c).mmGetBlkSize c = h.mmGetBlkSize c := by
    show _ + mmlistHeadSize = h.mmGetBufSize _ + mmlistHeadSize
    rw [hsD.mmGetBufSize]
  rw [header_setBlk]
  by_cases hxd : x = h.mmGetNextBlk c
  · rw [if_pos hxd, if_pos hxd, absorb, setBlk_blk_ne _ _ hdb, hsD.bufSize]
    rfl
  · rw [if_neg hxd, if_neg hxd, absorb_header, header_of_sameHeaders hsD, hsD.prev, hsD.bufSize, hblk]

namespace RegionInv

variable {h} {r e : Nat} {bs : List Nat} {ls : Nat → List Nat}

theorem kMmSmallblkFree (hi : h.RegionInv r e bs ls) (ptr : Nat) : (h.kMmSmallblkFree ptr).RegionInv r e bs ls :=
  hi.congr (kMmSmallblkFree_blk h ptr) (kMmSmallblkFree_freelist h ptr) (kMmSmallblkFree_freeBitmap h ptr)
    (kMmSmallblkFree_fixedmblk h ptr)

/-- `k_mm_free` of a buffer the callers may give keeps the invariant. -/
theorem kMmFree (hi : h.RegionInv r e bs ls) {ptr : Nat} (hp : BufferOk h bs ptr) :
    ∃ bs' ls', (h.kMmFree ptr).RegionInv r e bs' ls' := by
  rcases hp with rfl | hfix | ⟨b, hb, rfl, hused, hbfix⟩
  · exact ⟨bs, ls, by rw [MmHead.kMmFree, if_pos rfl]; exact hi⟩
  · -- a buffer of the pool goes back to the pool
    have hp0 : ptr ≠ 0 := by
      rintro rfl
      simp [mmIsFixedblk] at hfix
    refine ⟨bs, ls, ?_⟩
    rw [MmHead.kMmFree, if_neg hp0, if_pos hfix]
    exact hi.kMmSmallblkFree ptr
  · exact hi.kMmFree_used hb hused hbfix

/-- The shrink of a used block `b` followed by a used block, split: `b` keeps `size`
bytes and the rest becomes a free block, listed, before the block after `b`. -/
theorem reallocShrink_split (hi : h.RegionInv r e bs ls) {b size : Nat} (reqSize : Nat) (hb : b ∈ bs)
    (hused : ¬ h.IsFree b) (hfix : b ≠ h.fixedmblk) (hs : size % 8 = 0) (hs' : size < 2 ^ 32)
    (hmin : mmMinSize ≤ size) (hc : ¬ h.IsFree (h.mmGetNextBlk b))
    (hsplit : size + mmlistHeadSize + mmMinSize ≤ h.mmGetBufSize b) :
    ∃ bs' ls', (h.reallocShrink b (h.mmGetNextBlk b) (h.mmGetBufSize b) size reqSize).RegionInv r e bs' ls' ∧
      KeepsUsed h (h.reallocShrink b (h.mmGetNextBlk b) (h.mmGetBufSize b) size reqSize) bs bs' := by
  have hR := reallocShrink_of_used h size reqSize hc
  simp only [ge_iff_le, if_pos hsplit] at hR
  rw [hR]
  set c := h.mmGetNextBlk b with hcdef
  set n := b + mmlistHeadSize + size with hndef
  set left := h.mmGetBufSize b - size - mmlistHeadSize with hleftdef
  set S := (h.removesize (h.mmGetBlkSize b)).reallocSplit b c size left with hS
  set R := S.addsize (S.mmGetBlkSize b) reqSize with hRdef
  obtain ⟨pre, post, hbs⟩ := List.append_of_mem hb
  have hbs' : bs = pre ++ [b] ++ post := by
    rw [hbs, List.append_assoc, List.singleton_append]
  have hbr : b ∈ r :: bs := List.mem_cons_of_mem r hb
  -- the new block lies strictly inside `b`, so it is no block of the heap
  have hbn : b < n := by
    simp only [hndef, mmlistHeadSize]
    omega
  have hnc : n < c := by
    simp only [hndef, hcdef, mmGetNextBlk, mmlistHeadSize, mmMinSize, mmMinBit] at hsplit ⊢
    omega
  have hnbs := hi.tiles.not_mem_of_lt (next_gt h) hbr hbn hnc
  have hsize := hi.size_lt hbr
  have hleft8 : left % 8 = 0 := by
    have := mmGetBufSize_mod h b
    simp only [hleftdef, mmlistHeadSize]
    omega
  have hleft32 : left < 2 ^ 32 := by
    have := mmGetBufSize_eq h b
    omega
  have hleftmin : mmMinSize ≤ left := by
    simp only [hleftdef, mmlistHeadSize] at hsplit ⊢
    omega
  obtain ⟨ln, hln⟩ := sizeToLevel_of_lt (show left < mmMaxSize by omega)
  -- the headers the shrink leaves
  have hhd : ∀ x, Header (R.blk x) =
      if x = c then (n, (h.blk c).bufSize ||| rhinoMmPrevfree)
      else if x = n then (b, left ||| rhinoMmFree ||| rhinoMmPrevalloced)
      else if x = b then ((h.blk b).prev, size ||| ((h.blk b).bufSize &&& rhinoMmPrestatMask))
      else Header (h.blk x) := fun x => by
    rw [hRdef, addsize_blk]
    exact reallocSplit_header_of_same h (sameHeaders_of_blk h (removesize_blk h _)) left x hs hs' (ne_of_gt hnc)
      (ne_of_gt (next_gt h b))
  have hRb : Header (R.blk b) = ((h.blk b).prev, size ||| ((h.blk b).bufSize &&& rhinoMmPrestatMask)) := by
    rw [hhd, if_neg (ne_of_lt (next_gt h b)), if_neg (ne_of_lt hbn), if_pos rfl]
  have hRc : Header (R.blk c) = (n, (h.blk c).bufSize ||| rhinoMmPrevfree) := by
    rw [hhd, if_pos rfl]
  have hRn : Header (R.blk n) = (b, left ||| rhinoMmFree ||| rhinoMmPrevalloced) := by
    rw [hhd, if_neg (ne_of_lt hnc), if_pos rfl]
  have hRx : ∀ x, x ≠ b → x ≠ c → x ≠ n → Header (R.blk x) = Header (h.blk x) := by
    intro x hxb hxc hxn
    rw [hhd, if_neg hxc, if_neg hxn, if_neg hxb]
  have hRbf : ¬ R.IsFree b := (isFree_of_header_eq hRb).not.mpr (split_free _ hs)
  have hRbs : R.mmGetBufSize b = size := (mmGetBufSize_of_header_eq hRb).trans (mask_split _ hs hs')
  have hRns : R.mmGetBufSize n = left := by
    rw [mmGetBufSize_of_header_eq hRn]
    exact newFree_mask hleft8 hleft32
  have hRcf : R.IsFree c ↔ h.IsFree c := (isFree_of_header_eq hRc).trans (lor_prevFree_free _)
  have hRnn : R.mmGetNextBlk n = c := by
    rw [mmGetNextBlk, hRns]
    simp only [hndef, hcdef, hleftdef, mmGetNextBlk, mmlistHeadSize, mmMinSize, mmMinBit] at hsplit ⊢
    omega
  have hlH : (h.removesize (h.mmGetBlkSize b)).FreeLists ls := hi.lists.congr rfl rfl rfl
  have hlists : R.FreeLists (Function.update ls ln (n :: ls ln)) :=
    (FreeLists.reallocSplit hlH hs hs' hleft8 hleft32 hln (hi.not_listed hused)
      (fun l hl => hnbs.1 (List.mem_cons_of_mem r ((hi.listed n).mp ⟨l, hl⟩).1)) (hi.not_listed hc)
      (ne_of_gt (lt_of_le_of_lt (Nat.zero_le b) hbn)) (by have := hi.bound; omega) (ne_of_gt hnc)).congr
      rfl rfl rfl
  have hout : ∀ x ∈ bs, x ∉ [b] → (R.IsFree x ↔ h.IsFree x) := by
    intro x hx hxb
    have hxn : x ≠ n := fun h => hnbs.1 (h ▸ List.mem_cons_of_mem r hx)
    by_cases hxc : x = c
    · rw [hxc]
      exact hRcf
    · exact (SameFlags.of_header (hRx x (fun h => hxb (h ▸ List.mem_singleton_self b)) hxc hxn)).free
  refine ⟨pre ++ [b, n] ++ post, _, hi.split_window hbs' (List.cons_ne_nil b []) ⟨rfl, rfl⟩
    (fun x hx hxn hxc => hRx x (fun h => hx (h ▸ List.mem_singleton_self b)) hxc hxn) hRbf
    ((prevFree_of_header_eq hRb).trans (split_prevFree _ hs)) (prev_of_header_eq hRb) (hRbs ▸ hmin)
    (by rw [mmGetNextBlk, hRbs]) ((isFree_of_header_eq hRn).mpr (newFree_free hleft8))
    ((prevFree_of_header_eq hRn).not.mpr (newFree_prevFree hleft8)) (hRns ▸ hleftmin) hRnn hRcf hc
    ((prevFree_of_header_eq hRc).mpr (lor_prevFree_prevFree _)) (prev_of_header_eq hRc)
    ((mmGetBufSize_of_header_eq hRc).trans (mask_lor_flags _ (by decide)))
    (fun h32 => by rw [bufSize_of_header_eq hRc]; exact Nat.or_lt_two_pow h32 (by decide)) hlists
    (fun x => ?_) (by simp [hRdef, hS]) (fun hf => hfix (List.mem_singleton.mp hf).symm),
    KeepsUsed.window hbs' (fun x hx _ => List.mem_singleton.mp hx) List.mem_cons_self hRbf hout⟩
  -- the lists gain `n`; `b`, used, was in none
  rw [FreeLists.listed_insert, List.mem_singleton]
  constructor
  · rintro (⟨l, hl⟩ | rfl)
    · exact .inl ⟨⟨l, hl⟩, fun hxb => hi.not_listed hused l (hxb ▸ hl)⟩
    · exact .inr rfl
  · rintro (⟨hl, -⟩ | rfl)
    · exact .inl hl
    · exact .inr rfl

/-- The shrink of a used block `b` followed by a free block `c`: `c` leaves its list and
joins `b`, which keeps `size` bytes; the rest, never less than `c`, becomes a free block,
listed, before the block after `c`. -/
theorem reallocShrink_merged (hi : h.RegionInv r e bs ls) {b size : Nat} (reqSize : Nat) (hb : b ∈ bs)
    (hused : ¬ h.IsFree b) (hfix : b ≠ h.fixedmblk) (hs : size % 8 = 0) (hs' : size < 2 ^ 32)
    (hmin : mmMinSize ≤ size) (hsize : size ≤ h.mmGetBufSize b) (hc : h.IsFree (h.mmGetNextBlk b)) :
    ∃ bs' ls', (h.reallocShrink b (h.mmGetNextBlk b) (h.mmGetBufSize b) size reqSize).RegionInv r e bs' ls' ∧
      KeepsUsed h (h.reallocShrink b (h.mmGetNextBlk b) (h.mmGetBufSize b) size reqSize) bs bs' := by
  set c := h.mmGetNextBlk b with hcdef
  obtain ⟨pre, t, hbs⟩ := List.append_of_mem hb
  -- `c` is free, so no sentinel: a block of the heap, with a used block after it
  rcases hi.next_cons hbs with ⟨-, hce⟩ | ⟨post, ht⟩
  · exact absurd (hce ▸ hc) hi.sentinel.2
  subst ht
  have hbs' : bs = pre ++ [b, c] ++ post := by
    rw [hbs]
    simp [hcdef]
  have hcbs : c ∈ bs := by
    rw [hbs']
    exact List.mem_append_left _ (List.mem_append_right _ (List.mem_cons_of_mem b (List.mem_singleton_self c)))
  have hbr : b ∈ r :: bs := List.mem_cons_of_mem r hb
  have hcr : c ∈ r :: bs := List.mem_cons_of_mem r hcbs
  obtain ⟨lc, hcl, -⟩ := hi.mem_of_free hcbs hc
  set d := h.mmGetNextBlk c with hddef
  have hdu : ¬ h.IsFree d := (hi.links c hcr).coalesced hc
  have hcmin := hi.minSize c hcbs
  have hdle := (hi.size_lt hcr).2.1
  have hsplit : size + mmlistHeadSize + mmMinSize ≤ h.mmGetBufSize b + h.mmGetBlkSize c := by
    simp only [mmGetBlkSize, mmlistHeadSize, mmMinSize, mmMinBit] at hcmin ⊢
    omega
  have hR := reallocShrink_of_free h size reqSize hc hsplit
  simp only at hR
  rw [hR]
  set n := b + mmlistHeadSize + size with hndef
  set left := h.mmGetBufSize b + h.mmGetBlkSize c - size - mmlistHeadSize with hleftdef
  set D := (h.removesize (h.mmGetBlkSize b)).kMmFreelistDelete c with hD
  set S := D.reallocSplit b d size left with hS
  set R := S.addsize (S.mmGetBlkSize b) reqSize with hRdef
  have hcb : c = b + mmlistHeadSize + h.mmGetBufSize b := rfl
  have hdc : d = c + mmlistHeadSize + h.mmGetBufSize c := rfl
  -- the new block starts inside `b`'s old buffer or at `c`, so it is no other block
  have hbn : b < n := by
    simp only [hndef, mmlistHeadSize]
    omega
  have hnc : n ≤ c := by
    simp only [hndef, hcb]
    omega
  have hnbs : n ∈ bs → n = c := fun hn => (lt_or_eq_of_le hnc).resolve_left fun hlt =>
    (hi.tiles.not_mem_of_lt (next_gt h) hbr hbn (by rw [← hcdef]; exact hlt)).1 (List.mem_cons_of_mem r hn)
  have hrb := (hi.size_lt hbr).2.2
  have hbound := hi.bound
  have hleft8 : left % 8 = 0 := by
    have := mmGetBufSize_mod h b
    have := mmGetBufSize_mod h c
    simp only [hleftdef, mmGetBlkSize, mmlistHeadSize] at *
    omega
  have hleftmin : mmMinSize ≤ left := by
    simp only [hleftdef, mmGetBlkSize, mmlistHeadSize] at hcmin ⊢
    omega
  have hnd : n + mmlistHeadSize + left = d := by
    simp only [hndef, hleftdef, hdc, hcb, mmGetBlkSize, mmlistHeadSize] at hsplit ⊢
    omega
  have hleftmax : left < mmMaxSize := by
    simp only [mmlistHeadSize, mmMaxSize, mmMaxBit] at hnd hbound ⊢
    omega
  have hleft32 : left < 2 ^ 32 := by
    simp only [mmMaxSize, mmMaxBit] at hleftmax
    omega
  obtain ⟨ln, hln⟩ := sizeToLevel_of_lt hleftmax
  have hdn : d ≠ n := by
    simp only [mmlistHeadSize] at hnd
    omega
  have hdb : d ≠ b := ne_of_gt (lt_trans (lt_of_lt_of_le hbn hnc) (next_gt h c))
  -- the headers the shrink leaves
  have hsD : h.SameHeaders D :=
    (sameHeaders_of_blk h (removesize_blk h _)).trans (sameHeaders_kMmFreelistDelete _ c)
  have hhd : ∀ x, Header (R.blk x) =
      if x = d then (n, (h.blk d).bufSize ||| rhinoMmPrevfree)
      else if x = n then (b, left ||| rhinoMmFree ||| rhinoMmPrevalloced)
      else if x = b then ((h.blk b).prev, size ||| ((h.blk b).bufSize &&& rhinoMmPrestatMask))
      else Header (h.blk x) := fun x => by
    rw [hRdef, addsize_blk]
    exact reallocSplit_header_of_same h hsD left x hs hs' hdn hdb
  have hRb : Header (R.blk b) = ((h.blk b).prev, size ||| ((h.blk b).bufSize &&& rhinoMmPrestatMask)) := by
    rw [hhd, if_neg (Ne.symm hdb), if_neg (ne_of_lt hbn), if_pos rfl]
  have hRd : Header (R.blk d) = (n, (h.blk d).bufSize ||| rhinoMmPrevfree) := by
    rw [hhd, if_pos rfl]
  have hRn : Header (R.blk n) = (b, left ||| rhinoMmFree ||| rhinoMmPrevalloced) := by
    rw [hhd, if_neg (Ne.symm hdn), if_pos rfl]
  have hRx : ∀ x, x ≠ b → x ≠ d → x ≠ n → Header (R.blk x) = Header (h.blk x) := by
    intro x hxb hxd hxn
    rw [hhd, if_neg hxd, if_neg hxn, if_neg hxb]
  have hRbf : ¬ R.IsFree b := (isFree_of_header_eq hRb).not.mpr (split_free _ hs)
  have hRbs : R.mmGetBufSize b = size := (mmGetBufSize_of_header_eq hRb).trans (mask_split _ hs hs')
  have hRns : R.mmGetBufSize n = left := by
    rw [mmGetBufSize_of_header_eq hRn]
    exact newFree_mask hleft8 hleft32
  have hRdf : R.IsFree d ↔ h.IsFree d := (isFree_of_header_eq hRd).trans (lor_prevFree_free _)
  -- the lists lose `c` and gain `n`
  have hlisted₁ := FreeLists.listed_delete hi.lists hcl
  have hlH : (h.removesize (h.mmGetBlkSize b)).FreeLists ls := hi.lists.congr rfl rfl rfl
  have hlists := (FreeLists.reallocSplit (hlH.delete hcl) hs hs' hleft8 hleft32 hln
    (fun l hl => hi.not_listed hused _ ((hlisted₁ b).mp ⟨l, hl⟩).1.choose_spec)
    (fun l hl => by
      obtain ⟨⟨l', hl'⟩, hnc'⟩ := (hlisted₁ n).mp ⟨l, hl⟩
      exact hnc' (hnbs ((hi.listed n).mp ⟨l', hl'⟩).1))
    (fun l hl => hi.not_listed hdu _ ((hlisted₁ d).mp ⟨l, hl⟩).1.choose_spec)
    (ne_of_gt (lt_of_le_of_lt (Nat.zero_le b) hbn)) (by omega) hdn).congr
    (show R.blk = S.blk from rfl) rfl rfl
  have hcw : c ∈ [b, c] := List.mem_cons_of_mem b (List.mem_singleton_self c)
  have hout : ∀ x ∈ bs, x ∉ [b, c] → (R.IsFree x ↔ h.IsFree x) := by
    intro x hx hxw
    have hxb : x ≠ b := fun h => hxw (by rw [h]; exact List.mem_cons_self)
    have hxc : x ≠ c := fun h => hxw (by rw [h]; exact hcw)
    have hxn : x ≠ n := fun h => hxc (h.trans (hnbs (h ▸ hx)))
    by_cases hxd : x = d
    · rw [hxd]
      exact hRdf
    · exact (SameFlags.of_header (hRx x hxb hxd hxn)).free
  refine ⟨pre ++ [b, n] ++ post, _, hi.split_window hbs' (List.cons_ne_nil b [c]) ⟨rfl, rfl, rfl⟩
    (fun x hx hxn hxd => hRx x (fun h => hx (h ▸ List.mem_cons_self)) hxd hxn) hRbf
    ((prevFree_of_header_eq hRb).trans (split_prevFree _ hs)) (prev_of_header_eq hRb) (hRbs ▸ hmin)
    (by rw [mmGetNextBlk, hRbs]) ((isFree_of_header_eq hRn).mpr (newFree_free hleft8))
    ((prevFree_of_header_eq hRn).not.mpr (newFree_prevFree hleft8)) (hRns ▸ hleftmin)
    (by rw [mmGetNextBlk, hRns]; exact hnd) hRdf hdu
    ((prevFree_of_header_eq hRd).mpr (lor_prevFree_prevFree _)) (prev_of_header_eq hRd)
    ((mmGetBufSize_of_header_eq hRd).trans (mask_lor_flags _ (by decide)))
    (fun h32 => by rw [bufSize_of_header_eq hRd]; exact Nat.or_lt_two_pow h32 (by decide)) hlists
    (fun x => ?_) (by simp [hRdef, hS, hD])
    (fun hf => by
      rcases List.mem_cons.mp hf with hf | hf
      · exact hfix hf.symm
      · exact hi.fixedmblk_ne_of_free hcbs hc (List.mem_singleton.mp hf)),
    KeepsUsed.window hbs' (fun x hx hxu => ?_) List.mem_cons_self hRbf hout⟩
  · rw [FreeLists.listed_insert, hlisted₁]
    constructor
    · rintro (⟨⟨l, hl⟩, hxc⟩ | rfl)
      · refine .inl ⟨⟨l, hl⟩, fun hxw => ?_⟩
        rcases List.mem_cons.mp hxw with hxb | hxc'
        · exact hi.not_listed hused l (hxb ▸ hl)
        · exact hxc (List.mem_singleton.mp hxc')
      · exact .inr rfl
    · rintro (⟨hl, hxw⟩ | rfl)
      · exact .inl ⟨hl, fun hxc => hxw (by rw [hxc]; exact hcw)⟩
      · exact .inr rfl
  · -- of `b` and `c`, only `b` was used
    rcases List.mem_cons.mp hx with hxb | hxc
    · exact hxb
    · exact absurd (List.mem_singleton.mp hxc ▸ hc) hxu

/-- The shrink of a used block followed by a used block, when what is past `size` cannot
hold a block: only the statistics change. -/
theorem reallocShrink_whole (hi : h.RegionInv r e bs ls) {b size : Nat} (reqSize : Nat)
    (hc : ¬ h.IsFree (h.mmGetNextBlk b)) (hsplit : ¬ size + mmlistHeadSize + mmMinSize ≤ h.mmGetBufSize b) :
    (h.reallocShrink b (h.mmGetNextBlk b) (h.mmGetBufSize b) size reqSize).RegionInv r e bs ls ∧
      KeepsUsed h (h.reallocShrink b (h.mmGetNextBlk b) (h.mmGetBufSize b) size reqSize) bs bs := by
  have hR := reallocShrink_of_used h size reqSize hc
  simp only [ge_iff_le, if_neg hsplit] at hR
  rw [hR]
  exact ⟨hi.congr rfl rfl rfl rfl, KeepsUsed.of_blk rfl bs⟩

/-- The shrink in place of `k_mm_realloc` keeps the invariant and every used block. -/
theorem reallocShrink (hi : h.RegionInv r e bs ls) {b size : Nat} (reqSize : Nat) (hb : b ∈ bs)
    (hused : ¬ h.IsFree b) (hfix : b ≠ h.fixedmblk) (hs : size % 8 = 0) (hs' : size < 2 ^ 32)
    (hmin : mmMinSize ≤ size) (hsize : size ≤ h.mmGetBufSize b) :
    ∃ bs' ls', (h.reallocShrink b (h.mmGetNextBlk b) (h.mmGetBufSize b) size reqSize).RegionInv r e bs' ls' ∧
      KeepsUsed h (h.reallocShrink b (h.mmGetNextBlk b) (h.mmGetBufSize b) size reqSize) bs bs' := by
  by_cases hc : h.IsFree (h.mmGetNextBlk b)
  · exact hi.reallocShrink_merged reqSize hb hused hfix hs hs' hmin hsize hc
  · by_cases hsplit : size + mmlistHeadSize + mmMinSize ≤ h.mmGetBufSize b
    · exact hi.reallocShrink_split reqSize hb hused hfix hs hs' hmin hc hsplit
    · exact ⟨bs, ls, hi.reallocShrink_whole reqSize hc hsplit⟩

/-- The growth in place of `k_mm_realloc` of a used block `b` into the free block `c`
after it, when the two hold `size`: `c` leaves its list and joins `b`; what is past `size`
becomes a free block, listed, when it can hold a block, and else the block after `c` no
longer follows a free block. The invariant and every used block are kept. -/
theorem reallocEnlarge (hi : h.RegionInv r e bs ls) {b size : Nat} (reqSize : Nat) (hb : b ∈ bs)
    (hused : ¬ h.IsFree b) (hfix : b ≠ h.fixedmblk) (hs : size % 8 = 0) (hs' : size < 2 ^ 32)
    (hbig : h.mmGetBufSize b < size) (hc : h.IsFree (h.mmGetNextBlk b)) :
    ∃ bs' ls', (h.reallocEnlarge b (h.mmGetNextBlk b) size reqSize).RegionInv r e bs' ls' ∧
      KeepsUsed h (h.reallocEnlarge b (h.mmGetNextBlk b) size reqSize) bs bs' := by
  set c := h.mmGetNextBlk b with hcdef
  obtain ⟨pre, t, hbs⟩ := List.append_of_mem hb
  -- `c` is free, so no sentinel: a block of the heap, with a used block after it
  rcases hi.next_cons hbs with ⟨-, hce⟩ | ⟨post, ht⟩
  · exact absurd (hce ▸ hc) hi.sentinel.2
  subst ht
  have hbs' : bs = pre ++ [b, c] ++ post := by
    rw [hbs]
    simp [hcdef]
  have hcw : c ∈ [b, c] := List.mem_cons_of_mem b (List.mem_singleton_self c)
  have hcbs : c ∈ bs := by
    rw [hbs']
    exact List.mem_append_left _ (List.mem_append_right _ hcw)
  have hcr : c ∈ r :: bs := List.mem_cons_of_mem r hcbs
  obtain ⟨lc, hcl, -⟩ := hi.mem_of_free hcbs hc
  set d := h.mmGetNextBlk c with hddef
  have hdu : ¬ h.IsFree d := (hi.links c hcr).coalesced hc
  have hcmin := hi.minSize c hcbs
  have hdle := (hi.size_lt hcr).2.1
  have hbound := hi.bound
  have hcb : c = b + mmlistHeadSize + h.mmGetBufSize b := rfl
  have hdc : d = c + mmlistHeadSize + h.mmGetBufSize c := rfl
  have hd32 : d < 2 ^ 32 := lt_of_le_of_lt hdle hbound.2
  have hR := reallocEnlarge_of_next h size reqSize rfl hd32
  simp only at hR
  rw [hR]
  set W := (((h.removesize (h.mmGetBlkSize b)).kMmFreelistDelete c).absorb b c).setBlk d
    (fun x => { x with prev := b, bufSize := x.bufSize &&& sizeNot rhinoMmPrevfree }) with hW
  set T := h.mmGetBufSize b + h.mmGetBlkSize c with hT
  have hdb : d ≠ b := by
    have := mmGetNextBlk_gt h b
    have := mmGetNextBlk_gt h c
    omega
  have hWhd := fun x => reallocEnlarge_grown_header h x (b := b) (c := c) rfl
  have hWb : Header (W.blk b) = ((h.blk b).prev, (h.blk b).bufSize + h.mmGetBlkSize c) := by
    rw [hWhd, if_neg (Ne.symm hdb), if_pos rfl]
  have hWd : Header (W.blk d) = (b, (h.blk d).bufSize &&& sizeNot rhinoMmPrevfree) := by
    rw [hWhd, if_pos rfl]
  have hT32 : T < 2 ^ 32 := by
    simp only [hT, mmGetBlkSize, hdc, hcb, mmlistHeadSize] at hd32 ⊢
    omega
  have hWbs : W.mmGetBufSize b = T := by
    rw [mmGetBufSize_of_header_eq hWb]
    exact add_aligned_mask _ (mmGetBlkSize_mod h c) hT32
  have hWbu : ¬ W.IsFree b :=
    (isFree_of_header_eq hWb).not.mpr ((add_aligned_flag _ (mmGetBlkSize_mod h c) (by decide)).not.mpr hused)
  -- the lists lose `c`: the free lists of `W`
  have hlisted₁ := FreeLists.listed_delete hi.lists hcl
  have hnot₁ : ∀ x, (∀ l, x ∉ ls l) → ∀ l, x ∉ Function.update ls lc ((ls lc).erase c) l :=
    fun x hx l hl => hx _ ((hlisted₁ x).mp ⟨l, hl⟩).1.choose_spec
  have hlH : (h.removesize (h.mmGetBlkSize b)).FreeLists ls := hi.lists.congr rfl rfl rfl
  have hlW : W.FreeLists (Function.update ls lc ((ls lc).erase c)) :=
    ((hlH.delete hcl).setBlk (b := b)
      (fun x => { x with bufSize := x.bufSize + ((h.removesize (h.mmGetBlkSize b)).kMmFreelistDelete c).mmGetBlkSize c })
      (hnot₁ b (hi.not_listed hused)) (fun _ => rfl) (fun _ => rfl)).setBlk (b := d)
      (fun x => { x with prev := b, bufSize := x.bufSize &&& sizeNot rhinoMmPrevfree })
      (hnot₁ d (hi.not_listed hdu)) (fun _ => rfl) (fun _ => rfl)
  have hfixwin : h.fixedmblk ∉ [b, c] := fun hf => by
    rcases List.mem_cons.mp hf with hf | hf
    · exact hfix hf.symm
    · exact hi.fixedmblk_ne_of_free hcbs hc (List.mem_singleton.mp hf)
  have hwinU : ∀ x ∈ [b, c], ¬ h.IsFree x → x = b := fun x hx hxu => by
    rcases List.mem_cons.mp hx with hxb | hxc
    · exact hxb
    · exact absurd (List.mem_singleton.mp hxc ▸ hc) hxu
  have hfixR : ∀ S : MmHead, S.fixedmblk = h.fixedmblk → (S.addsize (S.mmGetBlkSize b) reqSize).fixedmblk =
      h.fixedmblk := fun S hS => hS
  by_cases hsplit : size + mmlistHeadSize + mmMinSize ≤ T
  · -- split: `b` keeps `size`, the rest becomes the free block `n` before `d`
    simp only [hWbs, ge_iff_le, if_pos hsplit]
    set n := b + mmlistHeadSize + size with hndef
    set left := T - size - mmlistHeadSize with hleftdef
    set R := (W.reallocSplit b d size left).addsize ((W.reallocSplit b d size left).mmGetBlkSize b) reqSize
      with hRdef
    have hcn : c < n := by
      simp only [hndef, hcb]
      omega
    have hnd : n + mmlistHeadSize + left = d := by
      simp only [hndef, hleftdef, hT, hdc, hcb, mmGetBlkSize, mmlistHeadSize] at hsplit ⊢
      omega
    have hleftmin : mmMinSize ≤ left := by
      simp only [hleftdef, mmlistHeadSize] at hsplit ⊢
      omega
    have hnd' : n < d := by
      simp only [mmlistHeadSize] at hnd
      omega
    have hnbs := hi.tiles.not_mem_of_lt (next_gt h) hcr hcn hnd'
    have hbn : b < n := lt_trans (next_gt h b) hcn
    have hleft8 : left % 8 = 0 := by
      have := mmGetBufSize_mod h b
      have := mmGetBlkSize_mod h c
      simp only [hleftdef, hT, mmlistHeadSize] at *
      omega
    have hleftmax : left < mmMaxSize := by
      have hrb := (hi.size_lt (List.mem_cons_of_mem r hb)).2.2
      simp only [mmlistHeadSize, mmMaxSize, mmMaxBit] at hnd hbound ⊢
      omega
    have hleft32 : left < 2 ^ 32 := by
      simp only [mmMaxSize, mmMaxBit] at hleftmax
      omega
    obtain ⟨ln, hln⟩ := sizeToLevel_of_lt hleftmax
    have hdn : d ≠ n := ne_of_gt hnd'
    have hhd : ∀ x, Header (R.blk x) =
        if x = d then (n, (W.blk d).bufSize ||| rhinoMmPrevfree)
        else if x = n then (b, left ||| rhinoMmFree ||| rhinoMmPrevalloced)
        else if x = b then ((W.blk b).prev, size ||| ((W.blk b).bufSize &&& rhinoMmPrestatMask))
        else Header (W.blk x) := fun x => by
      rw [hRdef, addsize_blk, reallocSplit_header W left x hs hs' hdn hdb, splitHead_header W b left x hs hs']
    have hRb : Header (R.blk b) =
        ((h.blk b).prev, size ||| (((h.blk b).bufSize + h.mmGetBlkSize c) &&& rhinoMmPrestatMask)) := by
      rw [hhd, if_neg (Ne.symm hdb), if_neg (ne_of_lt hbn), if_pos rfl, prev_of_header_eq hWb,
        bufSize_of_header_eq hWb]
    have hRd : Header (R.blk d) = (n, ((h.blk d).bufSize &&& sizeNot rhinoMmPrevfree) ||| rhinoMmPrevfree) := by
      rw [hhd, if_pos rfl, bufSize_of_header_eq hWd]
    have hRn : Header (R.blk n) = (b, left ||| rhinoMmFree ||| rhinoMmPrevalloced) := by
      rw [hhd, if_neg (Ne.symm hdn), if_pos rfl]
    have hRx : ∀ x, x ≠ b → x ≠ d → x ≠ n → Header (R.blk x) = Header (h.blk x) := by
      intro x hxb hxd hxn
      rw [hhd, if_neg hxd, if_neg hxn, if_neg hxb, hWhd, if_neg hxd, if_neg hxb]
    have hRbf : ¬ R.IsFree b := (isFree_of_header_eq hRb).not.mpr (split_free _ hs)
    have hRbs : R.mmGetBufSize b = size := (mmGetBufSize_of_header_eq hRb).trans (mask_split _ hs hs')
    have hRns : R.mmGetBufSize n = left := by
      rw [mmGetBufSize_of_header_eq hRn]
      exact newFree_mask hleft8 hleft32
    have hRdf : R.IsFree d ↔ h.IsFree d :=
      (isFree_of_header_eq hRd).trans ((lor_prevFree_free _).trans (clearPrevFree_free _))
    have hlists := (hlW.reallocSplit hs hs' hleft8 hleft32 hln (hnot₁ b (hi.not_listed hused))
      (fun l hl => hnbs.1 (List.mem_cons_of_mem r ((hi.listed n).mp ((hlisted₁ n).mp ⟨l, hl⟩).1).1))
      (hnot₁ d (hi.not_listed hdu)) (ne_of_gt (lt_of_le_of_lt (Nat.zero_le b) hbn)) (by omega) hdn).congr
      (show R.blk = (W.reallocSplit b d size left).blk from rfl) rfl rfl
    have hout : ∀ x ∈ bs, x ∉ [b, c] → (R.IsFree x ↔ h.IsFree x) := by
      intro x hx hxw
      have hxn : x ≠ n := fun h => hnbs.1 (h ▸ List.mem_cons_of_mem r hx)
      by_cases hxd : x = d
      · rw [hxd]
        exact hRdf
      · exact (SameFlags.of_header (hRx x (fun h => hxw (by rw [h]; exact List.mem_cons_self)) hxd hxn)).free
    refine ⟨pre ++ [b, n] ++ post, _, hi.split_window hbs' (List.cons_ne_nil b [c]) ⟨rfl, rfl, rfl⟩
      (fun x hx hxn hxd => hRx x (fun h => hx (by rw [h]; exact List.mem_cons_self)) hxd hxn) hRbf
      ((prevFree_of_header_eq hRb).trans ((split_prevFree _ hs).trans
        (add_aligned_flag _ (mmGetBlkSize_mod h c) (by decide))))
      (prev_of_header_eq hRb) (hRbs ▸ le_trans (hi.minSize b hb) (le_of_lt hbig))
      (by rw [mmGetNextBlk, hRbs]) ((isFree_of_header_eq hRn).mpr (newFree_free hleft8))
      ((prevFree_of_header_eq hRn).not.mpr (newFree_prevFree hleft8)) (hRns ▸ hleftmin)
      (by rw [mmGetNextBlk, hRns]; exact hnd) hRdf hdu
      ((prevFree_of_header_eq hRd).mpr (lor_prevFree_prevFree _)) (prev_of_header_eq hRd)
      ((mmGetBufSize_of_header_eq hRd).trans ((mask_lor_flags _ (by decide)).trans (mask_land_sizeNot _ (by decide))))
      (fun h32 => by
        rw [bufSize_of_header_eq hRd]
        exact Nat.or_lt_two_pow (lt_of_le_of_lt Nat.and_le_left h32) (by decide))
      hlists (fun x => ?_) (by simp [hRdef, hW]) hfixwin,
      KeepsUsed.window hbs' hwinU List.mem_cons_self hRbf hout⟩
    rw [FreeLists.listed_insert, hlisted₁]
    constructor
    · rintro (⟨⟨l, hl⟩, hxc⟩ | rfl)
      · refine .inl ⟨⟨l, hl⟩, fun hxw => ?_⟩
        rcases List.mem_cons.mp hxw with hxb | hxc'
        · exact hi.not_listed hused l (hxb ▸ hl)
        · exact hxc (List.mem_singleton.mp hxc')
      · exact .inr rfl
    · rintro (⟨hl, hxw⟩ | rfl)
      · exact .inl ⟨hl, fun hxc => hxw (by rw [hxc]; exact hcw)⟩
      · exact .inr rfl
  · -- no split: `b` takes all of `c`, and `d` no longer follows a free block
    simp only [hWbs, ge_iff_le, if_neg hsplit]
    set R := W.addsize (W.mmGetBlkSize b) reqSize with hRdef
    have hRx : ∀ x, x ≠ b → x ≠ d → Header (R.blk x) = Header (h.blk x) := by
      intro x hxb hxd
      rw [hRdef, addsize_blk, hWhd, if_neg hxd, if_neg hxb]
    have hRb : Header (R.blk b) = ((h.blk b).prev, (h.blk b).bufSize + h.mmGetBlkSize c) := by
      rw [hRdef, addsize_blk]
      exact hWb
    have hRd : Header (R.blk d) = (b, (h.blk d).bufSize &&& sizeNot rhinoMmPrevfree) := by
      rw [hRdef, addsize_blk]
      exact hWd
    have hRbs : R.mmGetBufSize b = T := hWbs
    have hRdf : R.IsFree d ↔ h.IsFree d := (isFree_of_header_eq hRd).trans (clearPrevFree_free _)
    have hout : ∀ x ∈ bs, x ∉ [b, c] → (R.IsFree x ↔ h.IsFree x) := by
      intro x _ hxw
      by_cases hxd : x = d
      · rw [hxd]
        exact hRdf
      · exact (SameFlags.of_header (hRx x (fun h => hxw (by rw [h]; exact List.mem_cons_self)) hxd)).free
    refine ⟨pre ++ [b] ++ post, _, hi.whole_window hbs' (List.cons_ne_nil b [c]) ⟨rfl, rfl, rfl⟩
      (fun x hx hxd => hRx x (fun h => hx (by rw [h]; exact List.mem_cons_self)) hxd) hWbu
      ((prevFree_of_header_eq hRb).trans (add_aligned_flag _ (mmGetBlkSize_mod h c) (by decide)))
      (prev_of_header_eq hRb)
      (by
        rw [hRbs]
        have := hi.minSize b hb
        omega)
      (by
        rw [mmGetNextBlk, hRbs, hT, mmGetBlkSize]
        show _ = c + mmlistHeadSize + h.mmGetBufSize c
        rw [hcb]
        omega)
      hRdf ((prevFree_of_header_eq hRd).not.mpr (clearPrevFree_prevFree _))
      ((mmGetBufSize_of_header_eq hRd).trans (mask_land_sizeNot _ (by decide)))
      (fun h32 => by rw [bufSize_of_header_eq hRd]; exact lt_of_le_of_lt Nat.and_le_left h32)
      (hlW.congr rfl rfl rfl) (fun x => ?_) (by simp [hRdef, hW]) hfixwin,
      KeepsUsed.window hbs' hwinU List.mem_cons_self hWbu hout⟩
    rw [hlisted₁]
    constructor
    · rintro ⟨⟨l, hl⟩, hxc⟩
      refine ⟨⟨l, hl⟩, fun hxw => ?_⟩
      rcases List.mem_cons.mp hxw with hxb | hxc'
      · exact hi.not_listed hused l (hxb ▸ hl)
      · exact hxc (List.mem_singleton.mp hxc')
    · rintro ⟨hl, hxw⟩
      exact ⟨hl, fun hxc => hxw (by rw [hxc]; exact hcw)⟩

/-- `k_mm_realloc` of a buffer the callers may give, on a heap with the invariant,
returns and keeps it: in place, moved, or through the pool. -/
theorem kMmRealloc (hi : h.RegionInv r e bs ls) {oldmem : Nat} (newSize : Nat) (hp : BufferOk h bs oldmem) :
    ∃ res, h.kMmRealloc oldmem newSize = some res ∧ ∃ bs' ls', res.1.RegionInv r e bs' ls' := by
  unfold MmHead.kMmRealloc
  by_cases h0 : oldmem = 0
  · -- `NULL`: an allocation, or nothing
    rw [if_pos h0]
    split_ifs
    · obtain ⟨res, hres, bs', ls', hinv, -⟩ := hi.kMmAlloc newSize
      exact ⟨res, hres, bs', ls', hinv⟩
    · exact ⟨_, rfl, bs, ls, hi⟩
  rw [if_neg h0]
  by_cases hn0 : newSize = 0
  · rw [if_pos hn0]
    obtain ⟨bs', ls', hinv⟩ := hi.kMmFree hp
    exact ⟨_, rfl, bs', ls', hinv⟩
  rw [if_neg hn0]
  by_cases hfx : h.mmIsFixedblk oldmem = true
  · -- a buffer of the pool: kept, or moved out of the pool
    rw [if_pos hfx]
    split_ifs
    · exact ⟨_, rfl, bs, ls, hi⟩
    · obtain ⟨res, hres, bs', ls', hinv, -⟩ := hi.kMmAlloc newSize
      refine ⟨_, by rw [hres]; rfl, bs', ls', ?_⟩
      dsimp only
      split_ifs
      · exact hinv.kMmSmallblkFree oldmem
      · exact hinv
  rw [if_neg hfx]
  -- the buffer of a used block `b` of the heap
  obtain ⟨b, hb, rfl, hused, hbfix⟩ :=
    (hp.resolve_left h0).resolve_left hfx
  rw [Nat.add_sub_cancel]
  dsimp only
  split_ifs with hshrink hgrow
  · obtain ⟨bs', ls', hinv, -⟩ := hi.reallocShrink newSize hb hused hbfix (mmReqSize_mod _) (mmReqSize_lt _)
      (mmMinSize_le_mmReqSize _) hshrink
    exact ⟨_, rfl, bs', ls', hinv⟩
  · obtain ⟨bs', ls', hinv, -⟩ := hi.reallocEnlarge newSize hb hused hbfix (mmReqSize_mod _) (mmReqSize_lt _)
      (not_le.mp hshrink) hgrow.1
    exact ⟨_, rfl, bs', ls', hinv⟩
  · -- moved: a new block, then the old one freed; the old block is still a used block
    obtain ⟨res, hres, bs', ls', hinv, hkeep⟩ := hi.kMmAlloc (mmReqSize newSize)
    refine ⟨_, by rw [hres]; rfl, ?_⟩
    dsimp only
    split_ifs
    · exact ⟨bs', ls', hinv⟩
    · obtain ⟨hb', hused'⟩ := hkeep b hb hused
      exact hinv.kMmFree (.inr (.inr ⟨b, hb', rfl, hused', by rw [kMmAlloc_fixedmblk h hres]; exact hbfix⟩))

end RegionInv

end MmHead

end Rhino
