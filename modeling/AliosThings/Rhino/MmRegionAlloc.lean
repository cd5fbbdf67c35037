import AliosThings.Rhino.MmRegionFree

/-!
# `k_mm_alloc` keeps the invariant of a region

`k_mm_alloc` takes out of its list the free block `g` that the lists give for the
request. When what is left past the request can hold a block of `MM_MIN_SIZE`, it splits
`g` there and puts the rest, free, in its list; else it hands out all of `g`, and the
block after `g` no longer follows a free block. The split rewrites the window `[g]` into
`[g, n]`, the whole block `[g]` into itself; `RegionInv.window` does the rest. The calls
of the fixed-block pool do not touch the region.

Along the way no used block of the heap changes: what `k_mm_alloc` hands out was free.
-/

namespace Rhino

namespace MmHead

variable (h : MmHead)

/-! ## The writes of a split -/

/-- The header `splitHead` writes first, with `b`'s new size. -/
theorem splitHead_first_mmGetNextBlk {size : Nat} (b : Nat) (hs : size % 8 = 0) (hs' : size < 2 ^ 32) :
    (h.setBlk b fun x => { x with bufSize := size ||| (x.bufSize &&& rhinoMmPrestatMask) }).mmGetNextBlk b =
      b + mmlistHeadSize + size := by
  rw [mmGetNextBlk, mmGetBufSize_setBlk_self, mask_split _ hs hs']

/-- A split of `b` at `size`: `b` keeps its `prev` and its `PREVFREE` bit, and the new
free block `b + 8 + size` follows it. -/
theorem splitHead_header {size : Nat} (b left x : Nat) (hs : size % 8 = 0) (hs' : size < 2 ^ 32) :
    Header ((h.splitHead b size left).blk x) =
      if x = b + mmlistHeadSize + size then (b, left ||| rhinoMmFree ||| rhinoMmPrevalloced)
      else if x = b then ((h.blk b).prev, size ||| ((h.blk b).bufSize &&& rhinoMmPrestatMask))
      else Header (h.blk x) := by
  simp only [splitHead]
  rw [header_setBlk, splitHead_first_mmGetNextBlk h b hs hs', header_setBlk]
  rfl

theorem splitHead_mmGetNextBlk {size : Nat} (b left : Nat) (hs : size % 8 = 0) (hs' : size < 2 ^ 32) :
    (h.splitHead b size left).mmGetNextBlk b = b + mmlistHeadSize + size := by
  rw [mmGetNextBlk, mmGetBufSize, splitHead_bufSize_self, mask_split _ hs hs']

/-- The new block holds `left` bytes. -/
theorem splitHead_mmGetBufSize_new {size left : Nat} (b : Nat) (hs : size % 8 = 0) (hs' : size < 2 ^ 32)
    (hleft : left % 8 = 0) (hleft' : left < 2 ^ 32) :
    (h.splitHead b size left).mmGetBufSize (b + mmlistHeadSize + size) = left := by
  have hhd : Header ((h.splitHead b size left).blk (b + mmlistHeadSize + size)) =
      (b, left ||| rhinoMmFree ||| rhinoMmPrevalloced) := by
    rw [splitHead_header h b left _ hs hs', if_pos rfl]
  rw [mmGetBufSize_of_header_eq hhd]
  exact newFree_mask hleft hleft'

/-- The split of `k_mm_alloc` writes `nextB`'s `prev` alone. -/
theorem allocSplit_header {b nextB size : Nat} (left x : Nat) (hs : size % 8 = 0) (hs' : size < 2 ^ 32)
    (hn : nextB ≠ b + mmlistHeadSize + size) (hb : nextB ≠ b) :
    Header ((h.allocSplit b nextB size left).blk x) =
      if x = nextB then (b + mmlistHeadSize + size, (h.blk nextB).bufSize)
      else Header ((h.splitHead b size left).blk x) := by
  have hnb : Header ((h.splitHead b size left).blk nextB) = Header (h.blk nextB) := by
    rw [splitHead_header h b left nextB hs hs', if_neg hn, if_neg hb]
  simp only [allocSplit]
  rw [header_of_sameHeaders (sameHeaders_kMmFreelistInsert _ _), header_setBlk,
    splitHead_mmGetNextBlk h b left hs hs', bufSize_of_header_eq hnb]
  rfl

/-- The split of `k_mm_realloc` also marks `nextB` as following a free block. -/
theorem reallocSplit_header {b nextB size : Nat} (left x : Nat) (hs : size % 8 = 0) (hs' : size < 2 ^ 32)
    (hn : nextB ≠ b + mmlistHeadSize + size) (hb : nextB ≠ b) :
    Header ((h.reallocSplit b nextB size left).blk x) =
      if x = nextB then (b + mmlistHeadSize + size, (h.blk nextB).bufSize ||| rhinoMmPrevfree)
      else Header ((h.splitHead b size left).blk x) := by
  have hnb : Header ((h.splitHead b size left).blk nextB) = Header (h.blk nextB) := by
    rw [splitHead_header h b left nextB hs hs', if_neg hn, if_neg hb]
  simp only [reallocSplit]
  rw [header_of_sameHeaders (sameHeaders_kMmFreelistInsert _ _), header_setBlk,
    splitHead_mmGetNextBlk h b left hs hs', bufSize_of_header_eq hnb]
  rfl

namespace FreeLists

variable {h} {ls : Nat → List Nat}

/-- The split writes the headers of `b` and of the new block, in no list. -/
theorem splitHead (hf : h.FreeLists ls) {b size : Nat} (left : Nat) (hs : size % 8 = 0) (hs' : size < 2 ^ 32)
    (hb : ∀ l, b ∉ ls l) (hn : ∀ l, b + mmlistHeadSize + size ∉ ls l) :
    (h.splitHead b size left).FreeLists ls := by
  have h₀ := hf.setBlk (fun x => { x with bufSize := size ||| (x.bufSize &&& rhinoMmPrestatMask) }) hb
    (fun _ => rfl) (fun _ => rfl)
  simp only [MmHead.splitHead]
  rw [splitHead_first_mmGetNextBlk h b hs hs']
  exact h₀.setBlk _ hn (fun _ => rfl) (fun _ => rfl)

/-- The split of `k_mm_alloc`: the new block, of `left` bytes, joins the list of its
level. -/
theorem allocSplit (hf : h.FreeLists ls) {b nextB size left level : Nat} (hs : size % 8 = 0)
    (hs' : size < 2 ^ 32) (hleft : left % 8 = 0) (hleft' : left < 2 ^ 32)
    (hlev : sizeToLevel left = some level) (hb : ∀ l, b ∉ ls l) (hn : ∀ l, b + mmlistHeadSize + size ∉ ls l)
    (hnb : ∀ l, nextB ∉ ls l) (hn0 : b + mmlistHeadSize + size ≠ 0) (hn32 : b + mmlistHeadSize + size < 2 ^ 32)
    (hnn : nextB ≠ b + mmlistHeadSize + size) :
    (h.allocSplit b nextB size left).FreeLists
      (Function.update ls level ((b + mmlistHeadSize + size) :: ls level)) := by
  have hS := (hf.splitHead left hs hs' hb hn).setBlk (fun x => { x with prev := b + mmlistHeadSize + size }) hnb
    (fun _ => rfl) (fun _ => rfl)
  simp only [MmHead.allocSplit]
  rw [splitHead_mmGetNextBlk h b left hs hs']
  refine hS.insert hn0 hn32 hn ?_
  rw [mmGetBufSize_setBlk_ne _ _ (Ne.symm hnn), splitHead_mmGetBufSize_new h b hs hs' hleft hleft']
  exact hlev

/-- The split of `k_mm_realloc`, likewise. -/
theorem reallocSplit (hf : h.FreeLists ls) {b nextB size left level : Nat} (hs : size % 8 = 0)
    (hs' : size < 2 ^ 32) (hleft : left % 8 = 0) (hleft' : left < 2 ^ 32)
    (hlev : sizeToLevel left = some level) (hb : ∀ l, b ∉ ls l) (hn : ∀ l, b + mmlistHeadSize + size ∉ ls l)
    (hnb : ∀ l, nextB ∉ ls l) (hn0 : b + mmlistHeadSize + size ≠ 0) (hn32 : b + mmlistHeadSize + size < 2 ^ 32)
    (hnn : nextB ≠ b + mmlistHeadSize + size) :
    (h.reallocSplit b nextB size left).FreeLists
      (Function.update ls level ((b + mmlistHeadSize + size) :: ls level)) := by
  have hS := (hf.splitHead left hs hs' hb hn).setBlk
    (fun x => { x with prev := b + mmlistHeadSize + size, bufSize := x.bufSize ||| rhinoMmPrevfree }) hnb
    (fun _ => rfl) (fun _ => rfl)
  simp only [MmHead.reallocSplit]
  rw [splitHead_mmGetNextBlk h b left hs hs']
  refine hS.insert hn0 hn32 hn ?_
  rw [mmGetBufSize_setBlk_ne _ _ (Ne.symm hnn), splitHead_mmGetBufSize_new h b hs hs' hleft hleft']
  exact hlev

end FreeLists

/-! ## The block `k_mm_alloc` hands out -/

/-- The headers after `takeBlk` splits `g`: `g` used with `size` bytes, the new free
block `n` after it, and the block after `g` naming `n` as `prev`. -/
theorem takeBlk_header_split {g size : Nat} (reqSize x : Nat) (hs : size % 8 = 0) (hs' : size < 2 ^ 32)
    (hsplit : size + mmlistHeadSize + mmMinSize ≤ h.mmGetBufSize g) :
    Header ((h.takeBlk g size reqSize).1.blk x) =
      if x = g then ((h.blk g).prev, (size ||| ((h.blk g).bufSize &&& rhinoMmPrestatMask)) &&& sizeNot rhinoMmFree)
      else if x = h.mmGetNextBlk g then (g + mmlistHeadSize + size, (h.blk x).bufSize)
      else if x = g + mmlistHeadSize + size then
        (g, (h.mmGetBufSize g - size - mmlistHeadSize) ||| rhinoMmFree ||| rhinoMmPrevalloced)
      else Header (h.blk x) := by
  have hsD := sameHeaders_kMmFreelistDelete h g
  have hcn : h.mmGetNextBlk g ≠ g + mmlistHeadSize + size := by
    simp only [mmGetNextBlk, mmlistHeadSize, mmMinSize, mmMinBit] at hsplit ⊢
    omega
  have hcg : h.mmGetNextBlk g ≠ g := ne_of_gt (mmGetNextBlk_gt h g)
  have hng : g ≠ g + mmlistHeadSize + size := by
    simp only [mmlistHeadSize]
    omega
  simp only [takeBlk, addsize_blk, hsD.mmGetNextBlk, hsD.mmGetBufSize, ge_iff_le, if_pos hsplit]
  rw [header_setBlk]
  by_cases hxg : x = g
  · -- `g`: the size the split wrote, then the `FREE` bit cleared
    subst hxg
    have hAg : Header (((h.kMmFreelistDelete x).allocSplit x (h.mmGetNextBlk x) size
        (h.mmGetBufSize x - size - mmlistHeadSize)).blk x) =
        ((h.blk x).prev, size ||| ((h.blk x).bufSize &&& rhinoMmPrestatMask)) := by
      rw [allocSplit_header _ _ _ hs hs' hcn hcg, if_neg (Ne.symm hcg), splitHead_header _ _ _ _ hs hs', if_neg hng,
        if_pos rfl, hsD.prev, hsD.bufSize]
    rw [if_pos rfl, if_pos rfl, prev_of_header_eq hAg, bufSize_of_header_eq hAg]
    rfl
  · rw [if_neg hxg, if_neg hxg, allocSplit_header _ _ _ hs hs' hcn hcg, splitHead_header _ _ _ _ hs hs', if_neg hxg,
      hsD.bufSize, header_of_sameHeaders hsD]
    by_cases hxc : x = h.mmGetNextBlk g
    · rw [if_pos hxc, if_pos hxc, hxc]
    · rw [if_neg hxc, if_neg hxc]

/-- The headers after `takeBlk` hands out all of `g`: `g` used, and the block after it no
longer following a free block. -/
theorem takeBlk_header_whole {g size : Nat} (reqSize x : Nat)
    (hsplit : ¬ size + mmlistHeadSize + mmMinSize ≤ h.mmGetBufSize g) :
    Header ((h.takeBlk g size reqSize).1.blk x) =
      if x = g then ((h.blk g).prev, (h.blk g).bufSize &&& sizeNot rhinoMmFree)
      else if x = h.mmGetNextBlk g then ((h.blk x).prev, (h.blk x).bufSize &&& sizeNot rhinoMmPrevfree)
      else Header (h.blk x) := by
  have hsD := sameHeaders_kMmFreelistDelete h g
  have hcg : h.mmGetNextBlk g ≠ g := ne_of_gt (mmGetNextBlk_gt h g)
  simp only [takeBlk, addsize_blk, hsD.mmGetNextBlk, hsD.mmGetBufSize, ge_iff_le, if_neg hsplit]
  rw [header_setBlk, setBlk_blk_ne _ _ (Ne.symm hcg)]
  by_cases hxg : x = g
  · rw [if_pos hxg, if_pos hxg, hsD.prev, hsD.bufSize]
    rfl
  · rw [if_neg hxg, if_neg hxg, header_setBlk, header_of_sameHeaders hsD]
    by_cases hxc : x = h.mmGetNextBlk g
    · rw [if_pos hxc, if_pos hxc, hxc, hsD.prev, hsD.bufSize]
      rfl
    · rw [if_neg hxc, if_neg hxc]

@[simp] theorem takeBlk_fixedmblk (g size reqSize : Nat) : (h.takeBlk g size reqSize).1.fixedmblk = h.fixedmblk := by
  simp only [takeBlk]
  split_ifs <;> simp [allocSplit, splitHead, addsize]

theorem mmMinSize_le_mmReqSize (size : Nat) : mmMinSize ≤ mmReqSize size := by
  unfold mmReqSize
  split_ifs with hlt
  · exact le_rfl
  · exact not_lt.mp hlt

/-- The fixed-block pool hands out its blocks without touching the region. -/
@[simp] theorem kMmSmallblkAlloc_blk (size : Nat) : (h.kMmSmallblkAlloc size).1.blk = h.blk := by
  unfold kMmSmallblkAlloc
  split <;> rfl

@[simp] theorem kMmSmallblkAlloc_freelist (size : Nat) : (h.kMmSmallblkAlloc size).1.freelist = h.freelist := by
  unfold kMmSmallblkAlloc
  split <;> rfl

@[simp] theorem kMmSmallblkAlloc_freeBitmap (size : Nat) :
    (h.kMmSmallblkAlloc size).1.freeBitmap = h.freeBitmap := by
  unfold kMmSmallblkAlloc
  split <;> rfl

@[simp] theorem kMmSmallblkAlloc_fixedmblk (size : Nat) :
    (h.kMmSmallblkAlloc size).1.fixedmblk = h.fixedmblk := by
  unfold kMmSmallblkAlloc
  split <;> rfl

/-- What `k_mm_alloc` past the fixed blocks returns: the heap as it was and `NULL`, or
what `takeBlk` leaves of a block it found. -/
theorem kMmAllocTlf_eq {reqSize : Nat} {res : MmHead × Nat} (halloc : h.kMmAllocTlf reqSize = some res) :
    res = (h, 0) ∨ ∃ g, g ≠ 0 ∧ res = h.takeBlk g (mmReqSize reqSize) reqSize := by
  unfold kMmAllocTlf at halloc
  cases hlev : sizeToLevel (mmReqSize reqSize) with
  | none =>
    rw [hlev] at halloc
    exact .inl (Option.some.inj halloc).symm
  | some level =>
    rw [hlev] at halloc
    obtain ⟨g, -, hres⟩ := Option.map_eq_some_iff.mp halloc
    by_cases hg : g = 0
    · rw [if_pos hg] at hres
      exact .inl hres.symm
    · rw [if_neg hg] at hres
      exact .inr ⟨g, hg, hres.symm⟩

theorem kMmAllocTlf_fixedmblk {reqSize : Nat} {res : MmHead × Nat} (halloc : h.kMmAllocTlf reqSize = some res) :
    res.1.fixedmblk = h.fixedmblk := by
  rcases kMmAllocTlf_eq h halloc with rfl | ⟨g, -, rfl⟩
  · rfl
  · exact takeBlk_fixedmblk h _ _ _

/-- `k_mm_alloc` never changes the block of the fixed-block pool. -/
theorem kMmAlloc_fixedmblk {size : Nat} {res : MmHead × Nat} (halloc : h.kMmAlloc size = some res) :
    res.1.fixedmblk = h.fixedmblk := by
  unfold kMmAlloc at halloc
  split_ifs at halloc
  · cases halloc
    rfl
  · cases halloc
    exact kMmSmallblkAlloc_fixedmblk h size
  · exact kMmAllocTlf_fixedmblk h halloc

namespace FreeLists

variable {h} {ls : Nat → List Nat}

/-- After the split of `g`, taken from the list of its level, the new block `n` is in
the list of its own level. -/
theorem takeBlk_split (hf : h.FreeLists ls) {g lg size ln : Nat} (reqSize : Nat) (hg : g ∈ ls lg)
    (hs : size % 8 = 0) (hs' : size < 2 ^ 32) (hsplit : size + mmlistHeadSize + mmMinSize ≤ h.mmGetBufSize g)
    (hlev : sizeToLevel (h.mmGetBufSize g - size - mmlistHeadSize) = some ln)
    (hn : ∀ l, g + mmlistHeadSize + size ∉ ls l) (hc : ∀ l, h.mmGetNextBlk g ∉ ls l)
    (hn0 : g + mmlistHeadSize + size ≠ 0) (hn32 : g + mmlistHeadSize + size < 2 ^ 32) :
    (h.takeBlk g size reqSize).1.FreeLists
      (Function.update (Function.update ls lg ((ls lg).erase g)) ln
        ((g + mmlistHeadSize + size) :: Function.update ls lg ((ls lg).erase g) ln)) := by
  have hsD := sameHeaders_kMmFreelistDelete h g
  have hlisted := listed_delete hf hg
  have hout : ∀ x, (∀ l, x ∉ ls l) → ∀ l, x ∉ Function.update ls lg ((ls lg).erase g) l :=
    fun x hx l hl => hx _ ((hlisted x).mp ⟨l, hl⟩).1.choose_spec
  have hcn : h.mmGetNextBlk g ≠ g + mmlistHeadSize + size := by
    simp only [mmGetNextBlk, mmlistHeadSize, mmMinSize, mmMinBit] at hsplit ⊢
    omega
  have hleft : (h.mmGetBufSize g - size - mmlistHeadSize) % 8 = 0 := by
    have := mmGetBufSize_mod h g
    simp only [mmlistHeadSize]
    omega
  have hleft' : h.mmGetBufSize g - size - mmlistHeadSize < 2 ^ 32 := by
    have := mmGetBufSize_eq h g
    omega
  have hA := (hf.delete hg).allocSplit hs hs' hleft hleft' hlev (fun l hl => ((hlisted g).mp ⟨l, hl⟩).2 rfl)
    (hout _ hn) (hout _ hc) hn0 hn32 hcn
  simp only [takeBlk, hsD.mmGetNextBlk, hsD.mmGetBufSize, ge_iff_le, if_pos hsplit]
  refine (hA.setBlk (b := g) (fun x => { x with bufSize := x.bufSize &&& sizeNot rhinoMmFree }) (fun l hl => ?_)
    (fun _ => rfl) (fun _ => rfl)).congr rfl rfl rfl
  rcases (listed_insert _ _ _ g).mp ⟨l, hl⟩ with hl | hgn
  · exact ((hlisted g).mp hl).2 rfl
  · simp only [mmlistHeadSize] at hgn
    omega

/-- On lists that are chains of blocks, the scan of `k_mm_alloc` ends: past the fixed
blocks it always returns. -/
theorem kMmAllocTlf_isSome (hf : h.FreeLists ls) (reqSize : Nat) : (h.kMmAllocTlf reqSize).isSome := by
  unfold kMmAllocTlf
  cases sizeToLevel (mmReqSize reqSize) with
  | none => rfl
  | some level =>
    dsimp only
    split
    · rw [scanLevel_chain h (hf.chain level) _ (hf.length_le_mmScanFuel level)]
      rfl
    · rfl

/-- When all of `g` is handed out, it leaves its list and the lists are otherwise kept. -/
theorem takeBlk_whole (hf : h.FreeLists ls) {g lg size : Nat} (reqSize : Nat) (hg : g ∈ ls lg)
    (hsplit : ¬ size + mmlistHeadSize + mmMinSize ≤ h.mmGetBufSize g) (hc : ∀ l, h.mmGetNextBlk g ∉ ls l) :
    (h.takeBlk g size reqSize).1.FreeLists (Function.update ls lg ((ls lg).erase g)) := by
  have hsD := sameHeaders_kMmFreelistDelete h g
  have hlisted := listed_delete hf hg
  simp only [takeBlk, hsD.mmGetNextBlk, hsD.mmGetBufSize, ge_iff_le, if_neg hsplit]
  have hC := (hf.delete hg).setBlk (b := h.mmGetNextBlk g)
    (fun x => { x with bufSize := x.bufSize &&& sizeNot rhinoMmPrevfree })
    (fun l hl => hc _ ((hlisted _).mp ⟨l, hl⟩).1.choose_spec) (fun _ => rfl) (fun _ => rfl)
  exact (hC.setBlk (b := g) (fun x => { x with bufSize := x.bufSize &&& sizeNot rhinoMmFree })
    (fun l hl => ((hlisted g).mp ⟨l, hl⟩).2 rfl) (fun _ => rfl) (fun _ => rfl)).congr rfl rfl rfl

end FreeLists

/-- Every used block of `h` among `bs` is still a used block of `h'`, among `bs'`. -/
def KeepsUsed (h h' : MmHead) (bs bs' : List Nat) : Prop :=
  ∀ x ∈ bs, ¬ h.IsFree x → x ∈ bs' ∧ ¬ h'.IsFree x

theorem KeepsUsed.trans {h h' h'' : MmHead} {bs bs' bs'' : List Nat} (h₁ : KeepsUsed h h' bs bs')
    (h₂ : KeepsUsed h' h'' bs' bs'') : KeepsUsed h h'' bs bs'' := by
  intro x hx hxu
  obtain ⟨hx', hxu'⟩ := h₁ x hx hxu
  exact h₂ x hx' hxu'

theorem KeepsUsed.of_blk {h h' : MmHead} (hb : h'.blk = h.blk) (bs : List Nat) : KeepsUsed h h' bs bs :=
  fun _ hx hxu => ⟨hx, (sameHeaders_of_blk h hb).isFree _ |>.not.mpr hxu⟩

/-- What `k_mm_alloc` hands out of the region of `h`, leaving `h'`: `NULL`, or the buffer
of a block `g` that was free with at least `size` bytes and is now used. -/
inductive Handed (h h' : MmHead) (bs bs' : List Nat) (size : Nat) : Nat → Prop
  | null : Handed h h' bs bs' size 0
  | block (g : Nat) : g ∈ bs → h.IsFree g → size ≤ h.mmGetBufSize g → g ∈ bs' → ¬ h'.IsFree g →
      Handed h h' bs bs' size (g + mmlistHeadSize)

/-- A call that rewrites a window of `bs` keeps every used block when the only used block
of the window is `a`, still used, and the blocks outside the window keep their flag. -/
theorem KeepsUsed.window {h h' : MmHead} {bs pre win win' post : List Nat} {a : Nat}
    (hbs : bs = pre ++ win ++ post) (hwin : ∀ x ∈ win, ¬ h.IsFree x → x = a) (ha : a ∈ win')
    (hau : ¬ h'.IsFree a) (hout : ∀ x ∈ bs, x ∉ win → (h'.IsFree x ↔ h.IsFree x)) :
    KeepsUsed h h' bs (pre ++ win' ++ post) := by
  intro x hx hxu
  by_cases hxw : x ∈ win
  · rw [hwin x hxw hxu]
    exact ⟨List.mem_append_left _ (List.mem_append_right _ ha), hau⟩
  · refine ⟨?_, (hout x hx hxw).not.mpr hxu⟩
    rw [hbs] at hx
    rcases List.mem_append.mp hx with hx | hx
    · exact List.mem_append_left _ (List.mem_append_left _ ((List.mem_append.mp hx).resolve_right hxw))
    · exact List.mem_append_right _ hx

namespace RegionInv

variable {h} {r e : Nat} {bs : List Nat} {ls : Nat → List Nat}

/-- A call that leaves the window from `a` to `z` as the used block `a` followed by a new
free block `n`, listed, that the used block `z` follows, keeps the invariant: the split
of `k_mm_alloc` and of `k_mm_realloc`. -/
theorem split_window {R : MmHead} {ls' : Nat → List Nat} (hi : h.RegionInv r e bs ls) {pre win post : List Nat}
    {a n z : Nat} (hbs : bs = pre ++ win ++ post) (hwne : win ≠ []) (hwin : Tiling.Tiles h.mmGetNextBlk a z win)
    (hframe : ∀ x, x ∉ win → x ≠ n → x ≠ z → Header (R.blk x) = Header (h.blk x))
    (hau : ¬ R.IsFree a) (hpfa : R.PrevFree a ↔ h.PrevFree a) (hpa : (R.blk a).prev = (h.blk a).prev)
    (hsa : mmMinSize ≤ R.mmGetBufSize a) (hna : R.mmGetNextBlk a = n)
    (hnf : R.IsFree n) (hnpf : ¬ R.PrevFree n) (hsn : mmMinSize ≤ R.mmGetBufSize n) (hnn : R.mmGetNextBlk n = z)
    (hzf : R.IsFree z ↔ h.IsFree z) (hzu : ¬ h.IsFree z) (hzpf : R.PrevFree z) (hzp : (R.blk z).prev = n)
    (hzs : R.mmGetBufSize z = h.mmGetBufSize z) (hz32 : (h.blk z).bufSize < 2 ^ 32 → (R.blk z).bufSize < 2 ^ 32)
    (hlists : R.FreeLists ls') (hlisted : ∀ x, (∃ l, x ∈ ls' l) ↔ ((∃ l, x ∈ ls l) ∧ x ∉ win) ∨ x = n)
    (hfix : R.fixedmblk = h.fixedmblk) (hfixwin : h.fixedmblk ∉ win) :
    R.RegionInv r e (pre ++ [a, n] ++ post) ls' := by
  have hmem_n : n ∈ [a, n] := List.mem_cons_of_mem a (List.mem_singleton_self n)
  refine hi.window hbs hwne hwin (show Tiling.Tiles _ a z [a, n] from ⟨rfl, hna, hnn⟩)
    (fun x hx hx' hxz => hframe x hx (fun h => hx' (h ▸ hmem_n)) hxz) hpfa hpa (fun _ => hau) hzf hzs hz32
    (fun x hx => ?_) (fun x hx => ?_) hlists (fun x => ?_) hfix hfixwin
  · -- `a`, used, followed by the free `n`, followed by `z`, used
    rcases List.mem_cons.mp hx with rfl | hx
    · refine ⟨?_, fun hf => absurd hf hau, fun hf => absurd hf hau⟩
      rw [hna]
      exact iff_of_false hnpf hau
    · rw [List.mem_singleton.mp hx]
      refine ⟨?_, fun _ => ?_, fun _ => ?_⟩
      · rw [hnn]
        exact iff_of_true hzpf hnf
      · rw [hnn]
        exact hzp
      · rw [hnn]
        exact hzf.not.mpr hzu
  · rcases List.mem_cons.mp hx with rfl | hx
    · exact hsa
    · rw [List.mem_singleton.mp hx]
      exact hsn
  · rw [hlisted x]
    constructor
    · rintro (hl | rfl)
      · exact .inl hl
      · exact .inr ⟨hmem_n, hnf⟩
    · rintro (hl | ⟨hx, hxf⟩)
      · exact .inl hl
      · rcases List.mem_cons.mp hx with rfl | hx
        · exact absurd hxf hau
        · exact .inr (List.mem_singleton.mp hx)

/-- A call that leaves the window from `a` to `z` as the one used block `a`, which `z` no
longer follows as a free block, keeps the invariant: `k_mm_alloc` and `k_mm_realloc`
when they take a block whole. -/
theorem whole_window {R : MmHead} {ls' : Nat → List Nat} (hi : h.RegionInv r e bs ls) {pre win post : List Nat}
    {a z : Nat} (hbs : bs = pre ++ win ++ post) (hwne : win ≠ []) (hwin : Tiling.Tiles h.mmGetNextBlk a z win)
    (hframe : ∀ x, x ∉ win → x ≠ z → Header (R.blk x) = Header (h.blk x))
    (hau : ¬ R.IsFree a) (hpfa : R.PrevFree a ↔ h.PrevFree a) (hpa : (R.blk a).prev = (h.blk a).prev)
    (hsa : mmMinSize ≤ R.mmGetBufSize a) (hna : R.mmGetNextBlk a = z)
    (hzf : R.IsFree z ↔ h.IsFree z) (hznpf : ¬ R.PrevFree z)
    (hzs : R.mmGetBufSize z = h.mmGetBufSize z) (hz32 : (h.blk z).bufSize < 2 ^ 32 → (R.blk z).bufSize < 2 ^ 32)
    (hlists : R.FreeLists ls') (hlisted : ∀ x, (∃ l, x ∈ ls' l) ↔ (∃ l, x ∈ ls l) ∧ x ∉ win)
    (hfix : R.fixedmblk = h.fixedmblk) (hfixwin : h.fixedmblk ∉ win) :
    R.RegionInv r e (pre ++ [a] ++ post) ls' := by
  refine hi.window hbs hwne hwin (show Tiling.Tiles _ a z [a] from ⟨rfl, hna⟩)
    (fun x hx _ hxz => hframe x hx hxz) hpfa hpa (fun _ => hau) hzf hzs hz32
    (fun x hx => ?_) (fun x hx => ?_) hlists (fun x => ?_) hfix hfixwin
  · rw [List.mem_singleton.mp hx]
    refine ⟨?_, fun hf => absurd hf hau, fun hf => absurd hf hau⟩
    rw [hna]
    exact iff_of_false hznpf hau
  · rw [List.mem_singleton.mp hx]
    exact hsa
  · rw [hlisted x]
    constructor
    · exact .inl
    · rintro (hl | ⟨hx, hxf⟩)
      · exact hl
      · rw [List.mem_singleton.mp hx] at hxf
        exact absurd hxf hau

/-- `takeBlk` of a listed block `g` large enough to split: `g`, used and of `size` bytes,
and the rest of it, free and listed, take `g`'s place. -/
theorem takeBlk_split (hi : h.RegionInv r e bs ls) {g lg size : Nat} (reqSize : Nat) (hg : g ∈ ls lg)
    (hs : size % 8 = 0) (hs' : size < 2 ^ 32) (hmin : mmMinSize ≤ size)
    (hsplit : size + mmlistHeadSize + mmMinSize ≤ h.mmGetBufSize g) :
    ∃ bs' ls', (h.takeBlk g size reqSize).1.RegionInv r e bs' ls' ∧ g ∈ bs' ∧
      ¬ (h.takeBlk g size reqSize).1.IsFree g ∧ KeepsUsed h (h.takeBlk g size reqSize).1 bs bs' := by
  set R := (h.takeBlk g size reqSize).1 with hR
  set c := h.mmGetNextBlk g with hcdef
  set n := g + mmlistHeadSize + size with hndef
  set left := h.mmGetBufSize g - size - mmlistHeadSize with hleftdef
  obtain ⟨hgbs, hgf⟩ := (hi.listed g).mp ⟨lg, hg⟩
  obtain ⟨pre, post, hbs⟩ := List.append_of_mem hgbs
  have hbs' : bs = pre ++ [g] ++ post := by
    rw [hbs, List.append_assoc, List.singleton_append]
  have hgr : g ∈ r :: bs := List.mem_cons_of_mem r hgbs
  have hlink := hi.links g hgr
  -- the new block lies strictly inside `g`, so it is no block of the heap
  have hgn : g < n := by
    simp only [hndef, mmlistHeadSize]
    omega
  have hnc : n < c := by
    simp only [hndef, hcdef, mmGetNextBlk, mmlistHeadSize, mmMinSize, mmMinBit] at hsplit ⊢
    omega
  have hnbs := hi.tiles.not_mem_of_lt (next_gt h) hgr hgn hnc
  have hcg : c ≠ g := ne_of_gt (next_gt h g)
  have hsize := hi.size_lt hgr
  have hleft8 : left % 8 = 0 := by
    have := mmGetBufSize_mod h g
    simp only [hleftdef, mmlistHeadSize]
    omega
  have hleft32 : left < 2 ^ 32 := by
    have := mmGetBufSize_eq h g
    omega
  have hleftmin : mmMinSize ≤ left := by
    simp only [hleftdef, mmlistHeadSize] at hsplit ⊢
    omega
  obtain ⟨ln, hln⟩ := sizeToLevel_of_lt (show left < mmMaxSize by omega)
  -- the headers `takeBlk` leaves
  have hhd := fun x => takeBlk_header_split h reqSize x hs hs' hsplit
  have hRg : Header (R.blk g) =
      ((h.blk g).prev, (size ||| ((h.blk g).bufSize &&& rhinoMmPrestatMask)) &&& sizeNot rhinoMmFree) := by
    rw [hhd, if_pos rfl]
  have hRc : Header (R.blk c) = (n, (h.blk c).bufSize) := by
    rw [hhd, if_neg hcg, if_pos rfl]
  have hRn : Header (R.blk n) = (g, left ||| rhinoMmFree ||| rhinoMmPrevalloced) := by
    rw [hhd, if_neg (ne_of_gt hgn), if_neg (ne_of_lt hnc), if_pos rfl]
  have hRx : ∀ x, x ≠ g → x ≠ c → x ≠ n → Header (R.blk x) = Header (h.blk x) := by
    intro x hxg hxc hxn
    rw [hhd, if_neg hxg, if_neg hxc, if_neg hxn]
  have hRgf : ¬ R.IsFree g := (isFree_of_header_eq hRg).not.mpr (clearFree_free _)
  have hRgs : R.mmGetBufSize g = size := by
    rw [mmGetBufSize_of_header_eq hRg, mask_land_sizeNot _ (by decide), mask_split _ hs hs']
  have hRns : R.mmGetBufSize n = left := by
    rw [mmGetBufSize_of_header_eq hRn]
    exact newFree_mask hleft8 hleft32
  have hRcf : R.IsFree c ↔ h.IsFree c := isFree_of_header_eq hRc
  have hRnn : R.mmGetNextBlk n = c := by
    rw [mmGetNextBlk, hRns]
    simp only [hndef, hcdef, hleftdef, mmGetNextBlk, mmlistHeadSize, mmMinSize, mmMinBit] at hsplit ⊢
    omega
  have hlists := FreeLists.takeBlk_split hi.lists reqSize hg hs hs' hsplit hln
    (fun l hl => hnbs.1 (List.mem_cons_of_mem r ((hi.listed n).mp ⟨l, hl⟩).1))
    (hi.not_listed (hlink.coalesced hgf)) (ne_of_gt (lt_of_le_of_lt (Nat.zero_le g) hgn))
    (by have := hi.bound; omega)
  -- outside `g`, a block of the heap is neither `n` nor, unless it is `c`, written
  have hout : ∀ x ∈ bs, x ∉ [g] → (R.IsFree x ↔ h.IsFree x) := by
    intro x hx hxg
    have hxn : x ≠ n := fun h => hnbs.1 (h ▸ List.mem_cons_of_mem r hx)
    by_cases hxc : x = c
    · rw [hxc]
      exact hRcf
    · exact (SameFlags.of_header (hRx x (fun h => hxg (h ▸ List.mem_singleton_self g)) hxc hxn)).free
  refine ⟨pre ++ [g, n] ++ post, _, hi.split_window hbs' (List.cons_ne_nil g []) ⟨rfl, rfl⟩
    (fun x hx hxn hxc => hRx x (fun h => hx (h ▸ List.mem_singleton_self g)) hxc hxn) hRgf
    ((prevFree_of_header_eq hRg).trans ((clearFree_prevFree _).trans (split_prevFree _ hs)))
    (prev_of_header_eq hRg) (hRgs ▸ hmin) (by rw [mmGetNextBlk, hRgs]) ((isFree_of_header_eq hRn).mpr (newFree_free hleft8))
    ((prevFree_of_header_eq hRn).not.mpr (newFree_prevFree hleft8)) (hRns ▸ hleftmin) hRnn hRcf
    (hlink.coalesced hgf) ((prevFree_of_header_eq hRc).mpr (hlink.prevFree.mpr hgf)) (prev_of_header_eq hRc)
    (mmGetBufSize_of_header_eq hRc) (fun h32 => by rw [bufSize_of_header_eq hRc]; exact h32) hlists
    (fun x => ?_) (takeBlk_fixedmblk h g size reqSize)
    (fun hf => hi.fixedmblk_ne_of_free hgbs hgf (List.mem_singleton.mp hf)),
    List.mem_append_left _ (List.mem_append_right _ List.mem_cons_self), hRgf,
    KeepsUsed.window hbs' (fun x hx hxu => absurd hgf (List.mem_singleton.mp hx ▸ hxu)) List.mem_cons_self hRgf hout⟩
  -- the lists lose `g` and gain `n`
  rw [FreeLists.listed_insert, FreeLists.listed_delete hi.lists hg, List.mem_singleton]

/-- `takeBlk` of a listed block `g` too small to split: all of `g` is handed out, and the
block after it no longer follows a free block. -/
theorem takeBlk_whole (hi : h.RegionInv r e bs ls) {g lg size : Nat} (reqSize : Nat) (hg : g ∈ ls lg)
    (hsplit : ¬ size + mmlistHeadSize + mmMinSize ≤ h.mmGetBufSize g) :
    ∃ bs' ls', (h.takeBlk g size reqSize).1.RegionInv r e bs' ls' ∧ g ∈ bs' ∧
      ¬ (h.takeBlk g size reqSize).1.IsFree g ∧ KeepsUsed h (h.takeBlk g size reqSize).1 bs bs' := by
  set R := (h.takeBlk g size reqSize).1 with hR
  set c := h.mmGetNextBlk g with hcdef
  obtain ⟨hgbs, hgf⟩ := (hi.listed g).mp ⟨lg, hg⟩
  obtain ⟨pre, post, hbs⟩ := List.append_of_mem hgbs
  have hbs' : bs = pre ++ [g] ++ post := by
    rw [hbs, List.append_assoc, List.singleton_append]
  have hlink := hi.links g (List.mem_cons_of_mem r hgbs)
  have hcg : c ≠ g := ne_of_gt (next_gt h g)
  -- the headers `takeBlk` leaves
  have hhd := fun x => takeBlk_header_whole h reqSize x hsplit
  have hRg : Header (R.blk g) = ((h.blk g).prev, (h.blk g).bufSize &&& sizeNot rhinoMmFree) := by
    rw [hhd, if_pos rfl]
  have hRc : Header (R.blk c) = ((h.blk c).prev, (h.blk c).bufSize &&& sizeNot rhinoMmPrevfree) := by
    rw [hhd, if_neg hcg, if_pos rfl]
  have hRx : ∀ x, x ≠ g → x ≠ c → Header (R.blk x) = Header (h.blk x) := by
    intro x hxg hxc
    rw [hhd, if_neg hxg, if_neg hxc]
  have hRgf : ¬ R.IsFree g := (isFree_of_header_eq hRg).not.mpr (clearFree_free _)
  have hRgs : R.mmGetBufSize g = h.mmGetBufSize g :=
    (mmGetBufSize_of_header_eq hRg).trans (mask_land_sizeNot _ (by decide))
  have hRcf : R.IsFree c ↔ h.IsFree c := (isFree_of_header_eq hRc).trans (clearPrevFree_free _)
  have hout : ∀ x ∈ bs, x ∉ [g] → (R.IsFree x ↔ h.IsFree x) := by
    intro x _ hxg
    by_cases hxc : x = c
    · rw [hxc]
      exact hRcf
    · exact (SameFlags.of_header (hRx x (fun h => hxg (h ▸ List.mem_singleton_self g)) hxc)).free
  refine ⟨pre ++ [g] ++ post, _, hi.whole_window hbs' (List.cons_ne_nil g []) ⟨rfl, rfl⟩
    (fun x hx hxc => hRx x (fun h => hx (h ▸ List.mem_singleton_self g)) hxc) hRgf
    ((prevFree_of_header_eq hRg).trans (clearFree_prevFree _)) (prev_of_header_eq hRg)
    (hRgs ▸ hi.minSize g hgbs) (by rw [mmGetNextBlk, hRgs, mmGetNextBlk]) hRcf
    ((prevFree_of_header_eq hRc).not.mpr (clearPrevFree_prevFree _))
    ((mmGetBufSize_of_header_eq hRc).trans (mask_land_sizeNot _ (by decide)))
    (fun h32 => by rw [bufSize_of_header_eq hRc]; exact lt_of_le_of_lt Nat.and_le_left h32)
    (FreeLists.takeBlk_whole hi.lists reqSize hg hsplit (hi.not_listed (hlink.coalesced hgf)))
    (fun x => ?_) (takeBlk_fixedmblk h g size reqSize)
    (fun hf => hi.fixedmblk_ne_of_free hgbs hgf (List.mem_singleton.mp hf)),
    List.mem_append_left _ (List.mem_append_right _ List.mem_cons_self), hRgf,
    KeepsUsed.window hbs' (fun x hx hxu => absurd hgf (List.mem_singleton.mp hx ▸ hxu)) List.mem_cons_self hRgf hout⟩
  rw [FreeLists.listed_delete hi.lists hg, List.mem_singleton]

/-- `takeBlk` of a listed block of at least `size` bytes keeps the invariant, whether it
splits the block or hands it out whole. -/
theorem takeBlk (hi : h.RegionInv r e bs ls) {g lg size : Nat} (reqSize : Nat) (hg : g ∈ ls lg)
    (hs : size % 8 = 0) (hs' : size < 2 ^ 32) (hmin : mmMinSize ≤ size) :
    ∃ bs' ls', (h.takeBlk g size reqSize).1.RegionInv r e bs' ls' ∧ g ∈ bs' ∧
      ¬ (h.takeBlk g size reqSize).1.IsFree g ∧ KeepsUsed h (h.takeBlk g size reqSize).1 bs bs' := by
  by_cases hsplit : size + mmlistHeadSize + mmMinSize ≤ h.mmGetBufSize g
  · exact hi.takeBlk_split reqSize hg hs hs' hmin hsplit
  · exact hi.takeBlk_whole reqSize hg hsplit

/-- The invariant reads the headers, the free lists, the bitmap and the pool's block. -/
theorem congr (hi : h.RegionInv r e bs ls) {h' : MmHead} (hb : h'.blk = h.blk) (hl : h'.freelist = h.freelist)
    (hm : h'.freeBitmap = h.freeBitmap) (hfix : h'.fixedmblk = h.fixedmblk) : h'.RegionInv r e bs ls := by
  have hs := sameHeaders_of_blk h hb
  have hn : h'.mmGetNextBlk = h.mmGetNextBlk := funext hs.mmGetNextBlk
  refine ⟨hn ▸ hi.tiles, fun x hx => (hi.links x hx).congr (hs.isFree x) (hs.mmGetNextBlk x)
      (SameFlags.of_header (hs _)), (hs.isFree r).not.mpr hi.info,
    ⟨(hs.mmGetBufSize e).trans hi.sentinel.1, (hs.isFree e).not.mpr hi.sentinel.2⟩,
    fun x hx => (hs.mmGetBufSize x).symm ▸ hi.minSize x hx, hi.bound, hi.lists.congr hb hl hm,
    fun x => (hi.listed x).trans (and_congr_right fun _ => (hs.isFree x).symm), ?_⟩
  rw [hfix, hb]
  rcases hi.fixed with h0 | ⟨hmem, hu, h32⟩
  · exact .inl h0
  · exact .inr ⟨hmem, (hs.isFree _).not.mpr hu, h32⟩

theorem kMmSmallblkAlloc (hi : h.RegionInv r e bs ls) (size : Nat) :
    (h.kMmSmallblkAlloc size).1.RegionInv r e bs ls :=
  hi.congr (kMmSmallblkAlloc_blk h size) (kMmSmallblkAlloc_freelist h size) (kMmSmallblkAlloc_freeBitmap h size)
    (kMmSmallblkAlloc_fixedmblk h size)

/-- `k_mm_alloc` past the fixed blocks, on a heap with the invariant, returns and keeps
it. The buffer it hands out, unless `NULL`, is that of a block that was free, with at
least the size it looks for, and is now used; no used block changes. -/
theorem kMmAllocTlf (hi : h.RegionInv r e bs ls) (reqSize : Nat) :
    ∃ res, h.kMmAllocTlf reqSize = some res ∧ ∃ bs' ls', res.1.RegionInv r e bs' ls' ∧
      KeepsUsed h res.1 bs bs' ∧ Handed h res.1 bs bs' (mmReqSize reqSize) res.2 := by
  obtain ⟨res, hres⟩ := Option.isSome_iff_exists.mp (hi.lists.kMmAllocTlf_isSome reqSize)
  refine ⟨res, hres, ?_⟩
  rcases kMmAllocTlf_eq h hres with rfl | ⟨g, -, rfl⟩
  · exact ⟨bs, ls, hi, KeepsUsed.of_blk rfl bs, .null⟩
  · -- the block found is one of the lists, large enough
    obtain ⟨l, hgl, hsize⟩ := hi.lists.kMmAllocTlf_takes_listed hres (by simp [mmlistHeadSize])
    rw [Nat.add_sub_cancel] at hgl hsize
    obtain ⟨bs', ls', hinv, hgbs', hgu, hkeep⟩ :=
      hi.takeBlk reqSize hgl (mmReqSize_mod _) (mmReqSize_lt _) (mmMinSize_le_mmReqSize _)
    obtain ⟨hgbs, hgf⟩ := (hi.listed g).mp ⟨l, hgl⟩
    exact ⟨bs', ls', hinv, hkeep, .block g hgbs hgf hsize hgbs' hgu⟩

/-- `k_mm_alloc` on a heap with the invariant returns and keeps it, and no used block
changes. -/
theorem kMmAlloc (hi : h.RegionInv r e bs ls) (size : Nat) :
    ∃ res, h.kMmAlloc size = some res ∧ ∃ bs' ls', res.1.RegionInv r e bs' ls' ∧ KeepsUsed h res.1 bs bs' := by
  unfold MmHead.kMmAlloc
  split_ifs
  · exact ⟨_, rfl, bs, ls, hi, KeepsUsed.of_blk rfl bs⟩
  · exact ⟨_, rfl, bs, ls, hi.kMmSmallblkAlloc size, KeepsUsed.of_blk (kMmSmallblkAlloc_blk h size) bs⟩
  · obtain ⟨res, hres, bs', ls', hinv, hkeep, -⟩ := hi.kMmAllocTlf size
    exact ⟨res, hres, bs', ls', hinv, hkeep⟩

/-- On a heap with the invariant, `k_mm_alloc` past the fixed blocks returns `NULL` only
when every free block of the heap is smaller than the size it looks for: `find_up_level`
finds any block of a higher level, the scan any large enough block of the request's own
level, and the blocks of the lower levels are smaller. -/
theorem kMmAllocTlf_null (hi : h.RegionInv r e bs ls) {reqSize : Nat} {h' : MmHead}
    (halloc : h.kMmAllocTlf reqSize = some (h', 0)) {x : Nat} (hx : x ∈ bs) (hxf : h.IsFree x) :
    h.mmGetBufSize x < mmReqSize reqSize := by
  obtain ⟨lx, hxl, hlx⟩ := hi.mem_of_free hx hxf
  have hxmax := (hi.size_lt (List.mem_cons_of_mem r hx)).1
  have hx32 : h.mmGetBufSize x < 2 ^ 32 := by
    simp only [mmMaxSize, mmMaxBit] at hxmax
    omega
  unfold MmHead.kMmAllocTlf at halloc
  cases hlev : sizeToLevel (mmReqSize reqSize) with
  | none =>
    -- a size of no level is past `MM_MAX_SIZE`, past every block
    by_contra hge
    obtain ⟨l, hl⟩ := sizeToLevel_of_lt (lt_of_le_of_lt (not_lt.mp hge) hxmax)
    rw [hl] at hlev
    cases hlev
  | some level =>
    rw [hlev] at halloc
    obtain ⟨g, hfound, hres⟩ := Option.map_eq_some_iff.mp halloc
    -- `takeBlk` hands out a buffer past its block's header, never `NULL`
    have hg0 : g = 0 := by
      by_contra hg
      rw [if_neg hg] at hres
      have hsnd := congrArg Prod.snd hres
      simp [mmlistHeadSize] at hsnd
    have hlevel : level + 1 < 32 := by
      have := sizeToLevel_lt hlev
      simp only [mmBitLevel, mmMaxBit, mmMinBit] at this
      omega
    rw [hg0] at hfound
    split at hfound
    · next hup =>
      rcases hi.lists.findUpLevel_eq hlevel with ⟨l, -, hne, -, heq⟩ | ⟨hempty, -⟩
      · -- a non-empty list above would have a head
        rw [heq] at hup
        exact absurd ((hi.lists.chain l).eq_zero_iff.mp hup) hne
      · rw [scanLevel_chain h (hi.lists.chain level) _ (hi.lists.length_le_mmScanFuel level)] at hfound
        -- the scan ran off the end of its list: no block of it is large enough
        have hfind : (ls level).find? (fun a => decide (mmReqSize reqSize ≤ h.mmGetBufSize a)) = none := by
          cases hf : (ls level).find? (fun a => decide (mmReqSize reqSize ≤ h.mmGetBufSize a)) with
          | none => rfl
          | some a =>
            rw [hf] at hfound
            have ha0 : a = 0 := Option.some.inj hfound
            exact absurd (ha0 ▸ List.mem_of_find?_eq_some hf) (hi.lists.chain level).not_mem_zero
        rcases lt_trichotomy lx level with hlt | rfl | hgt
        · exact lt_of_sizeToLevel_lt hx32 (mmReqSize_lt _) hlx hlev hlt
        · simpa using List.find?_eq_none.mp hfind x hxl
        · exact absurd (hempty lx hgt) (List.ne_nil_of_mem hxl)
    · next hup => exact absurd (Option.some.inj hfound) hup

/-- `k_mm_alloc` of a non-zero size, on a heap with the invariant, returns `NULL` only when
no free block of the heap holds the size aligned up to `MM_ALIGN_SIZE`, and at least
`MM_MIN_SIZE`. -/
theorem kMmAlloc_null (hi : h.RegionInv r e bs ls) {size : Nat} {h' : MmHead} (hsize : size ≠ 0)
    (halloc : h.kMmAlloc size = some (h', 0)) : ∀ x ∈ bs, h.IsFree x → h.mmGetBufSize x < mmReqSize size := by
  unfold MmHead.kMmAlloc at halloc
  rw [if_neg hsize] at halloc
  split_ifs at halloc with hpool
  · -- the pool is asked only while it has a block, and then hands one out
    have hsnd := congrArg Prod.snd (Option.some.inj halloc)
    exact absurd hsnd hpool.2.2.2
  · exact fun x hx hxf => hi.kMmAllocTlf_null halloc hx hxf

end RegionInv

end MmHead

end Rhino
