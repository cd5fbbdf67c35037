import AliosThings.Rhino.MmRegion
import AliosThings.Rhino.MmStats

/-!
# `k_mm_free` keeps the invariant of a region

`k_mm_free` of a used block `b` sets its `FREE` bit, merges the block after it when
that one is free, merges `b` into the block before it when that one is free, puts the
merged block in the list of its level and marks the block after it as following a free
block. The four cases rewrite four windows: `b` alone, `b` and the block after it, the
block before `b` and `b`, or all three; `RegionInv.window` does the rest.
-/

namespace Rhino

namespace MmHead

variable (h : MmHead)

/-! ## The writes, header by header -/

theorem header_setBlk (b : Nat) (f : MmList → MmList) (x : Nat) :
    Header ((h.setBlk b f).blk x) = if x = b then Header (f (h.blk b)) else Header (h.blk x) := by
  by_cases hx : x = b
  · subst hx
    simp
  · simp [hx]

@[simp] theorem kMmFreelistInsert_fixedmblk (b : Nat) : (h.kMmFreelistInsert b).fixedmblk = h.fixedmblk := by
  unfold kMmFreelistInsert
  split
  · split
    · unfold linkHead
      split <;> rfl
    · rfl
  · rfl

@[simp] theorem kMmFreelistDelete_fixedmblk (b : Nat) : (h.kMmFreelistDelete b).fixedmblk = h.fixedmblk := by
  unfold kMmFreelistDelete
  split
  · split
    · unfold unlinkHead unlinkPrev unlinkNext
      split_ifs <;> rfl
    · rfl
  · rfl

@[simp] theorem absorb_fixedmblk (b c : Nat) : (h.absorb b c).fixedmblk = h.fixedmblk := rfl

@[simp] theorem removesize_fixedmblk (size : Nat) : (h.removesize size).fixedmblk = h.fixedmblk := rfl

@[simp] theorem releaseBlk_fixedmblk (b : Nat) : (h.releaseBlk b).fixedmblk = h.fixedmblk := by
  simp [releaseBlk]

theorem absorb_header (b c x : Nat) :
    Header ((h.absorb b c).blk x) =
      if x = b then ((h.blk b).prev, (h.blk b).bufSize + h.mmGetBlkSize c) else Header (h.blk x) := by
  rw [absorb, header_setBlk]
  rfl

theorem absorb_header_ne {b x : Nat} (c : Nat) (hx : x ≠ b) : Header ((h.absorb b c).blk x) = Header (h.blk x) := by
  rw [absorb_header, if_neg hx]

/-- A merge keeps the flags and the `prev` of the block that grows. -/
theorem absorb_sameFlags (b c : Nat) : SameFlags h (h.absorb b c) b :=
  SameFlags.setBlk h _ rfl (add_aligned_flag _ (mmGetBlkSize_mod h c) (by decide))
    (add_aligned_flag _ (mmGetBlkSize_mod h c) (by decide)) b

theorem absorb_mmGetBufSize (b c : Nat) (hlt : h.mmGetBufSize b + h.mmGetBlkSize c < 2 ^ 32) :
    (h.absorb b c).mmGetBufSize b = h.mmGetBufSize b + h.mmGetBlkSize c := by
  rw [absorb, mmGetBufSize_setBlk_self]
  exact add_aligned_mask _ (mmGetBlkSize_mod h c) hlt

/-- After the merge, the block ends where the block it absorbed ended. -/
theorem absorb_mmGetNextBlk {b c : Nat} (hbc : h.mmGetNextBlk b = c) (hlt : h.mmGetNextBlk c < 2 ^ 32) :
    (h.absorb b c).mmGetNextBlk b = h.mmGetNextBlk c := by
  have hsum : h.mmGetBufSize b + h.mmGetBlkSize c < 2 ^ 32 := by
    simp only [mmGetNextBlk, mmGetBlkSize] at hbc hlt ⊢
    omega
  simp only [mmGetNextBlk] at hbc ⊢
  rw [absorb_mmGetBufSize h b c hsum, mmGetBlkSize]
  omega

/-- `releaseBlk m`: only the header after `m` changes, to follow the free `m`. -/
theorem releaseBlk_header (m x : Nat) :
    Header ((h.releaseBlk m).blk x) =
      if x = h.mmGetNextBlk m then (m, (h.blk x).bufSize ||| rhinoMmPrevfree) else Header (h.blk x) := by
  have hs := sameHeaders_kMmFreelistInsert h m
  rw [releaseBlk, header_setBlk, hs.mmGetNextBlk m]
  by_cases hx : x = h.mmGetNextBlk m
  · rw [if_pos hx, if_pos hx, hx]
    simp only [Header, hs.bufSize]
  · rw [if_neg hx, if_neg hx]
    exact hs x

theorem releaseBlk_mmGetNextBlk (m : Nat) : (h.releaseBlk m).mmGetNextBlk m = h.mmGetNextBlk m :=
  mmGetNextBlk_of_header (by rw [releaseBlk_header, if_neg (ne_of_lt (mmGetNextBlk_gt h m))])

namespace FreeLists

variable {h} {ls : Nat → List Nat}

/-- `releaseBlk m` of a block `m` in no list, followed by a block in no list: `m` joins
the list of its level. -/
theorem releaseBlk (hf : h.FreeLists ls) {m level : Nat} (hm0 : m ≠ 0) (hm32 : m < 2 ^ 32)
    (hnot : ∀ l, m ∉ ls l) (hlev : sizeToLevel (h.mmGetBufSize m) = some level)
    (hnext : ∀ l, h.mmGetNextBlk m ∉ ls l) :
    (h.releaseBlk m).FreeLists (Function.update ls level (m :: ls level)) := by
  have hins := hf.insert hm0 hm32 hnot hlev
  rw [MmHead.releaseBlk, (sameHeaders_kMmFreelistInsert h m).mmGetNextBlk m]
  refine hins.setBlk _ (fun l hl => ?_) (fun _ => rfl) (fun _ => rfl)
  rcases (listed_insert ls m level _).mp ⟨l, hl⟩ with ⟨l', hl'⟩ | heq
  · exact hnext l' hl'
  · exact absurd heq (ne_of_gt (mmGetNextBlk_gt h m))

end FreeLists

/-! ## The steps of `k_mm_free` -/

/-- `free_b->buf_size |= RHINO_MM_FREE` and `stats_removesize`: the first two steps of
`k_mm_free` of the block `b`. -/
def markFree (b : Nat) : MmHead :=
  let h := h.setBlk b fun x => { x with bufSize := x.bufSize ||| rhinoMmFree }
  h.removesize (h.mmGetBlkSize b)

/-- `k_mm_free` of a buffer that is not a fixed block: the merges and the release of the
block that results. -/
theorem kMmFree_eq {b : Nat} (hfx : h.mmIsFixedblk (b + mmlistHeadSize) = false) :
    h.kMmFree (b + mmlistHeadSize) =
      (((h.markFree b).mergeNext b).mergePrev b).releaseBlk (((h.markFree b).mergeNext b).mergePrevBlk b) := by
  rw [kMmFree, if_neg (by simp [mmlistHeadSize]), hfx, if_neg Bool.false_ne_true, Nat.add_sub_cancel]
  rfl

theorem markFree_header (b x : Nat) :
    Header ((h.markFree b).blk x) =
      if x = b then ((h.blk b).prev, (h.blk b).bufSize ||| rhinoMmFree) else Header (h.blk x) := by
  simp only [markFree, removesize_blk]
  exact header_setBlk h b _ x

@[simp] theorem markFree_fixedmblk (b : Nat) : (h.markFree b).fixedmblk = h.fixedmblk := rfl

theorem markFree_mmGetNextBlk (b x : Nat) : (h.markFree b).mmGetNextBlk x = h.mmGetNextBlk x := by
  simp only [mmGetNextBlk, markFree, removesize_mmGetBufSize]
  rw [setFlags_mmGetBufSize _ _ _ (by decide)]

/-- The merges of `k_mm_free`, by the flags they test. -/
theorem mergeNext_of_free {b : Nat} (hc : h.IsFree (h.mmGetNextBlk b)) :
    h.mergeNext b = (h.kMmFreelistDelete (h.mmGetNextBlk b)).absorb b (h.mmGetNextBlk b) :=
  if_pos hc

theorem mergeNext_of_used {b : Nat} (hc : ¬ h.IsFree (h.mmGetNextBlk b)) : h.mergeNext b = h :=
  if_neg hc

theorem mergePrev_of_prevFree {b : Nat} (hp : h.PrevFree b) :
    h.mergePrev b = (h.kMmFreelistDelete (h.blk b).prev).absorb (h.blk b).prev b :=
  if_pos hp

theorem mergePrev_of_prevUsed {b : Nat} (hp : ¬ h.PrevFree b) : h.mergePrev b = h :=
  if_neg hp

theorem mergePrevBlk_of_prevFree {b : Nat} (hp : h.PrevFree b) : h.mergePrevBlk b = (h.blk b).prev :=
  if_pos hp

theorem mergePrevBlk_of_prevUsed {b : Nat} (hp : ¬ h.PrevFree b) : h.mergePrevBlk b = b :=
  if_neg hp

/-- The reads of a header, through `Header`. -/
theorem isFree_header (a : Nat) : h.IsFree a ↔ (Header (h.blk a)).2 &&& rhinoMmFree ≠ 0 := Iff.rfl

theorem prevFree_header (a : Nat) : h.PrevFree a ↔ (Header (h.blk a)).2 &&& rhinoMmPrevfree ≠ 0 := Iff.rfl

theorem mmGetBufSize_header (a : Nat) : h.mmGetBufSize a = (Header (h.blk a)).2 &&& sizeNot mmAlignMask := rfl

theorem prev_header (a : Nat) : (h.blk a).prev = (Header (h.blk a)).1 := rfl

section Read

variable {h} {a p w : Nat} (hh : Header (h.blk a) = (p, w))
include hh

theorem isFree_of_header_eq : h.IsFree a ↔ w &&& rhinoMmFree ≠ 0 := by
  rw [isFree_header, hh]

theorem prevFree_of_header_eq : h.PrevFree a ↔ w &&& rhinoMmPrevfree ≠ 0 := by
  rw [prevFree_header, hh]

theorem prev_of_header_eq : (h.blk a).prev = p := by
  rw [prev_header, hh]

theorem bufSize_of_header_eq : (h.blk a).bufSize = w := by
  have : (Header (h.blk a)).2 = w := by rw [hh]
  exact this

theorem mmGetBufSize_of_header_eq : h.mmGetBufSize a = w &&& sizeNot mmAlignMask := by
  rw [mmGetBufSize_header, hh]

end Read

namespace RegionInv

variable {h} {r e : Nat} {bs : List Nat} {ls : Nat → List Nat}

/-- The buffer of a used block of the heap other than the pool's is not taken for a
fixed block. -/
theorem mmIsFixedblk_eq_false (hi : h.RegionInv r e bs ls) {b : Nat} (hb : b ∈ bs) (hfix : b ≠ h.fixedmblk) :
    h.mmIsFixedblk (b + mmlistHeadSize) = false := by
  rcases hi.fixed with h0 | ⟨hfb, -, hf32⟩
  · simp [mmIsFixedblk, h0]
  · have hgt := next_gt h
    have hw := le_mask_add hf32
    have hlt := hgt h.fixedmblk
    simp only [mmIsFixedblk, Bool.and_eq_false_iff, decide_eq_false_iff_not, not_lt]
    rcases hi.tiles.disjoint hgt (List.mem_cons_of_mem r hb) (List.mem_cons_of_mem r hfb) with heq | hle | hle
    · exact absurd heq hfix
    · -- `b` lies before the pool's block
      have := hgt b
      left; right
      omega
    · -- `b` lies after the pool's block, past its buffer and flags
      right
      simp only [mmGetNextBlk, mmGetBufSize, mmlistHeadSize] at hle hw ⊢
      omega

/-- The free lists after the first two steps: `b` is in none of them. -/
theorem markFree_lists (hi : h.RegionInv r e bs ls) {b : Nat} (hused : ¬ h.IsFree b) :
    (h.markFree b).FreeLists ls :=
  (hi.lists.setBlk (fun x => { x with bufSize := x.bufSize ||| rhinoMmFree }) (hi.not_listed hused)
    (fun _ => rfl) (fun _ => rfl)).congr rfl rfl rfl

/-- The block after a block of the heap starts the rest of the list, or is the sentinel. -/
theorem next_cons (hi : h.RegionInv r e bs ls) {pre t : List Nat} {b : Nat} (hbs : bs = pre ++ b :: t) :
    (t = [] ∧ h.mmGetNextBlk b = e) ∨ ∃ t', t = h.mmGetNextBlk b :: t' := by
  have ht : Tiling.Tiles h.mmGetNextBlk r e ((r :: pre) ++ b :: t) := by
    rw [List.cons_append, ← hbs]
    exact hi.tiles
  obtain ⟨m, -, hm⟩ := Tiling.Tiles.append_iff.mp ht
  exact Tiling.Tiles.cons_tail hm

/-- The block before a block of the heap ends the list before it, unless it is the info
block. -/
theorem pred_snoc (hi : h.RegionInv r e bs ls) {s t : List Nat} {b p : Nat} (hbs : bs = s ++ b :: t)
    (hp : p ∈ r :: bs) (hpb : h.mmGetNextBlk p = b) (hpr : p ≠ r) : ∃ pre, s = pre ++ [p] := by
  have ht : Tiling.Tiles h.mmGetNextBlk r e ((r :: s) ++ b :: t) := by
    rw [List.cons_append, ← hbs]
    exact hi.tiles
  obtain ⟨l₀, q, hl, hqb⟩ := ht.init_snoc (List.cons_ne_nil r s)
  have hq : q ∈ r :: bs := by
    rw [hbs, ← List.cons_append, hl]
    exact List.mem_append_left _ (List.mem_append_right _ List.mem_cons_self)
  have hqp : q = p := hi.tiles.next_inj (next_gt h) hq hp (hqb.trans hpb.symm)
  subst hqp
  cases l₀ with
  | nil => exact absurd (List.cons.inj hl).1.symm hpr
  | cons c l₀ => exact ⟨l₀, (List.cons.inj hl).2⟩

/-- A free block follows a used block. -/
theorem not_prevFree_of_free (hi : h.RegionInv r e bs ls) {x : Nat} (hx : x ∈ bs) (hf : h.IsFree x) :
    ¬ h.PrevFree x := by
  obtain ⟨q, hq, hqx⟩ := hi.tiles.pred_mem (List.mem_cons_of_mem r hx) (ne_of_gt (hi.lt_of_mem hx))
  have hpf := (hi.links q hq).prevFree
  have hco := (hi.links q hq).coalesced
  rw [hqx] at hpf hco
  exact fun hx => hco (hpf.mp hx) hf

/-- The pool's block, being used, is no free block. -/
theorem fixedmblk_ne_of_free (hi : h.RegionInv r e bs ls) {x : Nat} (hx : x ∈ bs) (hf : h.IsFree x) :
    h.fixedmblk ≠ x := by
  rcases hi.fixed with h0 | ⟨-, hff, -⟩
  · exact fun hfx => hi.ne_zero hx (hfx.symm.trans h0)
  · exact fun hfx => hff (hfx ▸ hf)

end RegionInv

/-- The state of `k_mm_free` between its merges: the block `m` is free and spans the
window `win` of `h`'s blocks up to `z`, every header outside the window is `h`'s, and
the lists `ls'` hold the free blocks of `ls` outside the window. -/
structure Merged (h X : MmHead) (ls ls' : Nat → List Nat) (m z : Nat) (win : List Nat) : Prop where
  tiles : Tiling.Tiles h.mmGetNextBlk m z win
  nonempty : win ≠ []
  next : X.mmGetNextBlk m = z
  frame : ∀ x, x ∉ win → Header (X.blk x) = Header (h.blk x)
  free : X.IsFree m
  prevFree : X.PrevFree m ↔ h.PrevFree m
  prev : (X.blk m).prev = (h.blk m).prev
  minSize : mmMinSize ≤ X.mmGetBufSize m
  lists : X.FreeLists ls'
  listed : ∀ x, (∃ l, x ∈ ls' l) ↔ (∃ l, x ∈ ls l) ∧ x ∉ win
  endUsed : ¬ h.IsFree z
  fixed : X.fixedmblk = h.fixedmblk
  fixedOut : h.fixedmblk ∉ win

namespace RegionInv

variable {h} {r e : Nat} {bs : List Nat} {ls : Nat → List Nat}

/-- The first merge of `k_mm_free`: `b`, marked free, absorbs the block after it when
that one is free. -/
theorem merged_next (hi : h.RegionInv r e bs ls) {b : Nat} (hb : b ∈ bs) (hused : ¬ h.IsFree b)
    (hfix : b ≠ h.fixedmblk) :
    ∃ win₀ z ls₁ pre post, bs = pre ++ (b :: win₀) ++ post ∧
      Merged h ((h.markFree b).mergeNext b) ls ls₁ b z (b :: win₀) := by
  set c := h.mmGetNextBlk b with hcdef
  set Y := h.markFree b with hY
  have hbc : c ≠ b := ne_of_gt (next_gt h b)
  have hhd := markFree_header h b
  have hbY : Header (Y.blk b) = ((h.blk b).prev, (h.blk b).bufSize ||| rhinoMmFree) := by
    rw [hhd, if_pos rfl]
  have hcY : Header (Y.blk c) = Header (h.blk c) := by
    rw [hhd, if_neg hbc]
  have hpfY : Y.PrevFree b ↔ h.PrevFree b := (prevFree_of_header_eq hbY).trans (lor_free_prevFree _)
  have hfreeY : Y.IsFree b := (isFree_of_header_eq hbY).mpr (lor_free_free _)
  have hprevY : (Y.blk b).prev = (h.blk b).prev := prev_of_header_eq hbY
  have hminY : mmMinSize ≤ Y.mmGetBufSize b := by
    rw [mmGetBufSize_of_header_eq hbY, mask_lor_flags _ (by decide)]
    exact hi.minSize b hb
  have hlistsY := hi.markFree_lists hused
  have hbl : ∀ l, b ∉ ls l := hi.not_listed hused
  obtain ⟨pre, t, hbs⟩ := List.append_of_mem hb
  by_cases hc : h.IsFree c
  · -- `c` is a free block of the heap, the sentinel being used; the block after it is used
    rcases hi.next_cons hbs with ⟨-, hce⟩ | ⟨post, ht⟩
    · exact absurd (hce ▸ hc) hi.sentinel.2
    subst ht
    have hcbs : c ∈ bs := by
      rw [hbs]
      exact List.mem_append_right _ (List.mem_cons_of_mem _ List.mem_cons_self)
    obtain ⟨lc, hcl, -⟩ := hi.mem_of_free hcbs hc
    set d := h.mmGetNextBlk c with hddef
    have hdle : d ≤ e := (hi.size_lt (List.mem_cons_of_mem r hcbs)).2.1
    have hsD := sameHeaders_kMmFreelistDelete Y c
    set X := (Y.kMmFreelistDelete c).absorb b c with hX
    have hZ : Y.mergeNext b = X := by
      rw [mergeNext_of_free _ (by rw [markFree_mmGetNextBlk]; exact (SameFlags.of_header hcY).free.mpr hc),
        markFree_mmGetNextBlk]
    have hXb : SameFlags Y X b := (SameFlags.of_header (hsD b)).trans (absorb_sameFlags _ b c)
    have hnextX : X.mmGetNextBlk b = d := by
      rw [hX, absorb_mmGetNextBlk _ (by rw [hsD.mmGetNextBlk, markFree_mmGetNextBlk])
        (by rw [hsD.mmGetNextBlk, markFree_mmGetNextBlk]; exact lt_of_le_of_lt hdle hi.bound.2),
        hsD.mmGetNextBlk, markFree_mmGetNextBlk]
    have hminX : mmMinSize ≤ X.mmGetBufSize b := by
      have hcb : h.mmGetNextBlk b = c := rfl
      have := next_gt h c
      simp only [mmGetNextBlk, mmlistHeadSize] at hnextX hcb hddef this
      have := hi.minSize b hb
      omega
    have hlisted₁ := FreeLists.listed_delete hlistsY hcl
    rw [hZ]
    refine ⟨[c], d, Function.update ls lc ((ls lc).erase c), pre, post, by rw [hbs]; simp [hcdef], ?_⟩
    exact {
      tiles := ⟨rfl, rfl, rfl⟩
      nonempty := List.cons_ne_nil b [c]
      next := hnextX
      frame := fun x hx => by
        have hxb : x ≠ b := fun h => hx (h ▸ List.mem_cons_self)
        rw [hX, absorb_header_ne _ _ hxb, hsD x, hhd, if_neg hxb]
      free := hXb.free.mpr hfreeY
      prevFree := hXb.prevFree.trans hpfY
      prev := hXb.prev.trans hprevY
      minSize := hminX
      lists := (hlistsY.delete hcl).setBlk _ (fun l hl => hbl _ ((hlisted₁ b).mp ⟨l, hl⟩).1.choose_spec)
        (fun _ => rfl) (fun _ => rfl)
      listed := fun x => by
        rw [hlisted₁ x]
        constructor
        · rintro ⟨hl, hxc⟩
          refine ⟨hl, fun hx => ?_⟩
          rcases List.mem_cons.mp hx with rfl | hx
          · obtain ⟨l, hl⟩ := hl
            exact hbl l hl
          · exact hxc (List.mem_singleton.mp hx)
        · rintro ⟨hl, hx⟩
          exact ⟨hl, fun hxc => hx (hxc ▸ List.mem_cons_of_mem _ List.mem_cons_self)⟩
      endUsed := (hi.links c (List.mem_cons_of_mem r hcbs)).coalesced hc
      fixed := by simp [hX, hY]
      fixedOut := fun hf => by
        rcases List.mem_cons.mp hf with hf | hf
        · exact hfix hf.symm
        · exact hi.fixedmblk_ne_of_free hcbs hc (List.mem_singleton.mp hf) }
  · -- nothing to merge after `b`
    rw [mergeNext_of_used _ (by rw [markFree_mmGetNextBlk]; exact (SameFlags.of_header hcY).free.not.mpr hc)]
    refine ⟨[], c, ls, pre, t, by rw [hbs]; simp, ?_⟩
    exact {
      tiles := ⟨rfl, rfl⟩
      nonempty := List.cons_ne_nil b []
      next := markFree_mmGetNextBlk h b b
      frame := fun x hx => by rw [hhd, if_neg fun h => hx (List.mem_singleton.mpr h)]
      free := hfreeY
      prevFree := hpfY
      prev := hprevY
      minSize := hminY
      lists := hlistsY
      listed := fun x => ⟨fun hl => ⟨hl, fun hx => by
          obtain ⟨l, hl⟩ := hl
          rw [List.mem_singleton.mp hx] at hl
          exact hbl l hl⟩, fun hl => hl.1⟩
      endUsed := hc
      fixed := markFree_fixedmblk h b
      fixedOut := fun hf => hfix (List.mem_singleton.mp hf).symm }

/-- The second merge of `k_mm_free`: the block before `b`, when free, absorbs it. -/
theorem merged_prev (hi : h.RegionInv r e bs ls) {Z : MmHead} {ls₁ : Nat → List Nat} {pre win₀ post : List Nat}
    {b z : Nat} (hbs : bs = pre ++ (b :: win₀) ++ post) (hm : Merged h Z ls ls₁ b z (b :: win₀))
    (hp : h.PrevFree b) :
    ∃ pre' ls₂, pre = pre' ++ [(h.blk b).prev] ∧ ¬ h.PrevFree (h.blk b).prev ∧
      Merged h ((Z.kMmFreelistDelete (h.blk b).prev).absorb (h.blk b).prev b) ls ls₂ (h.blk b).prev z
        ((h.blk b).prev :: b :: win₀) := by
  have hbbs : b ∈ bs := by
    rw [hbs]
    exact List.mem_append_left _ (List.mem_append_right _ List.mem_cons_self)
  -- the free block before `b`, which `prev` names
  obtain ⟨p, hp', hpb⟩ := hi.tiles.pred_mem (List.mem_cons_of_mem r hbbs) (ne_of_gt (hi.lt_of_mem hbbs))
  have hlpf := (hi.links p hp').prevFree
  have hlprev := (hi.links p hp').prev
  rw [hpb] at hlpf hlprev
  have hpf : h.IsFree p := hlpf.mp hp
  rw [hlprev hpf]
  have hpr : p ≠ r := fun hpr => hi.info (hpr ▸ hpf)
  have hpbs : p ∈ bs := (List.mem_cons.mp hp').resolve_left hpr
  obtain ⟨pre', hpre⟩ := hi.pred_snoc (show bs = pre ++ b :: (win₀ ++ post) by rw [hbs]; simp) hp' hpb hpr
  have hpw : p ∉ b :: win₀ := fun hpw => by
    have := (hm.tiles.le_of_mem (next_gt h) hpw).1
    have := next_gt h p
    omega
  have hbz : b < z := lt_of_lt_of_le (next_gt h b) (hm.tiles.le_of_mem (next_gt h) List.mem_cons_self).2
  have hzle : z ≤ e := by
    have htiles : Tiling.Tiles h.mmGetNextBlk r e ((r :: pre) ++ (b :: win₀) ++ post) := by
      rw [List.cons_append, List.cons_append, ← hbs]
      exact hi.tiles
    exact (htiles.around hm.nonempty hm.tiles).2.le (next_gt h)
  -- `Z` has `h`'s header at `p`, in its list
  have hZp := SameFlags.of_header (hm.frame p hpw)
  have hnextZp : Z.mmGetNextBlk p = b := by
    rw [mmGetNextBlk_of_header (hm.frame p hpw), hpb]
  obtain ⟨lp, hpl⟩ := (hm.listed p).mpr ⟨(hi.listed p).mpr ⟨hpbs, hpf⟩, hpw⟩
  have hsD := sameHeaders_kMmFreelistDelete Z p
  set X := (Z.kMmFreelistDelete p).absorb p b with hX
  have hXp : SameFlags Z X p := (SameFlags.of_header (hsD p)).trans (absorb_sameFlags _ p b)
  have hnextX : X.mmGetNextBlk p = z := by
    rw [hX, absorb_mmGetNextBlk _ (by rw [hsD.mmGetNextBlk, hnextZp])
      (by rw [hsD.mmGetNextBlk, hm.next]; exact lt_of_le_of_lt hzle hi.bound.2), hsD.mmGetNextBlk, hm.next]
  have hminX : mmMinSize ≤ X.mmGetBufSize p := by
    have := hi.minSize p hpbs
    simp only [mmGetNextBlk, mmlistHeadSize] at hnextX hpb
    omega
  have hlisted₂ := FreeLists.listed_delete hm.lists hpl
  refine ⟨pre', Function.update ls₁ lp ((ls₁ lp).erase p), hpre, hi.not_prevFree_of_free hpbs hpf, ?_⟩
  exact {
    tiles := ⟨rfl, by rw [hpb]; exact hm.tiles⟩
    nonempty := List.cons_ne_nil _ _
    next := hnextX
    frame := fun x hx => by
      have hxp : x ≠ p := fun h => hx (h ▸ List.mem_cons_self)
      rw [hX, absorb_header_ne _ _ hxp, hsD x]
      exact hm.frame x (fun h => hx (List.mem_cons_of_mem _ h))
    free := hXp.free.mpr (hZp.free.mpr hpf)
    prevFree := hXp.prevFree.trans hZp.prevFree
    prev := hXp.prev.trans hZp.prev
    minSize := hminX
    lists := (hm.lists.delete hpl).setBlk _ (fun l hl => ((hlisted₂ p).mp ⟨l, hl⟩).2 rfl) (fun _ => rfl)
      (fun _ => rfl)
    listed := fun x => by
      rw [hlisted₂ x, hm.listed x]
      constructor
      · rintro ⟨⟨hl, hxw⟩, hxp⟩
        exact ⟨hl, fun h => (List.mem_cons.mp h).elim hxp hxw⟩
      · rintro ⟨hl, hx⟩
        exact ⟨⟨hl, fun h => hx (List.mem_cons_of_mem _ h)⟩, fun h => hx (h ▸ List.mem_cons_self)⟩
    endUsed := hm.endUsed
    fixed := by simp [hX, hm.fixed]
    fixedOut := fun hf => by
      rcases List.mem_cons.mp hf with hf | hf
      · exact hi.fixedmblk_ne_of_free hpbs hpf hf
      · exact hm.fixedOut hf }

/-- The last step of `k_mm_free`: once the merges have left the free block `m` over a
window of the region, releasing it puts it in its list and marks the block after it. -/
theorem release (hi : h.RegionInv r e bs ls) {X : MmHead} {ls₁ : Nat → List Nat} {pre win post : List Nat}
    {m z : Nat} (hbs : bs = pre ++ win ++ post) (hm : Merged h X ls ls₁ m z win) (hnpf : ¬ h.PrevFree m) :
    ∃ ls', (X.releaseBlk m).RegionInv r e (pre ++ [m] ++ post) ls' := by
  -- the window starts at `m`, which lies in the heap, and ends at `z`, before the end
  have hmw : m ∈ win := by
    obtain ⟨c, win₀, rfl⟩ := List.exists_cons_of_ne_nil hm.nonempty
    rw [hm.tiles.1]
    exact List.mem_cons_self
  have hmbs : m ∈ bs := by
    rw [hbs]
    exact List.mem_append_left _ (List.mem_append_right _ hmw)
  have hzle : z ≤ e := by
    have htiles : Tiling.Tiles h.mmGetNextBlk r e ((r :: pre) ++ win ++ post) := by
      rw [List.cons_append, List.cons_append, ← hbs]
      exact hi.tiles
    exact (htiles.around hm.nonempty hm.tiles).2.le (next_gt h)
  have hzm : z ≠ m := ne_of_gt (hm.next ▸ next_gt X m)
  have hzw : z ∉ win := fun hzw => by
    have := (hm.tiles.le_of_mem (next_gt h) hzw).2
    have := next_gt h z
    omega
  have hzX := hm.frame z hzw
  -- the size of the released block, below `MM_MAX_SIZE`, has a level
  have hsize : X.mmGetBufSize m < mmMaxSize := by
    have hn := hm.next
    have hb := hi.bound
    have hrm := hi.lt_of_mem hmbs
    simp only [mmGetNextBlk, mmlistHeadSize, mmMaxSize, mmMaxBit] at hn hb ⊢
    omega
  obtain ⟨level, hlev⟩ := sizeToLevel_of_lt hsize
  -- the headers `releaseBlk` leaves
  have hm' : Header ((X.releaseBlk m).blk m) = Header (X.blk m) := by
    rw [releaseBlk_header, hm.next, if_neg hzm.symm]
  have hz' : Header ((X.releaseBlk m).blk z) = (m, (h.blk z).bufSize ||| rhinoMmPrevfree) := by
    rw [releaseBlk_header, hm.next, if_pos rfl, bufSize_of_header_eq hzX]
  have hnext' : (X.releaseBlk m).mmGetNextBlk m = z := by
    rw [releaseBlk_mmGetNextBlk, hm.next]
  have hmX := SameFlags.of_header hm'
  have hzls : ∀ l, z ∉ ls₁ l := fun l hl => hi.not_listed hm.endUsed _ ((hm.listed z).mp ⟨l, hl⟩).1.choose_spec
  refine ⟨Function.update ls₁ level (m :: ls₁ level), hi.window hbs hm.nonempty hm.tiles
    (show Tiling.Tiles _ m z [m] from ⟨rfl, hnext'⟩) (fun x hx _ hxz => ?_)
    (hmX.prevFree.trans hm.prevFree) (hmX.prev.trans hm.prev) (fun hp => absurd hp hnpf)
    ((isFree_of_header_eq hz').trans (lor_prevFree_free _))
    ((mmGetBufSize_of_header_eq hz').trans (mask_lor_flags _ (by decide)))
    (fun h32 => by rw [bufSize_of_header_eq hz']; exact Nat.or_lt_two_pow h32 (by decide))
    (fun x hx => ?_) (fun x hx => ?_)
    (hm.lists.releaseBlk (hi.ne_zero hmbs) (hi.lt_two_pow (List.mem_cons_of_mem r hmbs))
      (fun l hl => ((hm.listed m).mp ⟨l, hl⟩).2 hmw) hlev (hm.next ▸ hzls))
    (fun x => ?_) (by rw [releaseBlk_fixedmblk, hm.fixed]) hm.fixedOut⟩
  · rw [releaseBlk_header, hm.next, if_neg hxz]
    exact hm.frame x hx
  · -- the released block: free, followed by `z` that records it
    rw [List.mem_singleton.mp hx]
    refine ⟨?_, fun _ => ?_, fun _ => ?_⟩
    · rw [hnext', prevFree_of_header_eq hz', hmX.free]
      exact ⟨fun _ => hm.free, fun _ => lor_prevFree_prevFree _⟩
    · rw [hnext', prev_of_header_eq hz']
    · rw [hnext', isFree_of_header_eq hz', lor_prevFree_free]
      exact hm.endUsed
  · rw [List.mem_singleton.mp hx, mmGetBufSize_of_header hm']
    exact hm.minSize
  · rw [FreeLists.listed_insert, hm.listed, List.mem_singleton]
    constructor
    · rintro (hl | rfl)
      · exact .inl hl
      · exact .inr ⟨rfl, hmX.free.mpr hm.free⟩
    · rintro (hl | ⟨rfl, -⟩)
      · exact .inl hl
      · exact .inr rfl

/-- `k_mm_free` of a used block of the heap, other than the pool's, keeps the invariant:
whichever of its neighbours are free, they and the block become one free block in its
list. -/
theorem kMmFree_used (hi : h.RegionInv r e bs ls) {b : Nat} (hb : b ∈ bs) (hused : ¬ h.IsFree b)
    (hfix : b ≠ h.fixedmblk) : ∃ bs' ls', (h.kMmFree (b + mmlistHeadSize)).RegionInv r e bs' ls' := by
  obtain ⟨win₀, z, ls₁, pre, post, hbs, hm⟩ := hi.merged_next hb hused hfix
  rw [kMmFree_eq h (hi.mmIsFixedblk_eq_false hb hfix)]
  by_cases hp : h.PrevFree b
  · -- the free block before absorbs the merged block, and is released
    obtain ⟨pre', ls₂, rfl, hnpf, hm'⟩ := hi.merged_prev hbs hm hp
    rw [mergePrev_of_prevFree _ (hm.prevFree.mpr hp), mergePrevBlk_of_prevFree _ (hm.prevFree.mpr hp), hm.prev]
    obtain ⟨ls', hr⟩ := hi.release (show bs = pre' ++ ((h.blk b).prev :: b :: win₀) ++ post by rw [hbs]; simp)
      hm' hnpf
    exact ⟨_, _, hr⟩
  · rw [mergePrev_of_prevUsed _ (hm.prevFree.not.mpr hp), mergePrevBlk_of_prevUsed _ (hm.prevFree.not.mpr hp)]
    obtain ⟨ls', hr⟩ := hi.release hbs hm hp
    exact ⟨_, _, hr⟩

end RegionInv

end MmHead

end Rhino
