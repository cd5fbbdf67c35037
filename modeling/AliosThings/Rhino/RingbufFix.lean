import AliosThings.Rhino.RingbufDyn

/-!
# The fixed ring buffer stores a FIFO of blocks

A fixed buffer of `m` blocks of `blk_size` bytes keeps its pointers on block
boundaries, so a block never straddles `end`: the normalised pointer is below
`end` and a multiple of the block size, hence a whole block fits before `end`.
`RingbufFixInv` is the representation of a queue of blocks; push and pop keep
it, and `freesize` alone tells a full buffer from an empty one.
-/

namespace Rhino

open RingMemory

/-- The representation invariant of a fixed buffer storing the blocks `q`. -/
structure RingbufFixInv (rb : KRingbuf) (q : List (List UInt8)) : Prop where
  fix : rb.type = .fix
  blk_pos : 0 < rb.blkSize
  size_pos : 0 < rb.bufEnd
  size_dvd : rb.blkSize ∣ rb.bufEnd
  head_le : rb.head ≤ rb.bufEnd
  tail_le : rb.tail ≤ rb.bufEnd
  head_dvd : rb.blkSize ∣ rb.head
  tail_dvd : rb.blkSize ∣ rb.tail
  free : rb.freesize + rb.blkSize * q.length = rb.bufEnd
  tail_pos : rb.tail % rb.bufEnd = (rb.head + rb.blkSize * q.length) % rb.bufEnd
  data : ringRead rb.mem rb.bufEnd rb.head (rb.blkSize * q.length) = q.flatten
  blocks : ∀ m ∈ q, m.length = rb.blkSize

/-- A pointer on a block boundary below `end` has a whole block before `end`. -/
theorem block_fit {b x N : Nat} (hx : x < N) (hbx : b ∣ x) (hbN : b ∣ N) : x + b ≤ N := by
  obtain ⟨i, rfl⟩ := hbx
  obtain ⟨j, rfl⟩ := hbN
  have hij : i < j := Nat.lt_of_mul_lt_mul_left hx
  calc b * i + b = b * (i + 1) := by ring
    _ ≤ b * j := Nat.mul_le_mul_left b hij

/-- The lazily normalised pointer stays on a block boundary. -/
theorem norm_dvd {b x N : Nat} (hx : b ∣ x) : b ∣ (if x = N then 0 else x) := by
  split
  · exact Nat.dvd_zero b
  · exact hx

theorem ringbufFixInv_init (mem : Nat → UInt8) {b m : Nat} (hb : 0 < b) (hm : 0 < m) :
    RingbufFixInv (ringbufInit mem (m * b) .fix b) [] where
  fix := rfl
  blk_pos := hb
  size_pos := Nat.mul_pos hm hb
  size_dvd := Dvd.intro_left m rfl
  head_le := Nat.zero_le _
  tail_le := Nat.zero_le _
  head_dvd := Nat.dvd_zero b
  tail_dvd := Nat.dvd_zero b
  free := by simp [ringbufInit, ringbufReset]
  tail_pos := by simp [ringbufInit, ringbufReset]
  data := by simp [ringbufInit, ringbufReset]
  blocks := by simp

/-- `ringbuf_reset` empties a fixed buffer and keeps its geometry. -/
theorem RingbufFixInv.reset {rb : KRingbuf} {q : List (List UInt8)} (hI : RingbufFixInv rb q) :
    RingbufFixInv (ringbufReset rb) [] where
  fix := hI.fix
  blk_pos := hI.blk_pos
  size_pos := hI.size_pos
  size_dvd := hI.size_dvd
  head_le := Nat.zero_le _
  tail_le := Nat.zero_le _
  head_dvd := Nat.dvd_zero _
  tail_dvd := Nat.dvd_zero _
  free := by simp [ringbufReset]
  tail_pos := by simp [ringbufReset]
  data := by simp [ringbufReset]
  blocks := by simp

/-- A fixed buffer is full exactly when no room for a block is left. -/
theorem ringbufIsFull_fix {rb : KRingbuf} (hfix : rb.type = .fix) :
    ringbufIsFull rb = decide (rb.freesize < rb.blkSize) := by
  simp [ringbufIsFull, hfix]

/-- `ringbuf_is_empty` holds exactly when no block is stored. -/
theorem ringbufIsEmpty_fix_iff {rb : KRingbuf} {q : List (List UInt8)} (hI : RingbufFixInv rb q) :
    ringbufIsEmpty rb = true ↔ q = [] := by
  have hfree := hI.free
  have hb := hI.blk_pos
  simp only [ringbufIsEmpty, decide_eq_true_eq, ← List.length_eq_zero_iff]
  constructor
  · intro h
    have : rb.blkSize * q.length = 0 := by omega
    rcases Nat.mul_eq_zero.1 this with h0 | h0 <;> omega
  · intro h
    rw [h, Nat.mul_zero] at hfree
    omega

theorem ringbufPush_fix_ok {rb : KRingbuf} {q : List (List UInt8)} {blk : List UInt8}
    (hI : RingbufFixInv rb q) (hblk : blk.length = rb.blkSize) (hroom : rb.blkSize ≤ rb.freesize) :
    ∃ rb', ringbufPush rb blk blk.length = (rb', .success) ∧ rb'.bufEnd = rb.bufEnd ∧
      rb'.blkSize = rb.blkSize ∧ RingbufFixInv rb' (q ++ [blk]) := by
  obtain ⟨hfix, hb, hN, hdvd, hh, ht, hhd, htd, hfree, hpos, hdata, hblocks⟩ := hI
  have hfull : ringbufIsFull rb = false := by
    rw [ringbufIsFull_fix hfix]
    simpa using hroom
  unfold ringbufPush
  rw [hfull, hfix]
  simp -zeta only [Bool.false_eq_true, if_false]
  extract_lets tail₀
  refine ⟨_, rfl, rfl, rfl, ?_⟩
  have hx₀ : tail₀ < rb.bufEnd := norm_lt hN ht
  have hpos₀ : tail₀ % rb.bufEnd = (rb.head + rb.blkSize * q.length) % rb.bufEnd := by
    rw [show tail₀ = rb.tail % rb.bufEnd from norm_eq_mod ht, Nat.mod_mod, hpos]
  have hend : tail₀ + rb.blkSize ≤ rb.bufEnd := block_fit hx₀ (norm_dvd htd) hdvd
  have htake : blk.take rb.blkSize = blk := List.take_of_length_le (by omega)
  constructor
  · rfl
  · exact hb
  · exact hN
  · exact hdvd
  · exact hh
  · exact hend
  · exact hhd
  · exact Nat.dvd_add (norm_dvd htd) (Nat.dvd_refl _)
  · simp only [List.length_append, List.length_singleton, Nat.mul_succ]
    omega
  · simp only [List.length_append, List.length_singleton, Nat.mul_succ, ← Nat.add_assoc]
    exact Nat.ModEq.add_right _ hpos₀
  · have hfit : rb.blkSize * q.length + blk.length ≤ rb.bufEnd := by omega
    simp only [List.length_append, List.length_singleton, Nat.mul_succ, List.flatten_append,
      List.flatten_singleton, htake]
    have hread := @ringRead_ringWrite _ rb.mem rb.bufEnd tail₀ rb.head (rb.blkSize * q.length) blk
      hN hfit hpos₀
    rw [hblk] at hread
    rw [ringRead_congr hN (writeAt_eq_ringWrite (by omega)), hread, hdata]
  · intro m hmq
    rcases List.mem_append.1 hmq with hq | hd
    · exact hblocks m hq
    · rw [List.mem_singleton.1 hd]
      exact hblk

/-- With no room for a block, a push is refused and changes nothing. -/
theorem ringbufPush_fix_full {rb : KRingbuf} {q : List (List UInt8)} (hI : RingbufFixInv rb q)
    (data : List UInt8) (len : Nat) (hroom : rb.freesize < rb.blkSize) :
    ringbufPush rb data len = (rb, .ringbufFull) := by
  unfold ringbufPush
  rw [ringbufIsFull_fix hI.fix, decide_eq_true hroom, if_pos rfl]

/-- The block a fixed push of `data` stores: its first `blk_size` bytes and, where
`data` is shorter, the bytes already in the block. -/
def ringbufFixBlock (rb : KRingbuf) (data : List UInt8) : List UInt8 :=
  let tail := if rb.tail = rb.bufEnd then 0 else rb.tail
  data.take rb.blkSize ++
    readAt rb.mem (tail + (data.take rb.blkSize).length) (rb.blkSize - (data.take rb.blkSize).length)

@[simp] theorem ringbufFixBlock_length (rb : KRingbuf) (data : List UInt8) :
    (ringbufFixBlock rb data).length = rb.blkSize := by
  simp only [ringbufFixBlock, List.length_append, List.length_take, readAt_length]
  omega

theorem ringbufFixBlock_of_le {rb : KRingbuf} {data : List UInt8} (h : rb.blkSize ≤ data.length) :
    ringbufFixBlock rb data = data.take rb.blkSize := by
  simp [ringbufFixBlock, h]

/-- A fixed push copies `blk_size` bytes, whatever length it is given. -/
theorem ringbufPush_fix_block {rb : KRingbuf} (hfix : rb.type = .fix) (data : List UInt8) (len : Nat) :
    ringbufPush rb data len = ringbufPush rb (ringbufFixBlock rb data) (ringbufFixBlock rb data).length := by
  have htake : (ringbufFixBlock rb data).take rb.blkSize = ringbufFixBlock rb data :=
    List.take_of_length_le (by rw [ringbufFixBlock_length])
  unfold ringbufPush
  rw [hfix]
  split
  · rfl
  · rw [htake, ringbufFixBlock]
    dsimp only
    rw [writeAt_pad]

/-- With room for a block, a push of any bytes stores one more block. -/
theorem ringbufPush_fix_any {rb : KRingbuf} {q : List (List UInt8)} (hI : RingbufFixInv rb q)
    (data : List UInt8) (len : Nat) (hroom : rb.blkSize ≤ rb.freesize) :
    ∃ rb', ringbufPush rb data len = (rb', .success) ∧ rb'.bufEnd = rb.bufEnd ∧
      rb'.blkSize = rb.blkSize ∧ RingbufFixInv rb' (q ++ [ringbufFixBlock rb data]) := by
  rw [ringbufPush_fix_block hI.fix]
  exact ringbufPush_fix_ok hI (ringbufFixBlock_length rb data) hroom

theorem ringbufPop_fix_ok {rb : KRingbuf} {blk : List UInt8} {q : List (List UInt8)}
    (hI : RingbufFixInv rb (blk :: q)) :
    ∃ rb', ringbufPop rb = (rb', .success, blk, some rb.blkSize) ∧ rb'.bufEnd = rb.bufEnd ∧
      rb'.blkSize = rb.blkSize ∧ RingbufFixInv rb' q := by
  have hne : ringbufIsEmpty rb = false := by
    simpa using (ringbufIsEmpty_fix_iff hI).not.2 (List.cons_ne_nil blk q)
  obtain ⟨hfix, hb, hN, hdvd, hh, ht, hhd, htd, hfree, hpos, hdata, hblocks⟩ := hI
  have hblk := hblocks blk (by simp)
  simp only [List.length_cons, Nat.mul_succ] at hfree hpos hdata
  rw [List.flatten_cons, Nat.add_comm] at hdata
  -- the stored bytes: the oldest block, then the others
  obtain ⟨hfirst, hrest⟩ := ringRead_add_eq hdata hblk
  unfold ringbufPop
  rw [hne, hfix]
  simp -zeta only [Bool.false_eq_true, if_false]
  extract_lets head₀
  have hx₀ : head₀ < rb.bufEnd := norm_lt hN hh
  have hhd₀ : head₀ = rb.head % rb.bufEnd := norm_eq_mod hh
  have hend : head₀ + rb.blkSize ≤ rb.bufEnd := block_fit hx₀ (norm_dvd hhd) hdvd
  have hnew : (head₀ + rb.blkSize) % rb.bufEnd = (rb.head + rb.blkSize) % rb.bufEnd := by
    rw [hhd₀, Nat.mod_add_mod]
  refine ⟨{ rb with
      head := head₀ + rb.blkSize, freesize := rb.freesize + rb.blkSize, type := .fix },
    ?_, rfl, rfl, ?_⟩
  · rw [readAt_eq_ringRead hend, hhd₀, ringRead_mod, hfirst]
  constructor
  · rfl
  · exact hb
  · exact hN
  · exact hdvd
  · exact hend
  · exact ht
  · exact Nat.dvd_add (norm_dvd hhd) (Nat.dvd_refl _)
  · exact htd
  · simp only
    omega
  · rw [hpos, ← Nat.mod_add_mod (head₀ + rb.blkSize), hnew, Nat.mod_add_mod, Nat.add_assoc,
      Nat.add_comm rb.blkSize]
  · rw [← ringRead_mod, hnew, ringRead_mod]
    exact hrest
  · exact fun m h => hblocks m (List.mem_cons_of_mem _ h)

/-- Pop on an empty fixed buffer reports it and changes nothing. -/
theorem ringbufPop_fix_empty {rb : KRingbuf} (hI : RingbufFixInv rb []) :
    ringbufPop rb = (rb, .ringbufEmpty, [], none) := by
  unfold ringbufPop
  rw [if_pos ((ringbufIsEmpty_fix_iff hI).2 rfl)]

end Rhino
