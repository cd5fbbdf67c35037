import AliosThings.Rhino.Queue
import AliosThings.Lib.MemList
import AliosThings.Lib.Machine

/-!
# Fixed-block pools (`k_mm_blk.c`)

A pool cuts the `pool_size` bytes at `pool_start` into blocks of `blk_size` bytes
and threads them on a free list through their first words. `krhino_mblk_alloc` pops
the head of the list and `krhino_mblk_free` pushes a block back. Only `blk_avail`
says how much of the list is made of blocks: when `pool_size` is not a multiple of
`blk_size`, the list goes on into the partial block at the end.

Memory is a map from addresses to the words stored there. Addresses are numbers,
and the pool's own arithmetic does not wrap; `blk_size << 1u` is a `size_t` of the
32-bit targets and does.

For every `blk_size > 0` the pool does what it should: `krhino_mblk_pool_init`
makes `pool_size / blk_size` blocks, and alloc, free and the holders' writes keep
the free list and the held blocks a permutation of them. The parameter checks let
`blk_size = 0` through, though, and then the loop of `krhino_mblk_pool_init`
never ends.
-/

namespace Rhino

/-- `mblk_pool_t`, without its name. -/
structure MblkPool where
  blkWhole : Nat
  blkAvail : Nat
  blkSize : Nat
  availList : Nat
  deriving DecidableEq, Repr

/-- The variables of the loop of `krhino_mblk_pool_init`, with the memory it writes. -/
structure MblkInitLoop where
  blks : Nat
  blkCur : Nat
  blkNext : Nat
  mem : Nat → Nat

/-- One pass of the loop: link the current block to the next one and move on. -/
def MblkInitLoop.step (blkSize : Nat) (s : MblkInitLoop) : MblkInitLoop where
  blks := s.blks + 1
  blkCur := s.blkNext
  blkNext := s.blkNext + blkSize
  mem := Function.update s.mem s.blkCur s.blkNext

/-- `while (blk_next < pool_end)`, given `fuel` passes: `none` while it still runs. -/
def mblkInitLoop (blkSize poolEnd : Nat) : Nat → MblkInitLoop → Option MblkInitLoop
  | 0, s => if s.blkNext < poolEnd then none else some s
  | fuel + 1, s => if s.blkNext < poolEnd then mblkInitLoop blkSize poolEnd fuel (s.step blkSize) else some s

/-- `krhino_mblk_pool_init`, its loop given `fuel` passes: `none` if the loop has not
ended, otherwise the status and, on success, the pool and the memory. -/
def krhinoMblkPoolInit (fuel : Nat) (mem : Nat → Nat) (poolStart blkSize poolSize : Nat) :
    Option (Kstat × Option (MblkPool × (Nat → Nat))) :=
  let addrAlignMask := ptrSize - 1
  if poolStart = 0 then some (.nullPtr, none)
  -- over one block at least
  else if poolSize < (blkSize <<< 1) % 2 ^ 32 then some (.blkPoolSizeErr, none)
  else if poolStart &&& addrAlignMask > 0 then some (.invAlign, none)
  else if blkSize &&& addrAlignMask > 0 then some (.invAlign, none)
  else if poolSize &&& addrAlignMask > 0 then some (.invAlign, none)
  else
    let poolEnd := poolStart + poolSize
    match mblkInitLoop blkSize poolEnd fuel ⟨0, poolStart, poolStart + blkSize, mem⟩ with
    | none => none
    | some s =>
      let blks := if s.blkNext = poolEnd then s.blks + 1 else s.blks
      -- the last one
      some (.success, some (⟨blks, blks, blkSize, poolStart⟩, Function.update s.mem s.blkCur 0))

/-- `krhino_mblk_alloc`: the pool, the block (`0`, `NULL`, when none is left), the status. -/
def krhinoMblkAlloc (p : MblkPool) (mem : Nat → Nat) : MblkPool × Nat × Kstat :=
  if 0 < p.blkAvail then
    let availBlk := p.availList
    -- the first word of the block is the link to the next one
    ({ p with availList := mem availBlk, blkAvail := p.blkAvail - 1 }, availBlk, .success)
  else (p, 0, .noMem)

/-- `krhino_mblk_free`. -/
def krhinoMblkFree (p : MblkPool) (mem : Nat → Nat) (blk : Nat) : MblkPool × (Nat → Nat) × Kstat :=
  if blk = 0 then (p, mem, .nullPtr)
  else ({ p with availList := blk, blkAvail := p.blkAvail + 1 }, Function.update mem blk p.availList, .success)

/-- A pool in use: the pool, the memory, and the blocks its users hold, those that
`krhino_mblk_alloc` returned and that have not been freed since. -/
structure MblkState where
  pool : MblkPool
  mem : Nat → Nat
  held : List Nat

/-- A call on the pool, or a holder storing a word into memory. -/
inductive MblkCall where
  | alloc
  | free (blk : Nat)
  | write (addr val : Nat)
  deriving DecidableEq, Repr

/-- One call, answered. -/
def mblkCall (s : MblkState) : MblkCall → MblkState × Kstat
  | .alloc =>
    let r := krhinoMblkAlloc s.pool s.mem
    (⟨r.1, s.mem, if r.2.2 = .success then r.2.1 :: s.held else s.held⟩, r.2.2)
  | .free blk =>
    let r := krhinoMblkFree s.pool s.mem blk
    (⟨r.1, r.2.1, s.held.erase blk⟩, r.2.2)
  | .write addr val => (⟨s.pool, Function.update s.mem addr val, s.held⟩, .success)

/-- The calls of a correct user: it frees only a block it holds, and writes a word
only inside a block it holds. -/
def mblkOk (s : MblkState) : MblkCall → Bool
  | .alloc => true
  | .free blk => s.held.contains blk
  | .write addr _ => s.held.any fun h => h ≤ addr && addr + ptrSize ≤ h + s.pool.blkSize

/-- The blocks of a pool that starts at `poolStart`, in address order. -/
def mblkBlocks (poolStart : Nat) (p : MblkPool) : List Nat :=
  (List.range p.blkWhole).map fun k => poolStart + k * p.blkSize


/-! ### The loop of `krhino_mblk_pool_init` -/

namespace MblkInitLoop

/-- The loop after `k` passes from `pool_start`. -/
def after (mem : Nat → Nat) (poolStart blkSize : Nat) : Nat → MblkInitLoop
  | 0 => ⟨0, poolStart, poolStart + blkSize, mem⟩
  | k + 1 => (after mem poolStart blkSize k).step blkSize

variable {mem : Nat → Nat} {poolStart blkSize : Nat}

@[simp] theorem after_blks (k : Nat) : (after mem poolStart blkSize k).blks = k := by
  induction k with
  | zero => rfl
  | succ k ih => simp [after, step, ih]

@[simp] theorem after_blkNext (k : Nat) :
    (after mem poolStart blkSize k).blkNext = poolStart + (k + 1) * blkSize := by
  induction k with
  | zero => simp [after]
  | succ k ih =>
    show (after mem poolStart blkSize k).blkNext + blkSize = _
    rw [ih, Nat.succ_mul (k + 1)]
    omega

@[simp] theorem after_blkCur (k : Nat) : (after mem poolStart blkSize k).blkCur = poolStart + k * blkSize := by
  cases k with
  | zero => simp [after]
  | succ k => exact after_blkNext k

/-- After `k` passes, block `i < k` is linked to block `i + 1`. -/
theorem after_mem_link (hb : 0 < blkSize) {i : Nat} :
    ∀ {k : Nat}, i < k → (after mem poolStart blkSize k).mem (poolStart + i * blkSize) =
      poolStart + (i + 1) * blkSize
  | 0, h => absurd h (Nat.not_lt_zero i)
  | k + 1, h => by
    show Function.update (after mem poolStart blkSize k).mem _ _ _ = _
    rw [after_blkCur, after_blkNext]
    by_cases hik : i = k
    · subst hik
      exact Function.update_self _ _ _
    · have hne : poolStart + i * blkSize ≠ poolStart + k * blkSize := by
        intro e
        exact hik (Nat.eq_of_mul_eq_mul_right hb (by omega))
      rw [Function.update_of_ne hne, after_mem_link hb (by omega)]

/-- The loop goes on through `m` passes, while the next block still starts inside the
pool, and stops there. -/
theorem mblkInitLoop_after {poolEnd m : Nat} (hgo : ∀ j < m, poolStart + (j + 1) * blkSize < poolEnd)
    (hstop : poolEnd ≤ poolStart + (m + 1) * blkSize) :
    ∀ (fuel k : Nat), k ≤ m → m ≤ k + fuel →
      mblkInitLoop blkSize poolEnd fuel (after mem poolStart blkSize k) = some (after mem poolStart blkSize m)
  | 0, k, hk, hf => by
    obtain rfl : k = m := by omega
    simp [mblkInitLoop, hstop]
  | fuel + 1, k, hk, hf => by
    by_cases hkm : k = m
    · subst hkm
      simp [mblkInitLoop, hstop]
    · -- one more pass: the next block starts inside the pool
      rw [mblkInitLoop, if_pos (by rw [after_blkNext]; exact hgo k (by omega))]
      exact mblkInitLoop_after hgo hstop fuel (k + 1) (by omega) (by omega)

end MblkInitLoop

/-- With blocks of no bytes the next block is the current one, inside the pool for
ever: the loop never ends, whatever the fuel. -/
theorem mblkInitLoop_zero {poolEnd : Nat} :
    ∀ (fuel : Nat) (s : MblkInitLoop), s.blkNext < poolEnd → mblkInitLoop 0 poolEnd fuel s = none
  | 0, s, h => by simp [mblkInitLoop, h]
  | fuel + 1, s, h => by
    rw [mblkInitLoop, if_pos h]
    exact mblkInitLoop_zero fuel _ (by simpa [MblkInitLoop.step] using h)

/-- The passes the loop makes: one fewer than the blocks that fit when `blk_size`
divides `pool_size`, as many otherwise. -/
def mblkInitPasses (blkSize poolSize : Nat) : Nat :=
  if poolSize % blkSize = 0 then poolSize / blkSize - 1 else poolSize / blkSize

/-- The loop goes on for `mblkInitPasses` passes and stops there, and the count after
it is `pool_size / blk_size`. -/
theorem mblkInitPasses_spec {blkSize : Nat} (poolSize : Nat) (hb : 0 < blkSize) :
    (∀ j < mblkInitPasses blkSize poolSize, (j + 1) * blkSize < poolSize) ∧
      poolSize ≤ (mblkInitPasses blkSize poolSize + 1) * blkSize ∧
      (if (mblkInitPasses blkSize poolSize + 1) * blkSize = poolSize then mblkInitPasses blkSize poolSize + 1
        else mblkInitPasses blkSize poolSize) = poolSize / blkSize := by
  have hdm := Nat.div_add_mod poolSize blkSize
  have hr := Nat.mod_lt poolSize hb
  unfold mblkInitPasses
  generalize poolSize / blkSize = q at hdm ⊢
  generalize poolSize % blkSize = r at hdm hr ⊢
  subst hdm
  by_cases hr0 : r = 0
  · -- `blk_size` divides `pool_size`: the last block ends at `pool_end`
    subst hr0
    rw [if_pos rfl]
    rcases Nat.eq_zero_or_pos q with rfl | hq
    · simp [hb.ne']
    obtain ⟨m, rfl⟩ : ∃ m, q = m + 1 := ⟨q - 1, by omega⟩
    refine ⟨fun j hj => ?_, by simp [Nat.mul_comm], by simp [Nat.mul_comm]⟩
    have : (j + 1) * blkSize < (m + 1) * blkSize := Nat.mul_lt_mul_of_pos_right (by omega) hb
    simpa [Nat.mul_comm] using this
  · -- a partial block is left over
    rw [if_neg hr0]
    have hlast : blkSize * q + r < (q + 1) * blkSize := by
      rw [Nat.succ_mul, Nat.mul_comm]
      omega
    refine ⟨fun j hj => ?_, hlast.le, by rw [if_neg hlast.ne']⟩
    have : (j + 1) * blkSize ≤ q * blkSize := Nat.mul_le_mul_right _ hj
    rw [Nat.mul_comm q] at this
    omega

/-- Accepted, with blocks of at least one byte and fuel for `pool_size / blk_size`
passes, `krhino_mblk_pool_init` ends with `pool_size / blk_size` blocks, all free
and linked from `pool_start` in address order. -/
theorem krhinoMblkPoolInit_ok {fuel : Nat} (mem : Nat → Nat) {poolStart blkSize poolSize : Nat}
    (h0 : poolStart ≠ 0) (hb : 0 < blkSize) (hsize : ¬poolSize < (blkSize <<< 1) % 2 ^ 32)
    (hs : poolStart &&& (ptrSize - 1) = 0) (hbs : blkSize &&& (ptrSize - 1) = 0)
    (hps : poolSize &&& (ptrSize - 1) = 0) (hf : poolSize / blkSize ≤ fuel) :
    ∃ mem', krhinoMblkPoolInit fuel mem poolStart blkSize poolSize =
        some (.success, some (⟨poolSize / blkSize, poolSize / blkSize, blkSize, poolStart⟩, mem')) ∧
      MemList.walk mem' poolStart (poolSize / blkSize) =
        mblkBlocks poolStart ⟨poolSize / blkSize, poolSize / blkSize, blkSize, poolStart⟩ := by
  obtain ⟨hgo, hstop, hblks⟩ := mblkInitPasses_spec poolSize hb
  set m := mblkInitPasses blkSize poolSize
  have hmq : m ≤ poolSize / blkSize := by
    rw [← hblks]
    split <;> omega
  have hloop : mblkInitLoop blkSize (poolStart + poolSize) fuel (MblkInitLoop.after mem poolStart blkSize 0) =
      some (MblkInitLoop.after mem poolStart blkSize m) :=
    MblkInitLoop.mblkInitLoop_after (fun j hj => by have := hgo j hj; omega) (by omega) fuel 0 (Nat.zero_le m)
      (by omega)
  refine ⟨Function.update (MblkInitLoop.after mem poolStart blkSize m).mem (poolStart + m * blkSize) 0, ?_, ?_⟩
  · have hpos : ¬poolStart &&& (ptrSize - 1) > 0 := by omega
    have hbpos : ¬blkSize &&& (ptrSize - 1) > 0 := by omega
    have hppos : ¬poolSize &&& (ptrSize - 1) > 0 := by omega
    simp only [krhinoMblkPoolInit, if_neg h0, if_neg hsize, if_neg hpos, if_neg hbpos, if_neg hppos]
    rw [show (⟨0, poolStart, poolStart + blkSize, mem⟩ : MblkInitLoop) = MblkInitLoop.after mem poolStart blkSize 0
      from rfl, hloop]
    simp only [MblkInitLoop.after_blkNext, MblkInitLoop.after_blks, MblkInitLoop.after_blkCur,
      Nat.add_left_cancel_iff]
    rw [hblks]
  · -- block `i` links to block `i + 1` below the last pass, which ends the list
    have hlinks (i : Nat) (hi : i + 1 < poolSize / blkSize) :
        Function.update (MblkInitLoop.after mem poolStart blkSize m).mem (poolStart + m * blkSize) 0
          (poolStart + i * blkSize) = poolStart + (i + 1) * blkSize := by
      have him : i < m := by
        rw [← hblks] at hi
        split at hi <;> omega
      have hne : poolStart + i * blkSize ≠ poolStart + m * blkSize := by
        intro e
        exact him.ne (Nat.eq_of_mul_eq_mul_right hb (by omega))
      rw [Function.update_of_ne hne, MblkInitLoop.after_mem_link hb him]
    have hw : MemList.walk _ (poolStart + 0 * blkSize) (poolSize / blkSize) = _ := MemList.walk_of_links hlinks
    simpa [mblkBlocks] using hw


/-- `krhino_mblk_pool_init` accepts blocks of no bytes, and its loop then never ends:
no fuel is enough. -/
theorem krhinoMblkPoolInit_zero_blkSize_hangs (fuel : Nat) (mem : Nat → Nat) {poolStart poolSize : Nat}
    (h0 : poolStart ≠ 0) (hs : poolStart &&& (ptrSize - 1) = 0) (hps : poolSize &&& (ptrSize - 1) = 0)
    (hp : 0 < poolSize) : krhinoMblkPoolInit fuel mem poolStart 0 poolSize = none := by
  have hpos : ¬poolStart &&& (ptrSize - 1) > 0 := by omega
  have hppos : ¬poolSize &&& (ptrSize - 1) > 0 := by omega
  simp only [krhinoMblkPoolInit, if_neg h0, if_neg hpos, if_neg hppos]
  rw [mblkInitLoop_zero fuel _ (by simpa using hp)]
  simp

/-- A pool of 64 bytes at `0x1000` with blocks of no bytes. -/
theorem krhinoMblkPoolInit_zero_blkSize_hangs_64 :
    (0x1000 : Nat) ≠ 0 ∧ (0x1000 : Nat) &&& (ptrSize - 1) = 0 ∧ (64 : Nat) &&& (ptrSize - 1) = 0 ∧
      krhinoMblkPoolInit 1000 (fun _ => 0) 0x1000 0 64 = none :=
  ⟨by decide, by decide, by decide,
    krhinoMblkPoolInit_zero_blkSize_hangs 1000 (fun _ => 0) (by decide) (by decide) (by decide) (by decide)⟩

/-! ### The pool over a run -/

variable {poolStart : Nat} {p : MblkPool}

theorem mem_mblkBlocks {x : Nat} :
    x ∈ mblkBlocks poolStart p ↔ ∃ k < p.blkWhole, x = poolStart + k * p.blkSize := by
  simp [mblkBlocks, eq_comm]

theorem mblkBlocks_nodup (hb : 0 < p.blkSize) : (mblkBlocks poolStart p).Nodup :=
  List.nodup_range.map fun _ _ h => Nat.eq_of_mul_eq_mul_right hb (by simpa using h)

/-- A block that starts inside another one is that block. -/
theorem eq_of_mem_mblkBlocks {x y : Nat} (hx : x ∈ mblkBlocks poolStart p) (hy : y ∈ mblkBlocks poolStart p)
    (h₁ : x ≤ y) (h₂ : y < x + p.blkSize) : x = y := by
  obtain ⟨i, -, rfl⟩ := mem_mblkBlocks.mp hx
  obtain ⟨j, -, rfl⟩ := mem_mblkBlocks.mp hy
  have hij : i ≤ j := Nat.le_of_mul_le_mul_right (by omega : i * p.blkSize ≤ j * p.blkSize)
    (by omega : 0 < p.blkSize)
  have hji : j < i + 1 := Nat.lt_of_mul_lt_mul_right (by rw [Nat.succ_mul]; omega : j * p.blkSize < (i + 1) * p.blkSize)
  rw [show i = j by omega]

/-- What a pool in use keeps: its blocks have bytes and do not start at `NULL`, and
the free list, read for `blk_avail` links, and the blocks held are the blocks of the
pool, each once. -/
structure MblkInv (poolStart : Nat) (s : MblkState) : Prop where
  start_pos : 0 < poolStart
  size_pos : 0 < s.pool.blkSize
  perm : (MemList.walk s.mem s.pool.availList s.pool.blkAvail ++ s.held).Perm (mblkBlocks poolStart s.pool)

namespace MblkInv

variable {s : MblkState}

theorem nodup (h : MblkInv poolStart s) : (MemList.walk s.mem s.pool.availList s.pool.blkAvail ++ s.held).Nodup :=
  h.perm.nodup_iff.mpr (mblkBlocks_nodup h.size_pos)

theorem held_mem (h : MblkInv poolStart s) {b : Nat} (hb : b ∈ s.held) : b ∈ mblkBlocks poolStart s.pool :=
  h.perm.mem_iff.mp (List.mem_append_right _ hb)

theorem avail_add_held (h : MblkInv poolStart s) : s.pool.blkAvail + s.held.length = s.pool.blkWhole := by
  simpa [mblkBlocks] using h.perm.length_eq

/-- A held block is not on the free list. -/
theorem not_mem_walk (h : MblkInv poolStart s) {b : Nat} (hb : b ∈ s.held) :
    b ∉ MemList.walk s.mem s.pool.availList s.pool.blkAvail :=
  fun hw => List.disjoint_of_nodup_append h.nodup hw hb

/-- `krhino_mblk_alloc` moves the head of the free list to the holders. -/
theorem alloc (h : MblkInv poolStart s) : MblkInv poolStart (mblkCall s .alloc).1 := by
  simp only [mblkCall, krhinoMblkAlloc]
  split
  · rename_i hav
    obtain ⟨n, hn⟩ : ∃ n, s.pool.blkAvail = n + 1 := ⟨s.pool.blkAvail - 1, by omega⟩
    refine ⟨h.start_pos, h.size_pos, ?_⟩
    have hp := h.perm
    rw [hn, MemList.walk_succ] at hp
    simpa [hn, mblkBlocks] using List.perm_middle.trans hp
  · exact h

/-- `krhino_mblk_free` of a held block pushes it back on the free list. -/
theorem free (h : MblkInv poolStart s) {b : Nat} (hb : b ∈ s.held) : MblkInv poolStart (mblkCall s (.free b)).1 := by
  have hb0 : b ≠ 0 := by
    obtain ⟨k, -, hk⟩ := mem_mblkBlocks.mp (h.held_mem hb)
    have := h.start_pos
    omega
  simp only [mblkCall, krhinoMblkFree, if_neg hb0]
  refine ⟨h.start_pos, h.size_pos, ?_⟩
  -- the link written into `b` is off the list it heads
  have hw : MemList.walk (Function.update s.mem b s.pool.availList) s.pool.availList s.pool.blkAvail =
      MemList.walk s.mem s.pool.availList s.pool.blkAvail := MemList.walk_update_of_not_mem (h.not_mem_walk hb)
  simp only [MemList.walk_succ, Function.update_self, hw, List.cons_append]
  exact (List.perm_middle.symm.trans (List.Perm.append_left _ (List.perm_cons_erase hb).symm)).trans h.perm

/-- A word written inside a held block is off the free list. -/
theorem write (h : MblkInv poolStart s) {a v : Nat}
    (ha : ∃ b ∈ s.held, b ≤ a ∧ a + ptrSize ≤ b + s.pool.blkSize) : MblkInv poolStart (mblkCall s (.write a v)).1 := by
  obtain ⟨b, hb, hba, hab⟩ := ha
  have hnot : a ∉ MemList.walk s.mem s.pool.availList s.pool.blkAvail := by
    intro hw
    have hblk : a ∈ mblkBlocks poolStart s.pool := h.perm.mem_iff.mp (List.mem_append_left _ hw)
    have hptr : 0 < ptrSize := by decide
    obtain rfl : b = a := eq_of_mem_mblkBlocks (h.held_mem hb) hblk hba (by omega)
    exact h.not_mem_walk hb hw
  exact ⟨h.start_pos, h.size_pos, by simpa [mblkCall, MemList.walk_update_of_not_mem hnot] using h.perm⟩

theorem call (h : MblkInv poolStart s) (c : MblkCall) (hc : mblkOk s c = true) :
    MblkInv poolStart (mblkCall s c).1 := by
  cases c with
  | alloc => exact h.alloc
  | free b => exact h.free (by simpa [mblkOk] using hc)
  | write a v => exact h.write (by simpa [mblkOk] using hc)

end MblkInv

/-- For blocks of at least one byte: with fuel for its loop, `krhino_mblk_pool_init`
makes `pool_size / blk_size` blocks, all available; then along every run of allocs,
frees of held blocks and writes into held blocks, the blocks held are distinct, each
is `pool_start + k * blk_size` with `k < blk_whole`, and `blk_avail` and the number
held add up to `blk_whole`. -/
theorem mblkPool_run_ok {fuel : Nat} {mem : Nat → Nat} {poolStart blkSize poolSize : Nat}
    (h0 : poolStart ≠ 0) (hb : 0 < blkSize) (hsize : ¬poolSize < (blkSize <<< 1) % 2 ^ 32)
    (hs : poolStart &&& (ptrSize - 1) = 0) (hbs : blkSize &&& (ptrSize - 1) = 0)
    (hps : poolSize &&& (ptrSize - 1) = 0) (hf : poolSize / blkSize ≤ fuel) :
    ∃ mem', krhinoMblkPoolInit fuel mem poolStart blkSize poolSize =
        some (.success, some (⟨poolSize / blkSize, poolSize / blkSize, blkSize, poolStart⟩, mem')) ∧
      ∀ cs, Machine.allowed mblkCall mblkOk ⟨⟨poolSize / blkSize, poolSize / blkSize, blkSize, poolStart⟩, mem', []⟩ cs = true →
        let s := Machine.exec mblkCall ⟨⟨poolSize / blkSize, poolSize / blkSize, blkSize, poolStart⟩, mem', []⟩ cs
        s.pool.blkWhole = poolSize / blkSize ∧ s.held.Nodup ∧
          (∀ b ∈ s.held, ∃ k < s.pool.blkWhole, b = poolStart + k * blkSize) ∧
          s.pool.blkAvail + s.held.length = s.pool.blkWhole := by
  obtain ⟨mem', hinit, hwalk⟩ := krhinoMblkPoolInit_ok mem h0 hb hsize hs hbs hps hf
  refine ⟨mem', hinit, fun cs hok => ?_⟩
  intro s
  have h₀ : MblkInv poolStart ⟨⟨poolSize / blkSize, poolSize / blkSize, blkSize, poolStart⟩, mem', []⟩ :=
    ⟨Nat.pos_of_ne_zero h0, hb, by simp [hwalk]⟩
  have h : MblkInv poolStart s := Machine.exec_invariant_allowed _ (fun s c h hc => h.call c hc) h₀ hok
  -- no call changes the number or the size of the blocks
  have hshape : s.pool.blkWhole = poolSize / blkSize ∧ s.pool.blkSize = blkSize := by
    refine Machine.exec_invariant_allowed (fun s : MblkState => s.pool.blkWhole = poolSize / blkSize ∧
      s.pool.blkSize = blkSize) (fun s c h _ => ?_) ⟨rfl, rfl⟩ hok
    cases c with
    | alloc =>
      simp only [mblkCall, krhinoMblkAlloc]
      split_ifs <;> exact h
    | free b =>
      simp only [mblkCall, krhinoMblkFree]
      split_ifs <;> exact h
    | write a v => exact h
  refine ⟨hshape.1, (List.nodup_append.mp h.nodup).2.1, fun b hb => ?_, h.avail_add_held⟩
  rw [← hshape.2]
  exact mem_mblkBlocks.mp (h.held_mem hb)

/-- A pool of `64` bytes at `0x1000` in blocks of `16` bytes. -/
theorem mblkPool_run_ok_64 :
    ∃ mem', krhinoMblkPoolInit 4 (fun _ => 0) 0x1000 16 64 = some (.success, some (⟨4, 4, 16, 0x1000⟩, mem')) ∧
      ∀ cs, Machine.allowed mblkCall mblkOk ⟨⟨4, 4, 16, 0x1000⟩, mem', []⟩ cs = true →
        let s := Machine.exec mblkCall ⟨⟨4, 4, 16, 0x1000⟩, mem', []⟩ cs
        s.pool.blkWhole = 4 ∧ s.held.Nodup ∧ (∀ b ∈ s.held, ∃ k < s.pool.blkWhole, b = 0x1000 + k * 16) ∧
          s.pool.blkAvail + s.held.length = s.pool.blkWhole :=
  mblkPool_run_ok (by decide) (by decide) (by decide) (by decide) (by decide) (by decide) (by decide)

end Rhino
