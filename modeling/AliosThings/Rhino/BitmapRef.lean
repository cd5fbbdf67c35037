import AliosThings.Rhino.Mm

/-!
# The helpers of `k_bitmap.h` against their references

`krhino_clz32` and `krhino_ctz32` count by halving; they are `BitVec.clz` and
`BitVec.ctz` on every word. `krhino_find_first_bit` skips zero words and counts the
leading zeros of the first other one: on a bitmap of any number of words with a bit
set it finds the least position whose `BITMAP_MASK` bit is set in its `BITMAP_WORD`.
A run of `krhino_bitmap_set` and `krhino_bitmap_clear` from a zeroed bitmap holds the
finite set that inserting and erasing the same positions leaves, so the first set bit
is that set's least element.
-/

namespace Rhino

/-! ### `krhino_ctz32` -/

/-- A step keeps `tmp * 2 ^ n = x` and, from a word with a set bit among its low
`2 * s`, leaves one with a set bit among its low `s`. -/
theorem ctzStep_spec (s : Nat) (lo : UInt32) (hlo : lo.toNat = 2 ^ s - 1) (hs : 2 * s ≤ 32)
    {x : UInt32} {p : UInt32 × Nat} (hinv : p.1.toNat * 2 ^ p.2 = x.toNat)
    (hlow : p.1.toNat % 2 ^ (2 * s) ≠ 0) :
    (ctzStep s lo p).1.toNat * 2 ^ (ctzStep s lo p).2 = x.toNat ∧
      (ctzStep s lo p).1.toNat % 2 ^ s ≠ 0 := by
  obtain ⟨tmp, n⟩ := p
  have hand : tmp &&& lo = 0 ↔ tmp.toNat % 2 ^ s = 0 := by
    rw [Bitmap.eq_zero_iff_toNat, UInt32.toNat_and, hlo, Nat.and_two_pow_sub_one_eq_mod]
  unfold ctzStep
  split
  · rename_i h
    -- the low `s` bits are clear: `tmp = 2 ^ s * q` and the shift leaves `q`
    obtain ⟨q, hq⟩ : 2 ^ s ∣ tmp.toNat := Nat.dvd_of_mod_eq_zero (hand.mp h)
    have hshift : (tmp >>> UInt32.ofNat s).toNat = q := by
      rw [UInt32.toNat_shiftRight, UInt32.toNat_ofNat_of_lt' (show s < 2 ^ 32 by omega),
        Nat.mod_eq_of_lt (show s < 32 by omega), Nat.shiftRight_eq_div_pow, hq,
        Nat.mul_div_cancel_left _ (by positivity)]
    refine ⟨?_, ?_⟩
    · rw [hshift, ← hinv, hq, pow_add]
      ring
    · rw [hshift]
      intro hq0
      apply hlow
      rw [hq, two_mul, pow_add, Nat.mul_mod_mul_left, hq0, mul_zero]
  · rename_i h
    exact ⟨hinv, fun h0 => h (hand.mpr h0)⟩

/-- An odd multiple of `2 ^ k` has bit `k` set and the bits below clear. -/
theorem testBit_odd_mul_two_pow {m k : Nat} (hm : m % 2 = 1) :
    (m * 2 ^ k).testBit k = true ∧ ∀ i < k, (m * 2 ^ k).testBit i = false := by
  refine ⟨?_, fun i hi => ?_⟩
  · rw [Nat.testBit_mul_two_pow, Nat.sub_self, Nat.testBit_zero]
    simp [hm]
  · rw [Nat.testBit_mul_two_pow]
    simp [show ¬k ≤ i by omega]

/-- `krhino_ctz32` of a non-zero word is the place of its least set bit. -/
theorem krhinoCtz32_spec (x : UInt32) (hx : x ≠ 0) :
    x.toNat.testBit (krhinoCtz32 x) = true ∧ ∀ i < krhinoCtz32 x, x.toNat.testBit i = false := by
  have hx0 : x.toNat % 2 ^ (2 * 16) ≠ 0 := by
    rw [Nat.mod_eq_of_lt x.toNat_lt]
    exact mt Bitmap.eq_zero_iff_toNat.mpr hx
  obtain ⟨h1, l1⟩ := ctzStep_spec 16 0xFFFF rfl (by norm_num) (x := x) (p := (x, 0)) (by simp) hx0
  obtain ⟨h2, l2⟩ := ctzStep_spec 8 0xFF rfl (by norm_num) h1 l1
  obtain ⟨h3, l3⟩ := ctzStep_spec 4 0xF rfl (by norm_num) h2 l2
  obtain ⟨h4, l4⟩ := ctzStep_spec 2 0x3 rfl (by norm_num) h3 l3
  unfold krhinoCtz32
  rw [if_neg hx]
  generalize ctzStep 2 0x3 (ctzStep 4 0xF (ctzStep 8 0xFF (ctzStep 16 0xFFFF (x, 0)))) = p at h4 l4 ⊢
  have hbit : p.1 &&& 0x1 = 0 ↔ p.1.toNat % 2 = 0 := by
    rw [Bitmap.eq_zero_iff_toNat, UInt32.toNat_and, show (0x1 : UInt32).toNat = 2 ^ 1 - 1 from rfl,
      Nat.and_two_pow_sub_one_eq_mod, pow_one]
  dsimp only
  split
  · -- `tmp` is even with one of its two low bits set: `x = (tmp / 2) * 2 ^ (n + 1)`, `tmp / 2` odd
    rename_i h
    have heven := hbit.mp h
    have hhalf : p.1.toNat / 2 * 2 = p.1.toNat := Nat.div_mul_cancel (Nat.dvd_of_mod_eq_zero heven)
    have hx' : x.toNat = p.1.toNat / 2 * 2 ^ (p.2 + 1) := by
      rw [← h4, pow_succ, ← mul_assoc, mul_right_comm, hhalf]
    rw [hx']
    exact testBit_odd_mul_two_pow (by omega)
  · rename_i h
    rw [← h4]
    exact testBit_odd_mul_two_pow (by have := mt hbit.mpr h; omega)

/-- `krhino_clz32` is `BitVec.clz`, `32` for the zero word included. -/
theorem krhinoClz32_eq_clz (x : UInt32) : krhinoClz32 x = x.toBitVec.clz.toNat := by
  unfold krhinoClz32
  split
  · rename_i h
    subst h
    rw [(BitVec.clz_eq_iff_eq_zero (x := (0 : UInt32).toBitVec)).mpr rfl]
    rfl
  · rename_i h
    exact Bitmap.clz_eq_clz_toBitVec x h

/-- `krhino_ctz32` is `BitVec.ctz`, `32` for the zero word included. -/
theorem krhinoCtz32_eq_ctz (x : UInt32) : krhinoCtz32 x = x.toBitVec.ctz.toNat := by
  by_cases hx : x = 0
  · -- `ctz` is the leading-zero count of the reversed word
    subst hx
    rw [BitVec.ctz_eq_reverse_clz,
      (BitVec.clz_eq_iff_eq_zero (x := (0 : UInt32).toBitVec.reverse)).mpr (BitVec.reverse_eq_zero_iff.mpr rfl)]
    rfl
  · obtain ⟨hset, hclear⟩ := krhinoCtz32_spec x hx
    exact (Bitmap.ctz_toBitVec_eq hset hclear).symm

/-! ### `krhino_find_first_bit` -/

/-- On `n` words with a bit set among them, the scan finds the least position whose
`BITMAP_MASK` bit is set in its `BITMAP_WORD`. -/
theorem krhinoFindFirstBit_go_least (bm : Nat → UInt32) (n : Nat)
    (hset : ∃ nr < 32 * n, bm (bitmapWord nr) &&& bitmapMask nr ≠ 0) :
    ∃ nr, krhinoFindFirstBit.go bm 0 n = some nr ∧ bm (bitmapWord nr) &&& bitmapMask nr ≠ 0 ∧
      ∀ j < nr, bm (bitmapWord j) &&& bitmapMask j = 0 := by
  obtain ⟨nr, hnr, hbit⟩ := hset
  rw [krhinoFindFirstBit_go_eq]
  cases hf : Bitmap.findFirst bm 0 n with
  | none =>
    have hclear := Bitmap.findFirst_none hf nr (Nat.zero_le _) (by simpa using hnr)
    rw [bitmapMask_ne_zero_iff, hclear] at hbit
    cases hbit
  | some i =>
    obtain ⟨-, -, hi, hbelow⟩ := Bitmap.findFirst_some hf
    refine ⟨i, rfl, (bitmapMask_ne_zero_iff bm i).mpr hi, fun j hj => ?_⟩
    by_contra hj'
    rw [← ne_eq, bitmapMask_ne_zero_iff, hbelow j (Nat.zero_le _) hj] at hj'
    cases hj'

/-! ### Runs of `krhino_bitmap_set` and `krhino_bitmap_clear` -/

/-- A call of `krhino_bitmap_set` or `krhino_bitmap_clear`. -/
inductive BitmapOp where
  | set (nr : Nat)
  | clear (nr : Nat)
  deriving DecidableEq, Repr

/-- The position a call names. -/
def BitmapOp.nr : BitmapOp → Nat
  | .set nr => nr
  | .clear nr => nr

/-- One call on the words. -/
def bitmapStep (bm : Nat → UInt32) : BitmapOp → (Nat → UInt32) × Unit
  | .set nr => (krhinoBitmapSet bm nr, ())
  | .clear nr => (krhinoBitmapClear bm nr, ())

/-- One call on the set of positions it stands for. -/
def positionsStep (S : Finset Nat) : BitmapOp → Finset Nat × Unit
  | .set nr => (insert nr S, ())
  | .clear nr => (S.erase nr, ())

/-- Every run from a zeroed bitmap holds the set the same calls leave. -/
theorem bitmapRun_holds (ops : List BitmapOp) :
    Bitmap.Holds (Machine.exec bitmapStep (fun _ => 0) ops) (Machine.exec positionsStep ∅ ops) := by
  refine Machine.exec_sim Bitmap.Holds (fun _ => True) ?_ Bitmap.holds_zero (fun _ _ => trivial)
  intro bm S o _ h
  cases o with
  | set nr => exact h.set nr
  | clear nr => exact h.clear nr

/-- The positions a run leaves set are among those its calls name. -/
theorem positionsRun_lt {n : Nat} {ops : List BitmapOp} (hops : ∀ o ∈ ops, o.nr < 32 * n) :
    ∀ j ∈ Machine.exec positionsStep ∅ ops, j < 32 * n := by
  refine Machine.exec_invariant (fun S => ∀ j ∈ S, j < 32 * n) (fun o => o.nr < 32 * n) ?_
    (by simp) hops
  intro S o ho hS j hj
  cases o with
  | set nr =>
    rcases Finset.mem_insert.mp hj with rfl | hj
    · exact ho
    · exact hS j hj
  | clear nr => exact hS j (Finset.mem_of_mem_erase hj)

/-- After a run that leaves a position set, the first set bit is the least one. -/
theorem krhinoFindFirstBit_run (n : Nat) (ops : List BitmapOp) (hops : ∀ o ∈ ops, o.nr < 32 * n)
    (hne : (Machine.exec positionsStep ∅ ops).Nonempty) :
    krhinoFindFirstBit.go (Machine.exec bitmapStep (fun _ => 0) ops) 0 n =
      some ((Machine.exec positionsStep ∅ ops).min' hne) := by
  rw [krhinoFindFirstBit_go_eq]
  exact (bitmapRun_holds ops).findFirst_eq hne (positionsRun_lt hops)

theorem bitmap_helpers_match_reference :
    (∀ x : UInt32, krhinoClz32 x = x.toBitVec.clz.toNat) ∧
      (∀ x : UInt32, krhinoCtz32 x = x.toBitVec.ctz.toNat) ∧
      (∀ (bm : Nat → UInt32) (n : Nat), (∃ nr < 32 * n, bm (bitmapWord nr) &&& bitmapMask nr ≠ 0) →
        ∃ nr, krhinoFindFirstBit.go bm 0 n = some nr ∧ bm (bitmapWord nr) &&& bitmapMask nr ≠ 0 ∧
          ∀ j < nr, bm (bitmapWord j) &&& bitmapMask j = 0) ∧
      (∀ (n : Nat) (ops : List BitmapOp), (∀ o ∈ ops, o.nr < 32 * n) →
        ∀ hne : (Machine.exec positionsStep ∅ ops).Nonempty,
          krhinoFindFirstBit.go (Machine.exec bitmapStep (fun _ => 0) ops) 0 n =
            some ((Machine.exec positionsStep ∅ ops).min' hne)) :=
  ⟨krhinoClz32_eq_clz, krhinoCtz32_eq_ctz, krhinoFindFirstBit_go_least, krhinoFindFirstBit_run⟩

theorem bitmap_helpers_match_reference_two_words :
    (∃ nr, krhinoFindFirstBit.go (Machine.exec bitmapStep (fun _ => 0) [.set 40, .set 7, .clear 7]) 0 2 =
        some nr) ∧
      krhinoFindFirstBit.go (Machine.exec bitmapStep (fun _ => 0) [.set 40, .set 7, .clear 7]) 0 2 = some 40 := by
  have hops : ∀ o ∈ [BitmapOp.set 40, .set 7, .clear 7], o.nr < 32 * 2 := by decide
  have hpos : Machine.exec positionsStep ∅ [.set 40, .set 7, .clear 7] = {40} := by decide
  have hne : (Machine.exec positionsStep ∅ [.set 40, .set 7, .clear 7]).Nonempty := by
    rw [hpos]
    exact Finset.singleton_nonempty 40
  obtain ⟨nr, hnr, -⟩ := bitmap_helpers_match_reference.2.2.1
    (Machine.exec bitmapStep (fun _ => 0) [.set 40, .set 7, .clear 7]) 2 ⟨40, by decide, by decide⟩
  refine ⟨⟨nr, hnr⟩, ?_⟩
  have hmin : (Machine.exec positionsStep ∅ [.set 40, .set 7, .clear 7]).min' hne = 40 := by
    simp only [hpos, Finset.min'_singleton]
  rw [bitmap_helpers_match_reference.2.2.2 2 _ hops hne, hmin]

end Rhino
