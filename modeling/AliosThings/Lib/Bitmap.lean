import Mathlib

/-!
# Word bitmaps read from the most significant bit

A bitmap is kept in 32-bit words, bit `nr` being bit `31 - nr % 32` of word
`nr / 32`: the most significant bit of word `0` is bit `0`. The first set bit
is found word by word, and inside a word by counting its leading zeros by
halving: when the upper half of what is left is clear it is shifted out and
counted, with halves of 16, 8, 4, 2 and 1 bits.
-/

namespace Bitmap

/-- Bit `nr` of the bitmap. -/
def test (bm : Nat → UInt32) (nr : Nat) : Bool :=
  (bm (nr / 32)).toNat.testBit (31 - nr % 32)

/-- The word with bit `nr` alone. -/
def mask (nr : Nat) : UInt32 :=
  1 <<< UInt32.ofNat (31 - nr % 32)

/-- Set bit `nr`. -/
def set (bm : Nat → UInt32) (nr : Nat) : Nat → UInt32 :=
  fun w => if w = nr / 32 then bm w ||| mask nr else bm w

/-- Clear bit `nr`. -/
def clear (bm : Nat → UInt32) (nr : Nat) : Nat → UInt32 :=
  fun w => if w = nr / 32 then bm w &&& ~~~(mask nr) else bm w

theorem testBit_or_shiftLeft (x : UInt32) {i j : Nat} (hi : i < 32) (hj : j < 32) :
    (x ||| (1 : UInt32) <<< UInt32.ofNat j).toNat.testBit i = (decide (i = j) || x.toNat.testBit i) := by
  have hb : ∀ y : UInt32, y.toNat.testBit i = y.toBitVec.getLsbD i := fun _ => rfl
  rw [hb, hb x]
  simp [UInt32.toBitVec_or, UInt32.toBitVec_shiftLeft, hi, Nat.mod_eq_of_lt hj]
  by_cases h : i = j
  · simp [h]
  · simp [h]
    omega

theorem testBit_and_not_shiftLeft (x : UInt32) {i j : Nat} (hi : i < 32) (hj : j < 32) :
    (x &&& ~~~((1 : UInt32) <<< UInt32.ofNat j)).toNat.testBit i =
      (decide (i ≠ j) && x.toNat.testBit i) := by
  have hb : ∀ y : UInt32, y.toNat.testBit i = y.toBitVec.getLsbD i := fun _ => rfl
  rw [hb, hb x]
  simp [UInt32.toBitVec_and, UInt32.toBitVec_not, UInt32.toBitVec_shiftLeft, hi, Nat.mod_eq_of_lt hj]
  by_cases h : i = j
  · simp [h]
  · simp [h]
    omega

/-- Masking with the ones from bit `k` up keeps the bits from `k` up. -/
theorem testBit_and_ones_shiftLeft (x : UInt32) {i k : Nat} (hi : i < 32) (hk : k < 32) :
    (x &&& (0xFFFFFFFF : UInt32) <<< UInt32.ofNat k).toNat.testBit i = (decide (k ≤ i) && x.toNat.testBit i) := by
  have hb : ∀ y : UInt32, y.toNat.testBit i = y.toBitVec.getLsbD i := fun _ => rfl
  rw [hb, hb x]
  simp [UInt32.toBitVec_and, UInt32.toBitVec_shiftLeft, hi, Nat.mod_eq_of_lt hk]
  have hik : i - k < 32 := by omega
  have hones : (4294967295#32)[i - k] = true := by
    rw [show (4294967295#32) = BitVec.allOnes 32 from rfl, BitVec.getElem_allOnes]
  by_cases h : k ≤ i
  · simp [h, show ¬ i < k by omega, hones, Bool.and_comm]
  · simp [h, show i < k by omega]

theorem toNat_mask (nr : Nat) : (mask nr).toNat = 2 ^ (31 - nr % 32) := by
  have hj : 31 - nr % 32 < 32 := by omega
  rw [mask, UInt32.toNat_shiftLeft, UInt32.toNat_ofNat_of_lt' (show 31 - nr % 32 < 2 ^ 32 by omega),
    Nat.mod_eq_of_lt hj,
    Nat.shiftLeft_eq, UInt32.toNat_one, one_mul, Nat.mod_eq_of_lt (Nat.pow_lt_pow_right (by norm_num) hj)]

/-- A word and the mask of bit `nr` meet exactly when the bit is set. -/
theorem and_mask_ne_zero_iff (bm : Nat → UInt32) (nr : Nat) :
    bm (nr / 32) &&& mask nr ≠ 0 ↔ test bm nr = true := by
  rw [Ne, ← UInt32.toNat_inj, UInt32.toNat_and, toNat_mask, Nat.and_two_pow, test]
  cases (bm (nr / 32)).toNat.testBit (31 - nr % 32) <;> simp

/-- Bits `nr` and `nr'` are one bit when they have the same word and the same place in it. -/
theorem eq_of_word_eq {nr nr' : Nat} (hw : nr' / 32 = nr / 32) (hb : 31 - nr' % 32 = 31 - nr % 32) :
    nr' = nr := by
  omega

@[simp] theorem test_set (bm : Nat → UInt32) (nr nr' : Nat) :
    test (set bm nr) nr' = (decide (nr' = nr) || test bm nr') := by
  unfold test set mask
  by_cases hw : nr' / 32 = nr / 32
  · rw [if_pos hw, hw, testBit_or_shiftLeft _ (by omega) (by omega)]
    by_cases h : nr' = nr
    · simp [h]
    · have hb : 31 - nr' % 32 ≠ 31 - nr % 32 := fun hb => h (eq_of_word_eq hw hb)
      simp [h, hb]
  · have h : nr' ≠ nr := fun h => hw (by rw [h])
    simp [hw, h]

@[simp] theorem test_clear (bm : Nat → UInt32) (nr nr' : Nat) :
    test (clear bm nr) nr' = (decide (nr' ≠ nr) && test bm nr') := by
  unfold test clear mask
  by_cases hw : nr' / 32 = nr / 32
  · rw [if_pos hw, hw, testBit_and_not_shiftLeft _ (by omega) (by omega)]
    by_cases h : nr' = nr
    · simp [h]
    · have hb : 31 - nr' % 32 ≠ 31 - nr % 32 := fun hb => h (eq_of_word_eq hw hb)
      simp [h, hb]
  · have h : nr' ≠ nr := fun h => hw (by rw [h])
    simp [hw, h]

/-- One halving step: when the upper `s` bits of what is left, the mask `hi`, are
clear, they are shifted out and counted. -/
def clzStep (s : Nat) (hi : UInt32) (p : UInt32 × Nat) : UInt32 × Nat :=
  if p.1 &&& hi = 0 then (p.1 <<< UInt32.ofNat s, p.2 + s) else p

/-- The leading zeros of a non-zero word, by halving. -/
def clz (x : UInt32) : Nat :=
  let p := clzStep 2 0xC0000000 (clzStep 4 0xF0000000 (clzStep 8 0xFF000000
    (clzStep 16 0xFFFF0000 (x, 0))))
  if p.1 &&& 0x80000000 = 0 then p.2 + 1 else p.2

/-- The bits from `k` to `31` of a word are clear exactly when it is below `2 ^ k`. -/
theorem and_high_eq_zero_iff {x k : Nat} (hx : x < 2 ^ 32) (hk : k ≤ 32) :
    x &&& (2 ^ 32 - 2 ^ k) = 0 ↔ x < 2 ^ k := by
  have hm : ∀ i, (2 ^ 32 - 2 ^ k).testBit i = (decide (k ≤ i) && decide (i < 32)) := by
    intro i
    have hsh : 2 ^ 32 - 2 ^ k = (2 ^ (32 - k) - 1) <<< k := by
      rw [Nat.shiftLeft_eq, Nat.sub_mul, one_mul, ← pow_add, Nat.sub_add_cancel hk]
    rw [hsh, Nat.testBit_shiftLeft, Nat.testBit_two_pow_sub_one]
    by_cases h : k ≤ i
    · simp only [ge_iff_le, h, decide_true, Bool.true_and]
      exact decide_eq_decide.mpr (by omega)
    · simp [h]
  have hpow : ∀ {i}, k ≤ i → 2 ^ k ≤ 2 ^ i := fun h => Nat.pow_le_pow_right (by norm_num) h
  constructor
  · intro h
    apply Nat.lt_pow_two_of_testBit
    intro i hi
    by_cases h32 : i < 32
    · have hbit := congrArg (Nat.testBit · i) h
      simp only [Nat.testBit_and, hm, Nat.zero_testBit] at hbit
      simpa [hi, h32] using hbit
    · exact Nat.testBit_lt_two_pow (lt_of_lt_of_le hx (Nat.pow_le_pow_right (by norm_num) (by omega)))
  · intro h
    apply Nat.eq_of_testBit_eq
    intro i
    rw [Nat.testBit_and, hm, Nat.zero_testBit]
    by_cases hi : k ≤ i
    · rw [Nat.testBit_lt_two_pow (lt_of_lt_of_le h (hpow hi))]
      simp
    · simp [hi]

theorem eq_zero_iff_toNat {x : UInt32} : x = 0 ↔ x.toNat = 0 := by
  rw [← UInt32.toNat_inj]
  rfl

/-- A step keeps `tmp = x * 2 ^ n` and, from a word with a set bit among its top
`2 * s`, leaves one with a set bit among its top `s`. -/
theorem clzStep_spec (s : Nat) (hi : UInt32) (hhi : hi.toNat = 2 ^ 32 - 2 ^ (32 - s))
    (hs : 2 * s ≤ 32) {x : UInt32} {p : UInt32 × Nat} (hinv : p.1.toNat = x.toNat * 2 ^ p.2)
    (hlow : 2 ^ (32 - 2 * s) ≤ p.1.toNat) :
    (clzStep s hi p).1.toNat = x.toNat * 2 ^ (clzStep s hi p).2 ∧
      2 ^ (32 - s) ≤ (clzStep s hi p).1.toNat := by
  obtain ⟨tmp, n⟩ := p
  have hand : tmp &&& hi = 0 ↔ tmp.toNat < 2 ^ (32 - s) := by
    rw [eq_zero_iff_toNat, UInt32.toNat_and, hhi]
    exact and_high_eq_zero_iff tmp.toNat_lt (by omega)
  unfold clzStep
  split
  · rename_i h
    have hlt := hand.mp h
    have hprod : tmp.toNat * 2 ^ s < 2 ^ 32 := by
      calc tmp.toNat * 2 ^ s < 2 ^ (32 - s) * 2 ^ s := Nat.mul_lt_mul_of_pos_right hlt (by positivity)
        _ = 2 ^ 32 := by rw [← pow_add]; congr 1; omega
    have hshift : (tmp <<< UInt32.ofNat s).toNat = tmp.toNat * 2 ^ s := by
      rw [UInt32.toNat_shiftLeft, UInt32.toNat_ofNat_of_lt' (show s < 2 ^ 32 by omega),
        Nat.mod_eq_of_lt (show s < 32 by omega), Nat.shiftLeft_eq, Nat.mod_eq_of_lt hprod]
    refine ⟨by rw [hshift, hinv, pow_add, mul_assoc], ?_⟩
    rw [hshift]
    calc 2 ^ (32 - s) = 2 ^ (32 - 2 * s) * 2 ^ s := by rw [← pow_add]; congr 1; omega
      _ ≤ tmp.toNat * 2 ^ s := Nat.mul_le_mul_right _ hlow
  · rename_i h
    exact ⟨hinv, not_lt.mp (mt hand.mpr h)⟩

/-- What the count leaves: `x * 2 ^ clz x` has its top bit set. -/
theorem clz_top (x : UInt32) (hx : x ≠ 0) :
    2 ^ 31 ≤ x.toNat * 2 ^ clz x ∧ x.toNat * 2 ^ clz x < 2 ^ 32 := by
  have hx0 : 1 ≤ x.toNat := Nat.one_le_iff_ne_zero.mpr (mt eq_zero_iff_toNat.mpr hx)
  obtain ⟨h1, l1⟩ := clzStep_spec 16 0xFFFF0000 rfl (by norm_num) (x := x) (p := (x, 0))
    (by simp) (by simpa using hx0)
  obtain ⟨h2, l2⟩ := clzStep_spec 8 0xFF000000 rfl (by norm_num) h1 l1
  obtain ⟨h3, l3⟩ := clzStep_spec 4 0xF0000000 rfl (by norm_num) h2 l2
  obtain ⟨h4, l4⟩ := clzStep_spec 2 0xC0000000 rfl (by norm_num) h3 l3
  unfold clz
  generalize clzStep 2 0xC0000000 (clzStep 4 0xF0000000 (clzStep 8 0xFF000000
    (clzStep 16 0xFFFF0000 (x, 0)))) = p at h4 l4 ⊢
  have hlt : p.1.toNat < 2 ^ 32 := p.1.toNat_lt
  -- the last step only counts: the top bit alone is left to test
  have htop : p.1 &&& 0x80000000 = 0 ↔ p.1.toNat < 2 ^ 31 := by
    rw [eq_zero_iff_toNat, UInt32.toNat_and, show (0x80000000 : UInt32).toNat = 2 ^ 32 - 2 ^ 31 from rfl]
    exact and_high_eq_zero_iff hlt (by norm_num)
  dsimp only
  split
  · rename_i h
    have h31 := htop.mp h
    have hdouble : x.toNat * 2 ^ (p.2 + 1) = p.1.toNat * 2 := by rw [h4, pow_succ, mul_assoc]
    rw [hdouble]
    constructor <;> omega
  · rename_i h
    rw [← h4]
    exact ⟨not_lt.mp (mt htop.mpr h), hlt⟩

/-- The count is the place of the most significant set bit. -/
theorem clz_spec (x : UInt32) (hx : x ≠ 0) :
    clz x < 32 ∧ x.toNat.testBit (31 - clz x) = true ∧
      ∀ i < clz x, x.toNat.testBit (31 - i) = false := by
  obtain ⟨hlo, hhi⟩ := clz_top x hx
  have hx0 : 1 ≤ x.toNat := Nat.one_le_iff_ne_zero.mpr (mt eq_zero_iff_toNat.mpr hx)
  have hn : clz x < 32 := by
    have : 2 ^ clz x < 2 ^ 32 := lt_of_le_of_lt (Nat.le_mul_of_pos_left _ hx0) hhi
    exact (Nat.pow_lt_pow_iff_right (by norm_num)).mp this
  have hsplit : ∀ a, a ≤ 32 → 2 ^ 32 = 2 ^ (32 - a) * 2 ^ a := fun a ha => by
    rw [← pow_add, Nat.sub_add_cancel ha]
  have hxlt : x.toNat < 2 ^ (32 - clz x) := by
    rw [hsplit (clz x) hn.le] at hhi
    exact Nat.lt_of_mul_lt_mul_right hhi
  have hxge : 2 ^ (31 - clz x) ≤ x.toNat := by
    have h31 : 2 ^ 31 = 2 ^ (31 - clz x) * 2 ^ clz x := by rw [← pow_add]; congr 1; omega
    rw [h31] at hlo
    exact Nat.le_of_mul_le_mul_right hlo (by positivity)
  refine ⟨hn, ?_, ?_⟩
  · have hdiv : x.toNat / 2 ^ (31 - clz x) = 1 := by
      apply Nat.div_eq_of_lt_le
      · simpa using hxge
      · calc x.toNat < 2 ^ (32 - clz x) := hxlt
          _ = (1 + 1) * 2 ^ (31 - clz x) := by rw [← pow_succ']; congr 1; omega
    rw [Nat.testBit_eq_decide_div_mod_eq, hdiv]
    rfl
  · intro i hi
    exact Nat.testBit_lt_two_pow (lt_of_lt_of_le hxlt (Nat.pow_le_pow_right (by norm_num) (by omega)))

/-- A word lies between the powers of two its count of leading zeros names. -/
theorem clz_bounds (x : UInt32) (hx : x ≠ 0) :
    2 ^ (31 - clz x) ≤ x.toNat ∧ x.toNat < 2 ^ (32 - clz x) := by
  obtain ⟨hn, hset, habove⟩ := clz_spec x hx
  refine ⟨Nat.ge_two_pow_of_testBit hset, Nat.lt_pow_two_of_testBit _ fun i hi => ?_⟩
  by_cases h32 : i < 32
  · -- bit `i` is one of the leading zeros
    have h := habove (31 - i) (by omega)
    rwa [show 31 - (31 - i) = i by omega] at h
  · exact Nat.testBit_lt_two_pow (lt_of_lt_of_le x.toNat_lt (Nat.pow_le_pow_right (by norm_num) (by omega)))

/-- The first set bit of the `n` words from word `w` on. -/
def findFirst (bm : Nat → UInt32) (w : Nat) : Nat → Option Nat
  | 0 => none
  | n + 1 => if bm w = 0 then findFirst bm (w + 1) n else some (32 * w + clz (bm w))

theorem test_of_word_zero {bm : Nat → UInt32} {j : Nat} (h : bm (j / 32) = 0) : test bm j = false := by
  simp [test, h]

theorem findFirst_none {bm : Nat → UInt32} {w n : Nat} (h : findFirst bm w n = none) :
    ∀ j, 32 * w ≤ j → j < 32 * (w + n) → test bm j = false := by
  induction n generalizing w with
  | zero => intro j _ _; omega
  | succ n ih =>
    unfold findFirst at h
    split at h
    · rename_i hw
      intro j hj hj'
      by_cases hin : j < 32 * (w + 1)
      · exact test_of_word_zero (by rw [show j / 32 = w by omega]; exact hw)
      · exact ih h j (by omega) (by omega)
    · cases h

theorem findFirst_some {bm : Nat → UInt32} {w n i : Nat} (h : findFirst bm w n = some i) :
    32 * w ≤ i ∧ i < 32 * (w + n) ∧ test bm i = true ∧
      ∀ j, 32 * w ≤ j → j < i → test bm j = false := by
  induction n generalizing w with
  | zero => cases h
  | succ n ih =>
    unfold findFirst at h
    split at h
    · rename_i hw
      obtain ⟨hlo, hhi, hi, hbelow⟩ := ih h
      refine ⟨by omega, by omega, hi, fun j hj hji => ?_⟩
      by_cases hin : j < 32 * (w + 1)
      · exact test_of_word_zero (by rw [show j / 32 = w by omega]; exact hw)
      · exact hbelow j (by omega) hji
    · rename_i hw
      cases h
      obtain ⟨hn, hset, hclear⟩ := clz_spec (bm w) hw
      have hdiv : ∀ j, 32 * w ≤ j → j < 32 * (w + 1) → j / 32 = w ∧ j % 32 = j - 32 * w :=
        fun j h₁ h₂ => ⟨by omega, by omega⟩
      obtain ⟨hd, hm⟩ := hdiv (32 * w + clz (bm w)) (by omega) (by omega)
      refine ⟨by omega, by omega, ?_, fun j hj hji => ?_⟩
      · rw [test, hd, hm, show 32 * w + clz (bm w) - 32 * w = clz (bm w) by omega]
        exact hset
      · obtain ⟨hd', hm'⟩ := hdiv j hj (by omega)
        rw [test, hd', hm']
        exact hclear _ (by omega)

/-! ### The reference counts

`BitVec.clz` and `BitVec.ctz` count the leading and the trailing zeros of a word. A
count is theirs as soon as it names a set bit with only clear bits on its side. -/

theorem toBitVec_ne_zero_of_testBit {x : UInt32} {i : Nat} (h : x.toNat.testBit i = true) :
    x.toBitVec ≠ 0#32 := by
  intro h0
  have hx : x.toNat = 0 := by rw [← UInt32.toNat_toBitVec, h0]; rfl
  rw [hx, Nat.zero_testBit] at h
  cases h

theorem clz_toBitVec_eq {x : UInt32} {k : Nat} (hset : x.toNat.testBit (31 - k) = true)
    (hclear : ∀ i < k, x.toNat.testBit (31 - i) = false) (hk : k < 32) :
    x.toBitVec.clz.toNat = k := by
  have hx := toBitVec_ne_zero_of_testBit hset
  have htop : x.toNat.testBit (31 - x.toBitVec.clz.toNat) = true :=
    BitVec.getLsbD_true_clz_of_ne_zero (by norm_num) hx
  have hbelow : x.toNat < 2 ^ (32 - x.toBitVec.clz.toNat) := BitVec.toNat_lt_two_pow_sub_clz
  by_cases hlt : x.toBitVec.clz.toNat < k
  · rw [hclear _ hlt] at htop
    cases htop
  · by_cases hgt : k < x.toBitVec.clz.toNat
    · -- bit `31 - k` is set, yet the word is below `2 ^ (31 - k)`
      have hge := Nat.ge_two_pow_of_testBit hset
      have hle : 2 ^ (32 - x.toBitVec.clz.toNat) ≤ 2 ^ (31 - k) :=
        Nat.pow_le_pow_right (by norm_num) (by omega)
      omega
    · omega

theorem ctz_toBitVec_eq {x : UInt32} {k : Nat} (hset : x.toNat.testBit k = true)
    (hclear : ∀ i < k, x.toNat.testBit i = false) : x.toBitVec.ctz.toNat = k := by
  have hx := toBitVec_ne_zero_of_testBit hset
  have hlow : x.toNat.testBit x.toBitVec.ctz.toNat = true := BitVec.getLsbD_true_ctz_of_ne_zero hx
  by_cases hlt : x.toBitVec.ctz.toNat < k
  · rw [hclear _ hlt] at hlow
    cases hlow
  · by_cases hgt : k < x.toBitVec.ctz.toNat
    · have h := BitVec.getLsbD_false_of_lt_ctz hgt
      rw [BitVec.getLsbD, UInt32.toNat_toBitVec, hset] at h
      cases h
    · omega

/-- The count by halving is the reference count. -/
theorem clz_eq_clz_toBitVec (x : UInt32) (hx : x ≠ 0) : clz x = x.toBitVec.clz.toNat := by
  obtain ⟨hn, hset, hclear⟩ := clz_spec x hx
  exact (clz_toBitVec_eq hset hclear hn).symm

/-! ### A bitmap of a finite set

Setting and clearing bits insert and erase positions, and the first set bit is the
least position. -/

/-- The bitmap has exactly the positions of `S` set. -/
def Holds (bm : Nat → UInt32) (S : Finset Nat) : Prop :=
  ∀ j, test bm j = decide (j ∈ S)

theorem holds_zero : Holds (fun _ => 0) ∅ := by
  intro j
  simp [test]

theorem Holds.set {bm : Nat → UInt32} {S : Finset Nat} (h : Holds bm S) (nr : Nat) :
    Holds (set bm nr) (insert nr S) := by
  intro j
  rw [test_set, h j]
  by_cases hj : j = nr <;> simp [hj]

theorem Holds.clear {bm : Nat → UInt32} {S : Finset Nat} (h : Holds bm S) (nr : Nat) :
    Holds (clear bm nr) (S.erase nr) := by
  intro j
  rw [test_clear, h j]
  by_cases hj : j = nr <;> simp [hj]

theorem Holds.findFirst_eq {bm : Nat → UInt32} {S : Finset Nat} (h : Holds bm S) {n : Nat}
    (hS : S.Nonempty) (hn : ∀ j ∈ S, j < 32 * n) : findFirst bm 0 n = some (S.min' hS) := by
  have hmin := S.min'_mem hS
  cases hf : findFirst bm 0 n with
  | none =>
    -- the scan ran past every word, yet the least position is set
    have hclear := findFirst_none hf (S.min' hS) (by omega) (by simpa using hn _ hmin)
    rw [h, decide_eq_false_iff_not] at hclear
    exact absurd hmin hclear
  | some i =>
    obtain ⟨-, -, hset, hbelow⟩ := findFirst_some hf
    have hi : i ∈ S := of_decide_eq_true (h i ▸ hset)
    refine congrArg some (le_antisymm ?_ (S.min'_le i hi))
    by_contra hlt
    have hclear := hbelow (S.min' hS) (by omega) (by omega)
    rw [h, decide_eq_false_iff_not] at hclear
    exact hclear hmin

end Bitmap
