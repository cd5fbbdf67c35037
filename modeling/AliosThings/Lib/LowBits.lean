import Mathlib

/-!
# Words with flags in their low bits

A word `x` whose low `k` bits are flags is `2 ^ k * (x / 2 ^ k) + x % 2 ^ k`: a value
above the flags, and the flags. Masking or setting bits acts on each part alone, so
facts about flags are facts about numbers below `2 ^ k`, and facts about the value
are facts about `x / 2 ^ k`.
-/

namespace LowBits

theorem land_split (k q r f g : Nat) (hf : f < 2 ^ k) (hg : g < 2 ^ k) :
    (2 ^ k * q + f) &&& (2 ^ k * r + g) = 2 ^ k * (q &&& r) + (f &&& g) := by
  apply Nat.eq_of_testBit_eq
  intro i
  rw [Nat.testBit_and, Nat.testBit_two_pow_mul_add _ hf, Nat.testBit_two_pow_mul_add _ hg,
    Nat.testBit_two_pow_mul_add _ (Nat.and_lt_two_pow _ hg)]
  split <;> simp [Nat.testBit_and]

theorem lor_split (k q r f g : Nat) (hf : f < 2 ^ k) (hg : g < 2 ^ k) :
    (2 ^ k * q + f) ||| (2 ^ k * r + g) = 2 ^ k * (q ||| r) + (f ||| g) := by
  apply Nat.eq_of_testBit_eq
  intro i
  rw [Nat.testBit_or, Nat.testBit_two_pow_mul_add _ hf, Nat.testBit_two_pow_mul_add _ hg,
    Nat.testBit_two_pow_mul_add _ (Nat.or_lt_two_pow hf hg)]
  split <;> simp [Nat.testBit_or]

variable {k : Nat}

/-- Setting flags leaves the value above them. -/
theorem lor_low (x m : Nat) (hm : m < 2 ^ k) :
    x ||| m = 2 ^ k * (x / 2 ^ k) + (x % 2 ^ k ||| m) := by
  have hsplit := lor_split k (x / 2 ^ k) 0 (x % 2 ^ k) m (Nat.mod_lt _ (by positivity)) hm
  rwa [Nat.div_add_mod, Nat.mul_zero, Nat.zero_add, Nat.or_zero] at hsplit

/-- Masking with flags reads the flags alone. -/
theorem land_low (x m : Nat) (hm : m < 2 ^ k) : x &&& m = x % 2 ^ k &&& m := by
  have hsplit := land_split k (x / 2 ^ k) 0 (x % 2 ^ k) m (Nat.mod_lt _ (by positivity)) hm
  rwa [Nat.div_add_mod, Nat.mul_zero, Nat.zero_add, Nat.and_zero, Nat.mul_zero, Nat.zero_add]
    at hsplit

/-- Masking with a word of value `r` and flags `g`. -/
theorem land_high (x r g : Nat) (hg : g < 2 ^ k) :
    x &&& (2 ^ k * r + g) = 2 ^ k * (x / 2 ^ k &&& r) + (x % 2 ^ k &&& g) := by
  have hsplit := land_split k (x / 2 ^ k) r (x % 2 ^ k) g (Nat.mod_lt _ (by positivity)) hg
  rw [Nat.div_add_mod] at hsplit
  exact hsplit

/-- The value and the flags of a word built from them. -/
theorem div_of_split {q f : Nat} (hf : f < 2 ^ k) : (2 ^ k * q + f) / 2 ^ k = q := by
  rw [Nat.mul_comm, Nat.add_comm, Nat.add_mul_div_right _ _ (by positivity), Nat.div_eq_of_lt hf,
    Nat.zero_add]

theorem mod_of_split {q f : Nat} (hf : f < 2 ^ k) : (2 ^ k * q + f) % 2 ^ k = f := by
  rw [Nat.mul_comm, Nat.add_comm, Nat.add_mul_mod_self_right, Nat.mod_eq_of_lt hf]

end LowBits
