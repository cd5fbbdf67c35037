import Mathlib

/-!
# Time conversion (`k_time.c`)

`krhino_ms_to_ticks` splits a time in milliseconds into whole seconds and a surplus,
and pads the surplus by `1000 / TPS - 1` before it divides by `1000`;
`krhino_ticks_to_ms` pads the other way with `TPS / 1000 - 1`. `TPS` is
`RHINO_CONFIG_TICKS_PER_SECOND`, a parameter here. When `TPS` divides `1000` the padding
is exactly the ceiling's: a time becomes the least number of ticks that covers it, and
back again at least the time, as long as no 64-bit sum wraps. For any other `TPS` below
`1000` the padding falls short and one millisecond becomes no tick at all.
-/

namespace Rhino

/-- `krhino_ms_to_ticks` with `RHINO_CONFIG_TICKS_PER_SECOND = tps`. `sys_time_t` and
`tick_t` are 64-bit and `surplus` and `padding` are `uint16_t`; the padded surplus is
multiplied in `int`. -/
def krhinoMsToTicks (tps ms : Nat) : Nat :=
  let surplus := ms % 1000 % 2 ^ 16
  let ticks := ms / 1000 * tps % 2 ^ 64
  let padding := 1000 / tps % 2 ^ 16
  let padding := if padding > 0 then padding - 1 else 0
  (ticks + (surplus + padding) * tps / 1000) % 2 ^ 64

/-- `krhino_ticks_to_ms`. `surplus` and `padding` are `uint32_t`, so the padded surplus
is multiplied in 32 bits. -/
def krhinoTicksToMs (tps ticks : Nat) : Nat :=
  let surplus := ticks % tps % 2 ^ 32
  let time := ticks / tps * 1000 % 2 ^ 64
  let padding := tps / 1000 % 2 ^ 32
  let padding := if padding > 0 then padding - 1 else 0
  (time + (surplus + padding) % 2 ^ 32 * 1000 % 2 ^ 32 / tps) % 2 ^ 64

/-! ### Rounding up by padding -/

/-- Rounding `s * k / (k * d)` up is rounding `s / d` up. -/
theorem ceilDiv_mul_mul {k d : Nat} (s : Nat) (hk : 0 < k) (hd : 0 < d) :
    (s * k) ⌈/⌉ (k * d) = (s + (d - 1)) / d := by
  have hkd : 0 < k * d := Nat.mul_pos hk hd
  have hpred : (k * d - 1) / k = d - 1 := by
    apply Nat.div_eq_of_lt_le
    · rw [Nat.sub_one_mul, mul_comm d k]
      omega
    · rw [Nat.sub_add_cancel hd, mul_comm d k]
      omega
  rw [Nat.ceilDiv_eq_add_pred_div, ← Nat.div_div_eq_div_mul, Nat.add_sub_assoc hkd, mul_comm s k,
    Nat.mul_add_div hk, hpred]

/-- Padding the surplus by `d - 1` before dividing by `k * d` rounds up. -/
theorem padded_div_eq_ceilDiv {k d : Nat} (s : Nat) (hk : 0 < k) (hd : 0 < d) :
    (s + (d - 1)) * k / (k * d) = (s * k) ⌈/⌉ (k * d) := by
  rw [ceilDiv_mul_mul s hk hd, mul_comm _ k, Nat.mul_div_mul_left _ _ hk]

/-- Whole seconds convert exactly, so only the surplus is rounded. -/
theorem ceilDiv_thousand (ms tps : Nat) :
    (ms * tps) ⌈/⌉ 1000 = ms / 1000 * tps + (ms % 1000 * tps) ⌈/⌉ 1000 := by
  rw [Nat.ceilDiv_eq_add_pred_div, Nat.ceilDiv_eq_add_pred_div]
  have hsplit : ms * tps + 1000 - 1 = 1000 * (ms / 1000 * tps) + (ms % 1000 * tps + 1000 - 1) := by
    conv_lhs => rw [← Nat.div_add_mod ms 1000]
    rw [add_mul, mul_assoc]
    omega
  rw [hsplit, Nat.mul_add_div (by norm_num)]

/-! ### `TPS` dividing `1000` -/

theorem tps_mul_div_tps {tps : Nat} (hdvd : tps ∣ 1000) : tps * (1000 / tps) = 1000 :=
  Nat.mul_div_cancel' hdvd

section Divides

variable {tps : Nat} (htps : 0 < tps) (hdvd : tps ∣ 1000)
include htps hdvd

theorem div_tps_pos : 0 < 1000 / tps :=
  Nat.div_pos (Nat.le_of_dvd (by norm_num) hdvd) htps

/-- A time becomes the least number of ticks that covers it. -/
theorem krhinoMsToTicks_eq_ceilDiv {ms : Nat} (hfit : (ms * tps) ⌈/⌉ 1000 < 2 ^ 64) :
    krhinoMsToTicks tps ms = (ms * tps) ⌈/⌉ 1000 := by
  have hd := div_tps_pos htps hdvd
  have hkd := tps_mul_div_tps hdvd
  have hpad : 1000 / tps % 2 ^ 16 = 1000 / tps :=
    Nat.mod_eq_of_lt (lt_of_le_of_lt (Nat.div_le_self 1000 tps) (by norm_num))
  have hsurplus : ms % 1000 % 2 ^ 16 = ms % 1000 := Nat.mod_eq_of_lt (by omega)
  -- the surplus, padded, is the rounded-up part; the whole seconds stay below the result
  have hpart : (ms % 1000 + (1000 / tps - 1)) * tps / 1000 = (ms % 1000 * tps) ⌈/⌉ 1000 := by
    have h := padded_div_eq_ceilDiv (ms % 1000) htps hd
    rw [hkd] at h
    exact h
  have hsum := ceilDiv_thousand ms tps
  unfold krhinoMsToTicks
  simp only [hsurplus, hpad, if_pos hd, hpart]
  rw [Nat.mod_eq_of_lt (show ms / 1000 * tps < 2 ^ 64 by omega), ← hsum, Nat.mod_eq_of_lt hfit]

/-- Ticks convert back exactly. -/
theorem krhinoTicksToMs_eq_mul {ticks : Nat} (hfit : ticks * (1000 / tps) < 2 ^ 64) :
    krhinoTicksToMs tps ticks = ticks * (1000 / tps) := by
  have hkd := tps_mul_div_tps hdvd
  have hle : tps ≤ 1000 := Nat.le_of_dvd (by norm_num) hdvd
  have hsurplus : ticks % tps < tps := Nat.mod_lt _ htps
  have hpad : (if tps / 1000 % 2 ^ 32 > 0 then tps / 1000 % 2 ^ 32 - 1 else 0) = 0 := by
    split_ifs <;> omega
  -- the surplus converts exactly: `surplus * 1000 / tps = surplus * (1000 / tps)`
  have hpart : ticks % tps * 1000 / tps = ticks % tps * (1000 / tps) := by
    rw [show ticks % tps * 1000 = tps * (ticks % tps * (1000 / tps)) by rw [mul_left_comm, hkd]]
    exact Nat.mul_div_cancel_left _ htps
  have hwhole : ticks / tps * 1000 + ticks % tps * (1000 / tps) = ticks * (1000 / tps) :=
    calc ticks / tps * 1000 + ticks % tps * (1000 / tps)
        = (tps * (ticks / tps) + ticks % tps) * (1000 / tps) := by
          rw [add_mul, mul_comm tps (ticks / tps), mul_assoc, hkd]
      _ = ticks * (1000 / tps) := by rw [Nat.div_add_mod]
  have hsmall : ticks % tps * 1000 < 2 ^ 32 := by
    have : ticks % tps * 1000 < 1000 * 1000 := Nat.mul_lt_mul_of_pos_right (by omega) (by norm_num)
    omega
  have htime : ticks / tps * 1000 < 2 ^ 64 := by
    rw [← hwhole] at hfit
    exact lt_of_le_of_lt (Nat.le_add_right _ _) hfit
  unfold krhinoTicksToMs
  simp only [hpad, Nat.add_zero]
  rw [Nat.mod_eq_of_lt (show ticks % tps < 2 ^ 32 by omega), Nat.mod_eq_of_lt (show ticks % tps < 2 ^ 32 by omega),
    Nat.mod_eq_of_lt hsmall, hpart, Nat.mod_eq_of_lt htime, hwhole, Nat.mod_eq_of_lt hfit]

/-- Converting a time to ticks and back never gives less, unless the 64-bit sum wraps. -/
theorem le_krhinoTicksToMs_krhinoMsToTicks {ms : Nat} (hfit : ms + 1000 / tps ≤ 2 ^ 64) :
    ms ≤ krhinoTicksToMs tps (krhinoMsToTicks tps ms) := by
  have hd := div_tps_pos htps hdvd
  have hkd := tps_mul_div_tps hdvd
  have hceil : (ms * tps) ⌈/⌉ 1000 = (ms + (1000 / tps - 1)) / (1000 / tps) := by
    rw [← ceilDiv_mul_mul ms htps hd, hkd]
  -- the ticks times `1000 / tps` lie in `[ms, ms + 1000 / tps)`
  have hlo : ms ≤ (ms + (1000 / tps - 1)) / (1000 / tps) * (1000 / tps) := by
    have := Nat.mod_lt (ms + (1000 / tps - 1)) hd
    have := Nat.div_add_mod' (ms + (1000 / tps - 1)) (1000 / tps)
    omega
  have hhi : (ms + (1000 / tps - 1)) / (1000 / tps) * (1000 / tps) < 2 ^ 64 := by
    have := Nat.div_mul_le_self (ms + (1000 / tps - 1)) (1000 / tps)
    omega
  have hticks : (ms + (1000 / tps - 1)) / (1000 / tps) < 2 ^ 64 :=
    lt_of_le_of_lt (Nat.le_mul_of_pos_right _ hd) hhi
  rw [krhinoMsToTicks_eq_ceilDiv htps hdvd (hceil ▸ hticks), hceil, krhinoTicksToMs_eq_mul htps hdvd hhi]
  exact hlo

end Divides

/-- At `100` ticks a second, `1234` ms is `124` ticks, which is `1240` ms. -/
theorem le_krhinoTicksToMs_krhinoMsToTicks_1234 : 1234 ≤ krhinoTicksToMs 100 (krhinoMsToTicks 100 1234) :=
  le_krhinoTicksToMs_krhinoMsToTicks (by decide) (by decide) (by decide)

/-! ### Other rates -/

/-- For a rate below `1000` that does not divide it, a delay of one millisecond becomes
no tick, and no time back; at the default rate, the largest time comes back as `4`. -/
theorem krhinoMsToTicks_rounds_down :
    (∀ tps, 0 < tps → tps < 1000 → ¬ tps ∣ 1000 →
      krhinoMsToTicks tps 1 = 0 ∧ krhinoTicksToMs tps (krhinoMsToTicks tps 1) = 0) ∧
      krhinoTicksToMs 100 (krhinoMsToTicks 100 (2 ^ 64 - 1)) = 4 := by
  refine ⟨fun tps htps hlt hndvd => ?_, by decide⟩
  have hd : 0 < 1000 / tps := Nat.div_pos hlt.le htps
  -- `1000 / tps * tps` falls short of `1000`, so the padded millisecond divides to `0`
  have hshort : 1000 / tps * tps < 1000 :=
    lt_of_le_of_ne (Nat.div_mul_le_self 1000 tps) fun h => hndvd ⟨1000 / tps, by rw [mul_comm]; exact h.symm⟩
  have hzero : krhinoMsToTicks tps 1 = 0 := by
    unfold krhinoMsToTicks
    simp only [Nat.mod_eq_of_lt (lt_of_le_of_lt (Nat.div_le_self 1000 tps) (show 1000 < 2 ^ 16 by norm_num)),
      if_pos hd]
    rw [show 1 % 1000 % 2 ^ 16 = 1 from rfl, show 1 / 1000 * tps % 2 ^ 64 = 0 by simp, zero_add,
      show 1 + (1000 / tps - 1) = 1000 / tps by omega, Nat.div_eq_of_lt hshort, Nat.zero_mod]
  refine ⟨hzero, ?_⟩
  rw [hzero]
  unfold krhinoTicksToMs
  simp [Nat.div_eq_of_lt hlt]

theorem krhinoMsToTicks_rounds_down_128 :
    krhinoMsToTicks 128 1 = 0 ∧ krhinoTicksToMs 128 (krhinoMsToTicks 128 1) = 0 :=
  krhinoMsToTicks_rounds_down.1 128 (by norm_num) (by norm_num) (by decide)

end Rhino
