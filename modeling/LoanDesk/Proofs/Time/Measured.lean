import LoanDesk.Proofs.Decimal.Amount
import LoanDesk.Time.Measured

/-
# Measured times and whole seconds

A stamp between 1970 and 2106 is measured as the binary number nearest to its seconds. Near a whole
second there is room for far less than a microsecond, so the number lies on the same side of every
whole second as the stamp, and on it if the stamp does.

Key definitions: `Stamp.IsCountable`.
Key theorems: `Binary64.rat_exactFinite`, `Binary64.exists_nearest`, `Stamp.order_measured`.
-/

namespace LoanDesk

namespace Binary64

open Decimal

/-! ### The exact value of a binary number -/

theorem lowestTerms_value (tries m : ℕ) (e : ℤ) :
    ((lowestTerms tries m e).1 : ℚ) * 2 ^ (lowestTerms tries m e).2 = m * 2 ^ e := by
  induction tries generalizing m e with
  | zero => rfl
  | succ tries ih =>
    unfold lowestTerms
    split
    · rename_i h
      have hm : (m : ℚ) = 2 * (m / 2 : ℕ) := by
        have : m = 2 * (m / 2) := by omega
        exact_mod_cast this
      rw [ih, zpow_add_one₀ two_ne_zero, hm]
      ring
    · rfl

theorem rat_exactFinite (m : ℕ) (e : ℤ) : (exactFinite false m e).rat = m * 2 ^ e := by
  unfold exactFinite
  split
  · rename_i h
    rw [h, rat_of_not_negative rfl]
    simp
  · have hvalue := lowestTerms_value 1074 m e
    cases hterms : lowestTerms 1074 m e with
    | mk n k =>
      rw [hterms] at hvalue
      simp only at hvalue ⊢
      rw [← hvalue]
      split
      · rename_i hk
        rw [rat_of_not_negative rfl, zpow_zero, mul_one, Nat.cast_mul, Nat.pow_eq, Nat.cast_pow,
          Nat.cast_ofNat, ← zpow_natCast, Int.toNat_of_nonneg hk]
      · rename_i hk
        have hten : (10 : ℚ) ^ k = 2 ^ k * 5 ^ k := by
          rw [← mul_zpow]
          norm_num
        have hfive : (5 : ℚ) ^ ((-k).toNat : ℤ) * 5 ^ k = 1 := by
          rw [Int.toNat_of_nonneg (by omega), ← zpow_add₀ (by norm_num), neg_add_cancel, zpow_zero]
        rw [rat_of_not_negative rfl, Nat.cast_mul, Nat.pow_eq, Nat.cast_pow, Nat.cast_ofNat, hten,
          ← zpow_natCast]
        calc (n : ℚ) * 5 ^ ((-k).toNat : ℤ) * (2 ^ k * 5 ^ k)
            = n * 2 ^ k * (5 ^ ((-k).toNat : ℤ) * 5 ^ k) := by ring
          _ = n * 2 ^ k := by rw [hfive, mul_one]

/-! ### The nearest binary number -/

theorem div_le_roundDiv (n d : ℕ) : n / d ≤ roundDiv n d := by
  unfold roundDiv
  dsimp only
  split
  · exact Nat.le_succ _
  · exact le_rfl

/-- Rounding goes up by half a unit at most. -/
theorem roundDiv_mul_le {d : ℕ} (n : ℕ) : 2 * (roundDiv n d * d) ≤ 2 * n + d := by
  have hdiv := Nat.div_add_mod n d
  have hcomm : n / d * d = d * (n / d) := Nat.mul_comm _ _
  unfold roundDiv
  dsimp only
  split
  · rename_i h
    rw [Nat.add_mul, hcomm]
    omega
  · rw [hcomm]
    omega

/-- The last bit of a number below `2 ^ a`, divided by one from `2 ^ b` on. -/
theorem unitExponent_le {n d a b : ℕ} (hn : n ≠ 0) (hlt : n < 2 ^ a) (hd : 2 ^ b ≤ d) :
    unitExponent n d ≤ max ((a : ℤ) - b - 53) (-1074) := by
  have ha := (Nat.log2_lt hn).mpr hlt
  have hdpos : d ≠ 0 := by
    have := Nat.two_pow_pos b
    omega
  have hb := (Nat.le_log2 hdpos).mpr hd
  unfold unitExponent
  refine max_le_max ?_ le_rfl
  split <;> omega

/-- A number far enough below `2 ^ 53` times the divisor is divided to a multiple of a small power
of two, which is next to the quotient. -/
theorem exists_nearest {n d a b k₀ : ℕ} (hlt : n < 2 ^ a) (hd : 2 ^ b ≤ d)
    (hroom : a + k₀ ≤ b + 53) (hk₀ : k₀ ≤ 1074) :
    ∃ (m : ℕ) (e : ℤ) (q k : ℕ), nearest false n d = .finite false m e ∧ k₀ ≤ k ∧
      (m : ℚ) * 2 ^ e = q / 2 ^ k ∧ n * 2 ^ k / d ≤ q ∧ 2 * (q * d) ≤ 2 * (n * 2 ^ k) + d := by
  by_cases hn : n = 0
  · refine ⟨0, -1074, 0, k₀, by rw [nearest, if_pos hn], le_rfl, by simp, by simp [hn], by simp⟩
  have hunit := unitExponent_le hn hlt hd
  generalize he : unitExponent n d = e at hunit
  obtain ⟨k, rfl⟩ : ∃ k : ℕ, e = -k := ⟨e.natAbs, by omega⟩
  have hzero : (-(k : ℤ)).toNat = 0 := by omega
  have hpow : (2 : ℚ) ^ (-(k : ℤ)) = (2 ^ k)⁻¹ := by rw [zpow_neg, zpow_natCast]
  have hnearest : nearest false n d =
      if roundDiv (n * 2 ^ k) d = 2 ^ 53 then .finite false (2 ^ 52) (-k + 1)
      else .finite false (roundDiv (n * 2 ^ k) d) (-k) := by
    unfold nearest
    rw [if_neg hn, he]
    simp only [neg_neg, Int.toNat_natCast, hzero, Nat.pow_eq, pow_zero, mul_one]
    split
    · exact if_neg (by omega)
    · exact if_neg (by omega)
  have hvalue : (roundDiv (n * 2 ^ k) d : ℚ) * 2 ^ (-(k : ℤ)) = roundDiv (n * 2 ^ k) d / 2 ^ k := by
    rw [hpow, div_eq_mul_inv]
  have hk : k₀ ≤ k := by omega
  by_cases hcarry : roundDiv (n * 2 ^ k) d = 2 ^ 53
  · rw [if_pos hcarry] at hnearest
    refine ⟨_, _, roundDiv (n * 2 ^ k) d, k, hnearest, hk, ?_, div_le_roundDiv _ _,
      roundDiv_mul_le _⟩
    rw [← hvalue, hcarry, zpow_add_one₀ two_ne_zero]
    push_cast
    ring
  · rw [if_neg hcarry] at hnearest
    exact ⟨_, _, _, k, hnearest, hk, hvalue, div_le_roundDiv _ _, roundDiv_mul_le _⟩

end Binary64

namespace Stamp

/-- The stamp says which instant it means, and its seconds since the epoch are counted by 32 bits:
it lies between 1970 and 2106. -/
structure IsCountable (t : Stamp) : Prop where
  offset : t.offset.isSome = true
  start : 0 ≤ t.epochMicros
  stop : t.epochMicros < 2 ^ 32 * 1000000

/-- A quotient by a million that is rounded to a multiple of a small power of two is before a whole
number just if it was before it. -/
theorem rounded_lt_iff {n q k : ℕ} (hk : 20 ≤ k) (hlow : n * 2 ^ k / 1000000 ≤ q)
    (hhigh : 2 * (q * 1000000) ≤ 2 * (n * 2 ^ k) + 1000000) (i : ℤ) :
    (q : ℤ) < i * 2 ^ k ↔ (n : ℤ) < i * 1000000 := by
  have hmargin : (2 : ℤ) ^ 20 ≤ 2 ^ k := by exact_mod_cast Nat.pow_le_pow_right (by decide) hk
  have hfloor : (n : ℤ) * 2 ^ k < (q + 1) * 1000000 := by
    have := Nat.lt_succ_of_le hlow
    rw [Nat.div_lt_iff_lt_mul (by decide)] at this
    exact_mod_cast this
  have hceil : 2 * ((q : ℤ) * 1000000) ≤ 2 * (n * 2 ^ k) + 1000000 := by exact_mod_cast hhigh
  generalize (2 : ℤ) ^ k = unit at hmargin hfloor hceil ⊢
  constructor
  · intro h
    by_contra hn
    have : i * 1000000 * unit ≤ n * unit :=
      mul_le_mul_of_nonneg_right (not_lt.mp hn) (by omega)
    nlinarith
  · intro h
    have : (n + 1) * unit ≤ i * 1000000 * unit := mul_le_mul_of_nonneg_right h (by omega)
    nlinarith

/-- Its measured seconds are before a whole second just if the stamp is. -/
theorem order_measured {t : Stamp} (h : t.IsCountable) : ∃ x, t.measured? = some x ∧
    ∀ i : ℤ, Decimal.Extended.order? (.finite (Decimal.ofInt i)) x.exact = some .gt ↔
      t.epochMicros < i * 1000000 := by
  have hstart := h.start
  have hstop := h.stop
  obtain ⟨n, hn⟩ : ∃ n : ℕ, t.epochMicros = n := ⟨t.epochMicros.toNat, by omega⟩
  have hmeasured : t.measured? = some (Binary64.nearest false n 1000000) := by
    have hpositive : decide ((n : ℤ) < 0) = false := decide_eq_false (by omega)
    unfold measured? isMeasurable
    rw [h.offset, Bool.true_or, if_pos rfl, hn, hpositive, Int.natAbs_natCast]
  have hlt : n < 2 ^ 52 := by omega
  obtain ⟨m, e, q, k, hnearest, hk, hvalue, hlow, hhigh⟩ := Binary64.exists_nearest hlt
    (by decide : 2 ^ 19 ≤ 1000000) (by decide : 52 + 20 ≤ 19 + 53) (by decide)
  refine ⟨_, hmeasured, fun i => ?_⟩
  have hpos : (0 : ℚ) < 2 ^ k := by positivity
  have hcast : (q : ℚ) < i * 2 ^ k ↔ (q : ℤ) < i * 2 ^ k := by exact_mod_cast Iff.rfl
  rw [hnearest, Binary64.exact, Decimal.Extended.order?, Decimal.order_eq_compare,
    Decimal.rat_ofInt, Binary64.rat_exactFinite, hvalue, Option.some_inj, compare_gt_iff_gt,
    div_lt_iff₀ hpos, hcast, rounded_lt_iff hk hlow hhigh, hn]

end Stamp
end LoanDesk
