import Mathlib.Data.Int.Log
import LoanDesk.Proofs.Decimal.Arith

/-
# Rounding as a function of the amount

What an operation gives depends on the amounts alone, not on the digits and exponents
that they are written with: sums, products, powers and quotients are the exact result
moved to the nearest number at the precision, a half to the even neighbour. A quotient
is rounded from a stand-in that is cut one digit behind the precision; its last digit is
no multiple of five unless the quotient is exact, so nothing between it and the exact
quotient is a half. Rounding keeps the order of amounts, and moves no number that has
room.

Key definitions: `halfEven`, `halfAway`, `Decimal.unitPlace`, `Decimal.nearest`,
`Decimal.toPlace`.
Key theorems: `Decimal.nearest_mono`, `Decimal.abs_nearest_sub_le`, `Decimal.fit_rat`,
`Decimal.mul_rat`, `Decimal.pow_rat`, `Decimal.add_rat`, `Decimal.div_rat`,
`Decimal.roundedAt_rat`, `Decimal.toPlace_mono`.
-/

namespace LoanDesk

/-! ### Whole numbers near a rational -/

/-- The nearest whole number, a half to the even neighbour. -/
def halfEven (x : ℚ) : ℤ :=
  if 2 * Int.fract x < 1 ∨ (2 * Int.fract x = 1 ∧ ⌊x⌋ % 2 = 0) then ⌊x⌋ else ⌊x⌋ + 1

/-- The nearest whole number, a half away from zero. -/
def halfAway (x : ℚ) : ℤ :=
  if 0 ≤ x then ⌊x + 1 / 2⌋ else -⌊-x + 1 / 2⌋

section whole

variable {x y : ℚ} {k : ℤ}

theorem halfEven_intCast (k : ℤ) : halfEven k = k := by
  simp [halfEven]

theorem abs_halfEven_sub_le (x : ℚ) : |(halfEven x : ℚ) - x| ≤ 1 / 2 := by
  have hx := Int.floor_add_fract x
  have h0 := Int.fract_nonneg x
  have h1 := Int.fract_lt_one x
  unfold halfEven
  split
  · next h =>
    have hle : 2 * Int.fract x ≤ 1 := h.elim le_of_lt fun h => h.1.le
    rw [abs_le]
    constructor <;> linarith
  · next h =>
    rw [not_or, not_lt] at h
    push_cast
    rw [abs_le]
    constructor <;> linarith

theorem abs_halfAway_sub_le (x : ℚ) : |(halfAway x : ℚ) - x| ≤ 1 / 2 := by
  have key : ∀ y : ℚ, |(⌊y + 1 / 2⌋ : ℚ) - y| ≤ 1 / 2 := by
    intro y
    have h1 := Int.floor_le (y + 1 / 2)
    have h2 := Int.lt_floor_add_one (y + 1 / 2)
    rw [abs_le]
    constructor <;> linarith
  unfold halfAway
  split
  · exact key x
  · have h := key (-x)
    rw [← abs_neg] at h
    convert h using 2
    push_cast
    ring

/-- A whole number that is off by less than a half is the one that is off by a half at most. -/
theorem whole_eq_of_abs_lt {m : ℤ} (hm : |(m : ℚ) - x| ≤ 1 / 2) (hk : |(k : ℚ) - x| < 1 / 2) :
    m = k := by
  rw [abs_le] at hm
  rw [abs_lt] at hk
  have h1 : (m : ℚ) < (k + 1 : ℤ) := by push_cast; linarith
  have h2 : (k : ℚ) < (m + 1 : ℤ) := by push_cast; linarith
  have h1' := Int.cast_lt.mp h1
  have h2' := Int.cast_lt.mp h2
  omega

/-- No whole number is nearer than one that is off by a half at most. -/
theorem whole_nearest {m : ℤ} (hm : |(m : ℚ) - x| ≤ 1 / 2) (k : ℤ) :
    |(m : ℚ) - x| ≤ |(k : ℚ) - x| := by
  by_cases h : |(k : ℚ) - x| < 1 / 2
  · rw [whole_eq_of_abs_lt hm h]
  · exact hm.trans (not_lt.mp h)

theorem halfEven_mono (h : x ≤ y) : halfEven x ≤ halfEven y := by
  have hfloor : ⌊x⌋ ≤ ⌊y⌋ := Int.floor_mono h
  have hup : halfEven x ≤ ⌊x⌋ + 1 := by unfold halfEven; split <;> omega
  have hlow : ⌊y⌋ ≤ halfEven y := by unfold halfEven; split <;> omega
  rcases hfloor.lt_or_eq with hlt | heq
  · omega
  · have hfract : Int.fract x ≤ Int.fract y := by
      unfold Int.fract
      rw [heq]
      linarith
    unfold halfEven
    rw [heq]
    split
    · split <;> omega
    · next hx =>
      rw [if_neg]
      rintro (hy | ⟨hy, heven⟩)
      · exact hx (.inl (by linarith))
      · rcases hfract.lt_or_eq with hf | hf
        · exact hx (.inl (by linarith))
        · exact hx (.inr ⟨by rw [hf, hy], heven⟩)

theorem halfEven_neg (x : ℚ) : halfEven (-x) = -halfEven x := by
  by_cases hz : Int.fract x = 0
  · obtain ⟨k, rfl⟩ := Int.fract_eq_zero_iff.mp hz
    rw [halfEven_intCast, ← Int.cast_neg, halfEven_intCast]
  · have hfract := Int.fract_neg hz
    have hfloor : ⌊-x⌋ = -⌊x⌋ - 1 := by
      have h1 := Int.floor_add_fract x
      have h2 := Int.floor_add_fract (-x)
      have : ((⌊-x⌋ : ℤ) : ℚ) = (-⌊x⌋ - 1 : ℤ) := by push_cast; linarith
      exact_mod_cast this
    unfold halfEven
    rw [hfract, hfloor]
    rcases lt_trichotomy (2 * Int.fract x) 1 with h | h | h
    · rw [if_neg (by rintro (h' | ⟨h', -⟩) <;> linarith), if_pos (.inl h)]
      omega
    · by_cases heven : ⌊x⌋ % 2 = 0
      · rw [if_neg (by rintro (h' | ⟨-, h'⟩); · linarith
                       · omega), if_pos (.inr ⟨h, heven⟩)]
        omega
      · rw [if_pos (.inr ⟨by linarith, by omega⟩),
          if_neg (by rintro (h' | ⟨-, h'⟩); · linarith
                     · exact heven h')]
        omega
    · rw [if_pos (.inl (by linarith)), if_neg (by rintro (h' | ⟨h', -⟩) <;> linarith)]
      omega

theorem halfAway_intCast (k : ℤ) : halfAway k = k := by
  have h (j : ℤ) : ⌊(j : ℚ) + 1 / 2⌋ = j := by
    rw [Int.floor_intCast_add]
    norm_num
  unfold halfAway
  split
  · exact h k
  · rw [← Int.cast_neg, h, neg_neg]

theorem halfAway_mono (h : x ≤ y) : halfAway x ≤ halfAway y := by
  unfold halfAway
  split
  · rw [if_pos (by linarith)]
    exact Int.floor_mono (by linarith)
  · next hx =>
    have hx0 : 0 ≤ ⌊-x + 1 / 2⌋ := Int.floor_nonneg.mpr (by linarith)
    split
    · next hy =>
      have hy0 : 0 ≤ ⌊y + 1 / 2⌋ := Int.floor_nonneg.mpr (by linarith)
      omega
    · have : ⌊-y + 1 / 2⌋ ≤ ⌊-x + 1 / 2⌋ := Int.floor_mono (by linarith)
      omega

theorem halfAway_neg (x : ℚ) : halfAway (-x) = -halfAway x := by
  rcases lt_trichotomy x 0 with h | rfl | h
  · unfold halfAway
    rw [if_pos (by linarith), if_neg (by linarith), neg_neg]
  · have h := halfAway_intCast 0
    rw [Int.cast_zero] at h
    rw [neg_zero, h, neg_zero]
  · unfold halfAway
    rw [if_neg (by linarith), if_pos h.le, neg_neg]

end whole

/-! ### Dropping digits rounds a quotient -/

section digits

variable {n m : ℕ}

theorem floor_natCast_div (n m : ℕ) : ⌊(n : ℚ) / m⌋ = ((n / m : ℕ) : ℤ) := by
  rw [Rat.floor_natCast_div_natCast, Int.natCast_div]

theorem mul_fract_natCast_div (hm : 0 < m) : (m : ℚ) * Int.fract ((n : ℚ) / m) = (n % m : ℕ) := by
  have hm' : (m : ℚ) ≠ 0 := by exact_mod_cast hm.ne'
  have hn : (m : ℚ) * (n / m : ℕ) + (n % m : ℕ) = n := by exact_mod_cast Nat.div_add_mod n m
  rw [Int.fract, floor_natCast_div, Int.cast_natCast, mul_sub, mul_div_cancel₀ _ hm']
  linarith

theorem halfEven_div (hm : 0 < m) : halfEven ((n : ℚ) / m) =
    if m < 2 * (n % m) ∨ (2 * (n % m) = m ∧ n / m % 2 = 1) then ((n / m : ℕ) : ℤ) + 1
    else (n / m : ℕ) := by
  have hm' : (0 : ℚ) < m := by exact_mod_cast hm
  have hf := mul_fract_natCast_div (n := n) hm
  have hlt : 2 * Int.fract ((n : ℚ) / m) < 1 ↔ 2 * (n % m) < m := by
    rw [← mul_lt_mul_iff_of_pos_left hm', mul_left_comm, hf, mul_one]
    exact_mod_cast Iff.rfl
  have heq : 2 * Int.fract ((n : ℚ) / m) = 1 ↔ 2 * (n % m) = m := by
    rw [← mul_right_inj' hm'.ne', mul_left_comm, hf, mul_one]
    exact_mod_cast Iff.rfl
  unfold halfEven
  simp only [hlt, heq, floor_natCast_div]
  split <;> split <;> omega

theorem halfAway_div (hm : 0 < m) : halfAway ((n : ℚ) / m) =
    if m ≤ 2 * (n % m) then ((n / m : ℕ) : ℤ) + 1 else (n / m : ℕ) := by
  have hm' : (0 : ℚ) < m := by exact_mod_cast hm
  have hf := mul_fract_natCast_div (n := n) hm
  have hx := Int.floor_add_fract ((n : ℚ) / m)
  rw [floor_natCast_div, Int.cast_natCast] at hx
  have h0 := Int.fract_nonneg ((n : ℚ) / m)
  have h1 := Int.fract_lt_one ((n : ℚ) / m)
  have hhalf : m ≤ 2 * (n % m) ↔ 1 ≤ 2 * Int.fract ((n : ℚ) / m) := by
    rw [← mul_le_mul_iff_of_pos_left hm', mul_left_comm, hf, mul_one]
    exact_mod_cast Iff.rfl
  unfold halfAway
  rw [if_pos (by positivity)]
  split
  · next h =>
    have := hhalf.mp h
    rw [Int.floor_eq_iff, Int.cast_add, Int.cast_natCast, Int.cast_one]
    constructor <;> linarith
  · next h =>
    have := not_le.mp (mt hhalf.mpr h)
    rw [Int.floor_eq_iff, Int.cast_natCast]
    constructor <;> linarith

/-- Less than a tenth is next to nothing. -/
theorem div_pow_lt_of_digits_lt {k : ℕ} (h : digitCount n < k) : (n : ℚ) / 10 ^ k < 1 / 10 := by
  rw [div_lt_iff₀ (by positivity)]
  have h1 : n * 10 < 10 ^ k := by
    calc n * 10 < 10 ^ digitCount n * 10 := by
          have := lt_pow_digitCount n
          omega
      _ = 10 ^ (digitCount n + 1) := (pow_succ ..).symm
      _ ≤ 10 ^ k := Nat.pow_le_pow_right (by norm_num) h
  have : (n : ℚ) * 10 < 10 ^ k := by exact_mod_cast h1
  linarith

/-- A number without its last digits is what a way of rounding makes of the quotient, if that is one
of the numbers next to it and goes up where the digits do. -/
theorem dropped_eq {round : ℚ → ℤ} {k : ℕ} {up : Prop} [Decidable up]
    (hround : |(round ((n : ℚ) / 10 ^ k) : ℚ) - n / 10 ^ k| ≤ 1 / 2)
    (hdiv : round ((n : ℚ) / (10 ^ k : ℕ)) =
      if up then ((n / 10 ^ k : ℕ) : ℤ) + 1 else (n / 10 ^ k : ℕ)) :
    ((if digitCount n < k then 0 else if up then n / 10 ^ k + 1 else n / 10 ^ k : ℕ) : ℤ) =
      round ((n : ℚ) / 10 ^ k) := by
  by_cases h : digitCount n < k
  · have hlt := div_pow_lt_of_digits_lt h
    have h0 : (0 : ℚ) ≤ n / 10 ^ k := by positivity
    rw [if_pos h, whole_eq_of_abs_lt (k := 0) hround]
    · rfl
    · rw [abs_lt]
      push_cast
      constructor <;> linarith
  · push_cast at hdiv
    rw [if_neg h, hdiv]
    split <;> push_cast <;> rfl

theorem dropHalfEven_eq (n k : ℕ) : (dropHalfEven n k : ℤ) = halfEven ((n : ℚ) / 10 ^ k) := by
  unfold dropHalfEven
  simp only [Nat.pow_eq]
  exact dropped_eq (abs_halfEven_sub_le _) (halfEven_div (by positivity))

theorem dropHalfUp_eq (n k : ℕ) : (dropHalfUp n k : ℤ) = halfAway ((n : ℚ) / 10 ^ k) := by
  unfold dropHalfUp
  simp only [Nat.pow_eq]
  exact dropped_eq (abs_halfAway_sub_le _) (halfAway_div (by positivity))

end digits

namespace Decimal

/-! ### The nearest number at a precision -/

/-- The place of the last digit that a precision keeps of an amount. -/
def unitPlace (p : ℕ) (x : ℚ) : ℤ := max (Int.log 10 |x| + 1 - p) (tiniest p)

/-- The number at a precision nearest to an amount, a half to the even neighbour. -/
def nearest (p : ℕ) (x : ℚ) : ℚ := halfEven (x / 10 ^ unitPlace p x) * 10 ^ unitPlace p x

/-- The number at a place nearest to an amount, a half away from zero. -/
def toPlace (place : ℤ) (x : ℚ) : ℚ := halfAway (x / 10 ^ place) * 10 ^ place

section nearest

variable {p : ℕ} {x y : ℚ} {k e f : ℤ}

theorem pow_log_le (hx : 0 < x) : (10 : ℚ) ^ Int.log 10 x ≤ x := by
  exact_mod_cast Int.zpow_log_le_self (b := 10) (by norm_num) hx

theorem le_log_iff (hx : 0 < x) : e ≤ Int.log 10 x ↔ (10 : ℚ) ^ e ≤ x := by
  have h := Int.zpow_le_iff_le_log (R := ℚ) (b := 10) (by norm_num) (x := e) hx
  rw [← h]
  norm_num

theorem log_lt_iff (hx : 0 < x) : Int.log 10 x < e ↔ x < (10 : ℚ) ^ e := by
  rw [← not_le, le_log_iff hx, not_le]

/-- A whole number of units is a whole number of finer ones. -/
theorem exists_finer (k : ℤ) (h : e ≤ f) : ∃ j : ℤ, (k : ℚ) * 10 ^ f = j * 10 ^ e := by
  refine ⟨k * 10 ^ (f - e).toNat, ?_⟩
  push_cast
  rw [mul_assoc, pow_toNat h]

theorem halfEven_units (k e : ℤ) : halfEven ((k : ℚ) * 10 ^ e / 10 ^ e) = k := by
  rw [mul_div_cancel_right₀ _ (zpow_pos (by norm_num) _).ne', halfEven_intCast]

theorem nearest_zero (p : ℕ) : nearest p 0 = 0 := by
  have h := halfEven_intCast 0
  rw [Int.cast_zero] at h
  rw [nearest, zero_div, h, Int.cast_zero, zero_mul]

theorem unitPlace_neg (p : ℕ) (x : ℚ) : unitPlace p (-x) = unitPlace p x := by
  rw [unitPlace, abs_neg, ← unitPlace]

theorem nearest_neg (p : ℕ) (x : ℚ) : nearest p (-x) = -nearest p x := by
  rw [nearest, unitPlace_neg, neg_div, halfEven_neg, Int.cast_neg, neg_mul, ← nearest]

/-- What is no coarser than the precision bounds the number that an amount is moved to. -/
theorem le_nearest (he : unitPlace p x ≤ e) (h : k * 10 ^ e ≤ x) : k * 10 ^ e ≤ nearest p x := by
  obtain ⟨j, hj⟩ := exists_finer k he
  have hunit : (0 : ℚ) < 10 ^ unitPlace p x := zpow_pos (by norm_num) _
  rw [hj] at h ⊢
  refine mul_le_mul_of_nonneg_right ?_ hunit.le
  rw [← halfEven_units j (unitPlace p x)]
  exact_mod_cast halfEven_mono (div_le_div_of_nonneg_right h hunit.le)

theorem nearest_le (he : unitPlace p x ≤ e) (h : x ≤ k * 10 ^ e) : nearest p x ≤ k * 10 ^ e := by
  have h' := le_nearest (p := p) (x := -x) (k := -k) (e := e) (by rwa [unitPlace_neg])
    (by push_cast; linarith)
  rw [nearest_neg] at h'
  push_cast at h'
  linarith

/-- An amount that is not finer than the precision is not moved. -/
theorem nearest_eq_self_of_le (he : unitPlace p x ≤ e) (h : x = k * 10 ^ e) : nearest p x = x := by
  rw [h] at he ⊢
  exact le_antisymm (nearest_le he le_rfl) (le_nearest he le_rfl)

theorem unitPlace_le (hx : x ≠ 0) (hlow : tiniest p ≤ e) (h : |x| < 10 ^ (e + p)) :
    unitPlace p x ≤ e := by
  have := (log_lt_iff (abs_pos.mpr hx)).mpr h
  unfold unitPlace
  omega

/-- An amount that has room is not moved. -/
theorem nearest_eq_self (hlow : tiniest p ≤ e) (hx : x = k * 10 ^ e) (h : |x| < 10 ^ (e + p)) :
    nearest p x = x := by
  by_cases h0 : x = 0
  · rw [h0, nearest_zero]
  · exact nearest_eq_self_of_le (unitPlace_le h0 hlow h) hx

/-- No number at the precision is nearer. -/
theorem abs_nearest_sub_le (he : unitPlace p x ≤ e) (k : ℤ) :
    |nearest p x - x| ≤ |k * 10 ^ e - x| := by
  obtain ⟨j, hj⟩ := exists_finer k he
  have hunit : (0 : ℚ) < 10 ^ unitPlace p x := zpow_pos (by norm_num) _
  have hnear := whole_nearest (abs_halfEven_sub_le (x / 10 ^ unitPlace p x)) j
  have h := mul_le_mul_of_nonneg_right hnear hunit.le
  have hsub (m : ℤ) : |(m : ℚ) - x / 10 ^ unitPlace p x| * 10 ^ unitPlace p x =
      |m * 10 ^ unitPlace p x - x| := by
    rw [← abs_of_pos hunit, ← abs_mul, abs_of_pos hunit, sub_mul, div_mul_cancel₀ _ hunit.ne']
  rw [hsub, hsub] at h
  rwa [hj]

theorem pow_unitPlace_le (hx : x ≠ 0) :
    (10 : ℚ) ^ unitPlace p x ≤ |x| * 10 ^ (1 - p : ℤ) + 10 ^ tiniest p := by
  have hlog := pow_log_le (abs_pos.mpr hx)
  have hunit : (0 : ℚ) < 10 ^ (1 - p : ℤ) := zpow_pos (by norm_num) _
  have htiny : (0 : ℚ) < 10 ^ tiniest p := zpow_pos (by norm_num) _
  have hstep : (10 : ℚ) ^ (Int.log 10 |x| + 1 - p) = 10 ^ Int.log 10 |x| * 10 ^ (1 - p : ℤ) := by
    rw [← zpow_add₀ (by norm_num)]
    congr 1
    ring
  unfold unitPlace
  rcases max_cases (Int.log 10 |x| + 1 - p) (tiniest p) with ⟨h, -⟩ | ⟨h, -⟩
  · rw [h, hstep]
    linarith [mul_le_mul_of_nonneg_right hlog hunit.le]
  · rw [h]
    linarith [mul_nonneg (abs_nonneg x) hunit.le]

/-- An amount is moved by half a unit of its last digit at most. -/
theorem nearest_error (p : ℕ) (x : ℚ) :
    |nearest p x - x| ≤ (|x| * 10 ^ (1 - p : ℤ) + 10 ^ tiniest p) / 2 := by
  by_cases hx : x = 0
  · rw [hx, nearest_zero, sub_zero, abs_zero]
    positivity
  · have hunit : (0 : ℚ) < 10 ^ unitPlace p x := zpow_pos (by norm_num) _
    have h := mul_le_mul_of_nonneg_right (abs_halfEven_sub_le (x / 10 ^ unitPlace p x)) hunit.le
    rw [← abs_of_pos hunit, ← abs_mul, abs_of_pos hunit, sub_mul, div_mul_cancel₀ _ hunit.ne'] at h
    have := pow_unitPlace_le (p := p) hx
    unfold nearest
    linarith

theorem nearest_nonneg (p : ℕ) (hx : 0 ≤ x) : 0 ≤ nearest p x := by
  have h := le_nearest (p := p) (x := x) (k := 0) le_rfl (by simpa using hx)
  simpa using h

theorem nearest_mono_pos (hp : 1 ≤ p) (hx : 0 < x) (h : x ≤ y) : nearest p x ≤ nearest p y := by
  have hy : 0 < y := hx.trans_le h
  have hlog : Int.log 10 x ≤ Int.log 10 y := Int.log_mono_right hx h
  have hplace : unitPlace p x ≤ unitPlace p y := by
    unfold unitPlace
    rw [abs_of_pos hx, abs_of_pos hy]
    omega
  rcases hplace.lt_or_eq with hlt | heq
  · -- the leading digit of the larger one lies between the two
    have hpos : tiniest p < Int.log 10 y + 1 - p := by
      unfold unitPlace at hlt
      rw [abs_of_pos hx, abs_of_pos hy] at hlt
      omega
    have hy' : unitPlace p y ≤ Int.log 10 y := by
      unfold unitPlace
      rw [abs_of_pos hy]
      omega
    have hxy : Int.log 10 x < Int.log 10 y := by
      unfold unitPlace at hlt
      rw [abs_of_pos hx, abs_of_pos hy] at hlt
      omega
    have hle : x ≤ (1 : ℤ) * 10 ^ Int.log 10 y := by
      rw [Int.cast_one, one_mul]
      exact ((log_lt_iff hx).mp hxy).le
    have hge : (1 : ℤ) * 10 ^ Int.log 10 y ≤ y := by
      rw [Int.cast_one, one_mul]
      exact pow_log_le hy
    exact (nearest_le (hlt.le.trans hy') hle).trans (le_nearest hy' hge)
  · unfold nearest
    rw [heq]
    have hunit : (0 : ℚ) < 10 ^ unitPlace p y := zpow_pos (by norm_num) _
    refine mul_le_mul_of_nonneg_right ?_ hunit.le
    exact_mod_cast halfEven_mono (div_le_div_of_nonneg_right h hunit.le)

/-- Rounding keeps the order of amounts. -/
theorem nearest_mono (hp : 1 ≤ p) (h : x ≤ y) : nearest p x ≤ nearest p y := by
  rcases lt_or_ge 0 x with hx | hx
  · exact nearest_mono_pos hp hx h
  · have hx' := nearest_nonneg p (neg_nonneg.mpr hx)
    rw [nearest_neg] at hx'
    rcases lt_or_ge y 0 with hy | hy
    · have := nearest_mono_pos hp (neg_pos.mpr hy) (neg_le_neg h)
      rw [nearest_neg, nearest_neg] at this
      linarith
    · linarith [nearest_nonneg p hy]

end nearest

/-! ### Rounding to a place -/

section toPlace

variable {place k : ℤ} {x y : ℚ}

theorem toPlace_mono (h : x ≤ y) : toPlace place x ≤ toPlace place y := by
  have hunit : (0 : ℚ) < 10 ^ place := zpow_pos (by norm_num) _
  refine mul_le_mul_of_nonneg_right ?_ hunit.le
  exact_mod_cast halfAway_mono (div_le_div_of_nonneg_right h hunit.le)

theorem toPlace_units (place k : ℤ) : toPlace place (k * 10 ^ place) = k * 10 ^ place := by
  rw [toPlace, mul_div_cancel_right₀ _ (zpow_pos (by norm_num) _).ne', halfAway_intCast]

theorem toPlace_neg (place : ℤ) (x : ℚ) : toPlace place (-x) = -toPlace place x := by
  rw [toPlace, neg_div, halfAway_neg, Int.cast_neg, neg_mul, ← toPlace]

end toPlace

/-! ### What the operations give -/

section operations

variable {p : ℕ} {a b d r : Decimal}

theorem log_abs_rat (h : 0 < d.coefficient) : Int.log 10 |d.rat| = d.adjusted := by
  have hpos : 0 < |d.rat| := (zpow_pos (by norm_num) _).trans_le (pow_le_abs_rat h)
  have h1 := (log_lt_iff hpos).mpr d.abs_rat_lt_pow
  have h2 := (le_log_iff hpos).mpr (pow_le_abs_rat h)
  omega

theorem unitPlace_rat (h : 0 < d.coefficient) : unitPlace p d.rat = lastPlace p d := by
  rw [unitPlace, lastPlace, log_abs_rat h, adjusted]
  congr 1
  ring

theorem rat_eq_units (d : Decimal) : d.rat = d.signed * 10 ^ d.exponent := rfl

/-- The coefficient in units of a coarser place. -/
theorem coefficient_div {e : ℤ} (h : d.exponent ≤ e) :
    (d.coefficient : ℚ) * 10 ^ d.exponent / 10 ^ e =
      d.coefficient / 10 ^ (e - d.exponent).toNat := by
  have hunit : (0 : ℚ) < 10 ^ d.exponent := zpow_pos (by norm_num) _
  rw [← pow_toNat h, mul_div_mul_right _ _ hunit.ne']

theorem shortened_rat {least : ℤ} (hp : 1 ≤ p) (h : d.exponent + d.digits - p ≤ least)
    (hle : d.exponent ≤ least) :
    (shortened p d least).rat = halfEven (d.rat / 10 ^ least) * 10 ^ least := by
  have hvalue := shortened_value hp h
  have hdrop : ((dropHalfEven d.coefficient (least - d.exponent).toNat : ℕ) : ℚ) =
      halfEven ((d.coefficient : ℚ) * 10 ^ d.exponent / 10 ^ least) := by
    rw [coefficient_div hle, ← dropHalfEven_eq, Int.cast_natCast]
  rw [hdrop] at hvalue
  cases hn : d.negative with
  | false =>
    rw [rat_of_not_negative (shortened_negative.trans hn), rat_of_not_negative hn, hvalue]
  | true =>
    rw [rat_of_negative (shortened_negative.trans hn), rat_of_negative hn, hvalue, neg_div,
      halfEven_neg, Int.cast_neg, neg_mul]

/-- Fitting a number to a precision moves its amount to the nearest one. -/
theorem fit_rat (hp : 1 ≤ p) (h : fit p d = .ok r) : r.rat = nearest p d.rat := by
  rcases Nat.eq_zero_or_pos d.coefficient with hz | hz
  · rw [fit_of_isZero hz] at h
    obtain rfl := Except.ok.inj h
    rw [rat_eq_zero_iff.mpr hz, nearest_zero]
    exact rat_eq_zero_iff.mpr rfl
  · unfold fit at h
    rw [isZero_eq_false.mpr hz, if_neg (by simp)] at h
    split at h
    · cases h
    · simp only at h
      split at h
      · next hlt =>
        split at h
        · cases h
        · obtain rfl := Except.ok.inj h
          rw [nearest, unitPlace_rat hz]
          exact shortened_rat hp (le_max_left _ _) hlt.le
      · next hge =>
        obtain rfl := Except.ok.inj h
        exact (nearest_eq_self_of_le ((unitPlace_rat hz).le.trans (not_lt.mp hge))
          d.rat_eq_units).symm

theorem mul_rat (hp : 1 ≤ p) (h : mul p a b = .ok r) : r.rat = nearest p (a.rat * b.rat) := by
  rw [← rat_exactProduct]
  exact fit_rat hp h

theorem pow_rat {n : ℕ} (hp : 1 ≤ p) (hd : 0 < d.rat) (hroom : d.digits * n ≤ powerRoom)
    (h : pow p d n = .ok r) : r.rat = nearest p (d.rat ^ n) := by
  obtain ⟨hneg, hcoeff⟩ := rat_pos_iff.mp hd
  rw [pow_eq_fit hcoeff hroom] at h
  rw [fit_rat hp h, rat_exactPower hneg]

/-- A sum of numbers whose leading digits are about as far apart as the precision at most. -/
theorem add_rat (hp : 1 ≤ p) (hclose : a.rat ≠ 0 → b.rat ≠ 0 →
    a.adjusted - p - 1 ≤ b.adjusted ∧ b.adjusted - p - 1 ≤ a.adjusted) (h : add p a b = .ok r) :
    r.rat = nearest p (a.rat + b.rat) := by
  rcases Nat.eq_zero_or_pos a.coefficient with ha | ha <;>
    rcases Nat.eq_zero_or_pos b.coefficient with hb | hb
  · unfold add at h
    rw [isZero_iff.mpr ha, isZero_iff.mpr hb, Bool.and_self, if_pos rfl] at h
    rw [fit_rat hp h, rat_eq_zero_iff.mpr ha, rat_eq_zero_iff.mpr hb, zero_add,
      rat_eq_zero_iff.mpr rfl]
  · unfold add at h
    rw [isZero_iff.mpr ha, isZero_eq_false.mpr hb, if_neg (by simp), if_pos rfl] at h
    rw [fit_rat hp h, rat_besideZero, rat_eq_zero_iff.mpr ha, zero_add]
  · unfold add at h
    rw [isZero_iff.mpr hb, isZero_eq_false.mpr ha, if_neg (by simp), if_neg (by simp),
      if_pos rfl] at h
    rw [fit_rat hp h, rat_besideZero, rat_eq_zero_iff.mpr hb, add_zero]
  · obtain ⟨hab, hba⟩ := hclose (mt rat_eq_zero_iff.mp ha.ne') (mt rat_eq_zero_iff.mp hb.ne')
    rw [add_eq_fit ha hb hab hba] at h
    rw [fit_rat hp h, rat_exactSum]

theorem atPlace_rat {place : ℤ} : (d.atPlace place).rat = toPlace place d.rat := by
  by_cases h : place ≤ d.exponent
  · obtain ⟨j, hj⟩ := exists_finer d.signed h
    have hr : (d.atPlace place).rat = d.rat := by
      have hc : (d.atPlace place).coefficient = d.coefficientAt place := by
        unfold atPlace
        rw [if_pos h]
      have := rat_sub_rat (atPlace_negative : (d.atPlace place).negative = d.negative)
      rw [hc, atPlace_exponent, coefficientAt_mul h, abs_rat, sub_self, abs_zero] at this
      exact sub_eq_zero.mp (abs_eq_zero.mp this)
    rw [hr, rat_eq_units, hj, toPlace_units]
  · have hc : (d.atPlace place).coefficient =
        dropHalfUp d.coefficient (place - d.exponent).toNat := by
      unfold atPlace
      rw [if_neg h]
    have hdrop : ((d.atPlace place).coefficient : ℚ) =
        halfAway ((d.coefficient : ℚ) * 10 ^ d.exponent / 10 ^ place) := by
      rw [hc, coefficient_div (not_le.mp h).le, ← dropHalfUp_eq, Int.cast_natCast]
    cases hn : d.negative with
    | false =>
      rw [rat_of_not_negative (atPlace_negative.trans hn), rat_of_not_negative hn, hdrop,
        atPlace_exponent, toPlace]
    | true =>
      rw [rat_of_negative (atPlace_negative.trans hn), rat_of_negative hn, hdrop,
        atPlace_exponent, toPlace_neg, toPlace]

/-- Rounding to a place moves an amount to the nearest one there. -/
theorem roundedAt_rat {place : ℤ} (h : d.roundedAt p place = .ok r) :
    r.rat = toPlace place d.rat := by
  rcases roundedAt_eq h with rfl | ⟨hz, rfl⟩
  · exact atPlace_rat
  · have h0 := toPlace_units place 0
    rw [Int.cast_zero, zero_mul] at h0
    rw [rat_eq_zero_iff.mpr hz, h0]
    exact rat_eq_zero_iff.mpr rfl

end operations

/-! ### Quotients -/

section quotient

variable {p n m : ℕ} {a b r : Decimal}

/-- Among the multiples of five the same lie below the cut quotient as below the exact one. -/
theorem le_cutQuotient_iff (k : ℤ) :
    ((5 * k : ℤ) : ℚ) ≤ cutQuotient n m ↔ ((5 * k : ℤ) : ℚ) ≤ n / m := by
  rw [← Int.le_floor (a := (n : ℚ) / m), floor_natCast_div, ← Int.cast_natCast (cutQuotient n m),
    Int.cast_le]
  unfold cutQuotient
  split <;> omega

theorem cutQuotient_ne (h : n % m ≠ 0) (k : ℤ) : ((5 * k : ℤ) : ℚ) ≠ cutQuotient n m := by
  rw [← Int.cast_natCast (cutQuotient n m), Ne, Int.cast_inj]
  unfold cutQuotient
  split <;> omega

theorem natCast_div_ne (hm : 0 < m) (h : n % m ≠ 0) (k : ℤ) : (k : ℚ) ≠ n / m := by
  have hm' : (m : ℚ) ≠ 0 := by exact_mod_cast hm.ne'
  intro heq
  rw [eq_div_iff hm'] at heq
  have hmul : k * (m : ℤ) = n := by exact_mod_cast heq
  exact h (Nat.mod_eq_zero_of_dvd (by exact_mod_cast Dvd.intro_left k hmul))

theorem exists_five_mul {j : ℤ} (h : 0 < j) : ∃ k : ℤ, (10 : ℚ) ^ j = 2 * (5 * k : ℤ) := by
  obtain ⟨i, rfl⟩ : ∃ i : ℕ, j = (i : ℤ) + 1 := ⟨(j - 1).toNat, by omega⟩
  refine ⟨10 ^ i, ?_⟩
  rw [zpow_add_one₀ (by norm_num), zpow_natCast]
  push_cast
  ring

/-- So the leading digit is in the same place, -/
theorem log_cutQuotient (hx : 1 ≤ (n : ℚ) / m) (hc : 1 ≤ cutQuotient n m) (f : ℤ) :
    Int.log 10 ((cutQuotient n m : ℚ) * 10 ^ f) = Int.log 10 ((n : ℚ) / m * 10 ^ f) := by
  have hunit : (0 : ℚ) < 10 ^ f := zpow_pos (by norm_num) _
  have hc' : (1 : ℚ) ≤ cutQuotient n m := by exact_mod_cast hc
  have hiff (e : ℤ) : (10 : ℚ) ^ e ≤ cutQuotient n m * 10 ^ f ↔ (10 : ℚ) ^ e ≤ n / m * 10 ^ f := by
    have hstep : (10 : ℚ) ^ e = 10 ^ (e - f) * 10 ^ f := by
      rw [← zpow_add₀ (by norm_num), sub_add_cancel]
    rw [hstep, mul_le_mul_iff_of_pos_right hunit, mul_le_mul_iff_of_pos_right hunit]
    rcases lt_or_ge 0 (e - f) with h | h
    · obtain ⟨k, hk⟩ := exists_five_mul h
      have := le_cutQuotient_iff (n := n) (m := m) (2 * k)
      rw [hk, show (2 : ℚ) * (5 * k : ℤ) = (5 * (2 * k) : ℤ) by push_cast; ring]
      exact this
    · have hone : (10 : ℚ) ^ (e - f) ≤ 1 := zpow_le_one_of_nonpos₀ (by norm_num) h
      exact iff_of_true (hone.trans hc') (hone.trans hx)
  refine eq_of_forall_le_iff fun e => ?_
  rw [le_log_iff (by positivity), le_log_iff (mul_pos (by linarith) hunit), hiff]

/-- and so is every half unit that is not finer than ten units of the cut quotient. -/
theorem halfEven_cutQuotient (hm : 0 < m) {j : ℤ} (hj : 0 < j) :
    halfEven ((cutQuotient n m : ℚ) / 10 ^ j) = halfEven ((n : ℚ) / m / 10 ^ j) := by
  by_cases h : n % m = 0
  · have hcut : cutQuotient n m = n / m := by simp [cutQuotient, h]
    rw [hcut, Nat.cast_div (Nat.dvd_of_mod_eq_zero h) (by exact_mod_cast hm.ne')]
  · obtain ⟨k, hk⟩ := exists_five_mul hj
    have hunit : (0 : ℚ) < 10 ^ j := zpow_pos (by norm_num) _
    have hnear := abs_halfEven_sub_le ((n : ℚ) / m / 10 ^ j)
    generalize halfEven ((n : ℚ) / m / 10 ^ j) = z at hnear ⊢
    -- the halves around the nearest unit are multiples of five
    have hlow : ((5 * (k * (2 * z - 1)) : ℤ) : ℚ) = ((z : ℚ) - 1 / 2) * 10 ^ j := by
      rw [hk]
      push_cast
      ring
    have hhigh : ((5 * (k * (2 * z + 1)) : ℤ) : ℚ) = ((z : ℚ) + 1 / 2) * 10 ^ j := by
      rw [hk]
      push_cast
      ring
    rw [abs_le] at hnear
    have h1 : ((z : ℚ) - 1 / 2) * 10 ^ j ≤ n / m := by
      rw [← le_div_iff₀ hunit]
      linarith
    have h2 : (n : ℚ) / m ≤ ((z : ℚ) + 1 / 2) * 10 ^ j := by
      rw [← div_le_iff₀ hunit]
      linarith
    rw [← hlow] at h1
    rw [← hhigh] at h2
    have h1' := lt_of_le_of_ne ((le_cutQuotient_iff _).mpr h1) (cutQuotient_ne h _)
    have h2' := mt (le_cutQuotient_iff _).mp (not_le.mpr (lt_of_le_of_ne h2
      (natCast_div_ne hm h _).symm))
    rw [hlow, ← lt_div_iff₀ hunit] at h1'
    rw [not_le, hhigh, ← div_lt_iff₀ hunit] at h2'
    refine whole_eq_of_abs_lt (abs_halfEven_sub_le _) ?_
    rw [abs_lt]
    constructor <;> linarith

/-- The stand-in for a quotient is moved to the same number as the exact one. -/
theorem nearest_cutQuotient (hp : 1 ≤ p) (hm : 0 < m) (hx : (10 : ℚ) ^ (p : ℤ) ≤ n / m) (f : ℤ) :
    nearest p (cutQuotient n m * 10 ^ f) = nearest p (n / m * 10 ^ f) := by
  have hunit : (0 : ℚ) < 10 ^ f := zpow_pos (by norm_num) _
  have hx1 : (1 : ℚ) ≤ n / m := (one_le_zpow₀ (by norm_num) (by omega)).trans hx
  have hc1 : 1 ≤ cutQuotient n m := by
    have : 1 ≤ n / m := by
      have := Int.le_floor.mpr (by exact_mod_cast hx1 : ((1 : ℤ) : ℚ) ≤ n / m)
      rw [floor_natCast_div] at this
      omega
    unfold cutQuotient
    split <;> omega
  have hxpos : 0 < (n : ℚ) / m * 10 ^ f := by positivity
  have hcpos : 0 < (cutQuotient n m : ℚ) * 10 ^ f := by
    have : (0 : ℚ) < cutQuotient n m := by exact_mod_cast hc1
    positivity
  have hplace : unitPlace p (cutQuotient n m * 10 ^ f) = unitPlace p (n / m * 10 ^ f) := by
    unfold unitPlace
    rw [abs_of_pos hxpos, abs_of_pos hcpos, log_cutQuotient hx1 hc1]
  have hlog : f + p ≤ Int.log 10 ((n : ℚ) / m * 10 ^ f) := by
    rw [le_log_iff hxpos, add_comm, zpow_add₀ (by norm_num)]
    exact mul_le_mul_of_nonneg_right hx hunit.le
  have hj : 0 < unitPlace p (n / m * 10 ^ f) - f := by
    unfold unitPlace
    rw [abs_of_pos hxpos]
    omega
  have hstep (y : ℚ) : y * 10 ^ f / 10 ^ unitPlace p (n / m * 10 ^ f) =
      y / 10 ^ (unitPlace p (n / m * 10 ^ f) - f) := by
    rw [zpow_sub₀ (by norm_num), div_div_eq_mul_div]
  unfold nearest
  rw [hplace, hstep, hstep, halfEven_cutQuotient hm hj]

theorem div_rat (hp : 1 ≤ p) (h : div p a b = .ok r) : r.rat = nearest p (a.rat / b.rat) := by
  rcases Nat.eq_zero_or_pos b.coefficient with hb | hb
  · unfold div at h
    rw [isZero_iff.mpr hb, if_pos rfl] at h
    cases h
  · rcases Nat.eq_zero_or_pos a.coefficient with ha | ha
    · rw [div_rat_of_isZero ha h, rat_eq_zero_iff.mpr ha, zero_div, nearest_zero]
    · rw [div_eq_fit ha hb] at h
      obtain ⟨σ, hσ, hq, hab⟩ := quotient_sign (p := p) (a := a) hb
      have hsame := nearest_cutQuotient hp (shiftedDivisor_pos p a hb) (pow_le_shifted_div ha hb)
        (a.exponent - b.exponent - quotientShift p a b)
      rw [fit_rat hp h, hq, hab]
      rcases eq_or_eq_neg_of_abs_eq hσ with rfl | rfl
      · rw [one_mul, one_mul, hsame]
      · rw [neg_one_mul, neg_one_mul, nearest_neg, nearest_neg, hsame]

end quotient

end Decimal
end LoanDesk
