import Mathlib.Algebra.Order.Field.Rat
import Mathlib.Algebra.Order.Floor.Ring
import Mathlib.Data.Int.Log
import Mathlib.Data.Rat.Floor
import Mathlib.Tactic.Linarith
import Mathlib.Tactic.NormNum
import Mathlib.Tactic.Positivity
import Mathlib.Tactic.Ring

/-!
# Rounding to binary64

What an operation on floats with 64 bits returns, as a rational: the exact result, rounded to the
nearest multiple of its unit in the last place, and of two to the even one (`Binary64.float64`).
The unit is that of 53 significant bits, or the least there is.

## What is here

* `Binary64.float64_mono`: rounding keeps the order, so what is known to be on one side of a number
  that is a float stays there.
* `Binary64.float64_natCast`: an integer below `2 ^ 53` is a float.
* `Binary64.abs_float64_sub_le`: below `2 ^ 11` the result is off by `2 ^ -43` at most.

## What is left out

Infinities, so what is rounded must not exceed the largest float, and the sign of a zero.
-/

set_option autoImplicit false

namespace Binary64

/-- The nearest integer, and of two the even one. -/
def roundHalfEven (x : ℚ) : ℤ :=
  if Int.fract x < 1 / 2 then ⌊x⌋
  else if 1 / 2 < Int.fract x then ⌊x⌋ + 1
  else if ⌊x⌋ % 2 = 0 then ⌊x⌋ else ⌊x⌋ + 1

/-- The exponent of a positive number: subnormal ones share the least. -/
def exponent (x : ℚ) : ℤ := max (Int.log 2 x) (-1022)

/-- The unit in the last place. -/
def ulp (x : ℚ) : ℚ := 2 ^ (exponent x - 52)

/-- The nearest float to a number that is not negative. -/
def nearest (x : ℚ) : ℚ := roundHalfEven (x / ulp x) * ulp x

def float64 (x : ℚ) : ℚ := if x < 0 then -nearest (-x) else nearest x

variable {x y : ℚ}

/-! ## To an integer -/

theorem floor_le_roundHalfEven (x : ℚ) : ⌊x⌋ ≤ roundHalfEven x := by
  rw [roundHalfEven]
  split_ifs
  · exact le_refl _
  · omega
  · exact le_refl _
  · omega

theorem roundHalfEven_le (x : ℚ) : roundHalfEven x ≤ ⌊x⌋ + 1 := by
  rw [roundHalfEven]
  split_ifs
  · omega
  · exact le_refl _
  · omega
  · exact le_refl _

@[simp] theorem roundHalfEven_intCast (n : ℤ) : roundHalfEven n = n := by
  simp [roundHalfEven]

theorem roundHalfEven_two_pow (n : ℕ) : roundHalfEven (2 ^ n) = 2 ^ n := by
  have hround := roundHalfEven_intCast (2 ^ n)
  rwa [Int.cast_pow, Int.cast_ofNat] at hround

theorem roundHalfEven_mono (h : x ≤ y) : roundHalfEven x ≤ roundHalfEven y := by
  obtain hfloor | hfloor := (Int.floor_mono h).lt_or_eq
  · calc roundHalfEven x ≤ ⌊x⌋ + 1 := roundHalfEven_le x
      _ ≤ ⌊y⌋ := hfloor
      _ ≤ roundHalfEven y := floor_le_roundHalfEven y
  · -- between two integers the fractions decide
    have hfract : Int.fract x ≤ Int.fract y := by
      rw [Int.fract, Int.fract, hfloor]
      linarith
    rw [roundHalfEven, roundHalfEven, hfloor]
    split_ifs
    all_goals first
      | omega
      | (exfalso; linarith)

theorem abs_roundHalfEven_sub_le (x : ℚ) : |(roundHalfEven x : ℚ) - x| ≤ 1 / 2 := by
  have hx := Int.floor_add_fract x
  have hnonneg := Int.fract_nonneg x
  have hlt := Int.fract_lt_one x
  rw [abs_le, roundHalfEven]
  split_ifs
  · constructor
    · linarith
    · linarith
  · push_cast
    constructor
    · linarith
    · linarith
  · constructor
    · linarith
    · linarith
  · push_cast
    constructor
    · linarith
    · linarith

/-! ## To a float -/

theorem ulp_pos (x : ℚ) : 0 < ulp x := zpow_pos (by norm_num) _

theorem exponent_mono (hx : 0 < x) (h : x ≤ y) : exponent x ≤ exponent y :=
  max_le_max (Int.log_mono_right hx h) (le_refl _)

theorem two_zpow_mul_ulp (x : ℚ) (n : ℕ) : (2 : ℚ) ^ n * ulp x = 2 ^ (exponent x - 52 + n) := by
  rw [ulp, zpow_add₀ two_ne_zero, zpow_natCast, mul_comm]

theorem div_ulp_lt (x : ℚ) : x / ulp x < 2 ^ 53 := by
  rw [div_lt_iff₀ (ulp_pos x), two_zpow_mul_ulp]
  calc x < 2 ^ (Int.log 2 x + 1) := by exact_mod_cast Int.lt_zpow_succ_log_self one_lt_two x
    _ ≤ 2 ^ (exponent x - 52 + (53 : ℕ)) := by
      refine zpow_le_zpow_right₀ one_le_two ?_
      have hle : Int.log 2 x ≤ exponent x := le_max_left _ _
      push_cast
      linarith

/-- A number that is not subnormal has 53 significant bits. -/
theorem le_div_ulp (hx : 0 < x) (hnormal : -1022 < exponent x) : 2 ^ 52 ≤ x / ulp x := by
  have hlog : exponent x = Int.log 2 x := by
    rw [exponent] at hnormal ⊢
    exact max_eq_left ((lt_max_iff.1 hnormal).resolve_right (lt_irrefl _)).le
  rw [le_div_iff₀ (ulp_pos x), two_zpow_mul_ulp, hlog]
  calc (2 : ℚ) ^ (Int.log 2 x - 52 + (52 : ℕ)) = 2 ^ Int.log 2 x := by
        congr 1
        push_cast
        ring
    _ ≤ x := by exact_mod_cast Int.zpow_log_le_self one_lt_two hx

@[simp] theorem nearest_zero : nearest 0 = 0 := by
  have hround := roundHalfEven_intCast 0
  rw [Int.cast_zero] at hround
  rw [nearest, zero_div, hround, Int.cast_zero, zero_mul]

theorem nearest_nonneg (hx : 0 ≤ x) : 0 ≤ nearest x := by
  have hround := roundHalfEven_mono (div_nonneg hx (ulp_pos x).le)
  rw [← Int.cast_zero, roundHalfEven_intCast] at hround
  exact mul_nonneg (Int.cast_nonneg hround) (ulp_pos x).le

theorem nearest_le (x : ℚ) : nearest x ≤ 2 ^ (exponent x + 1) := by
  have hround := roundHalfEven_mono (div_ulp_lt x).le
  rw [roundHalfEven_two_pow] at hround
  have hcast : (roundHalfEven (x / ulp x) : ℚ) ≤ 2 ^ 53 := by exact_mod_cast hround
  calc nearest x ≤ 2 ^ 53 * ulp x := mul_le_mul_of_nonneg_right hcast (ulp_pos x).le
    _ = 2 ^ (exponent x + 1) := by
      rw [two_zpow_mul_ulp]
      congr 1
      push_cast
      ring

theorem le_nearest (hx : 0 < x) (hnormal : -1022 < exponent x) : 2 ^ exponent x ≤ nearest x := by
  have hround := roundHalfEven_mono (le_div_ulp hx hnormal)
  rw [roundHalfEven_two_pow] at hround
  have hcast : 2 ^ 52 ≤ (roundHalfEven (x / ulp x) : ℚ) := by exact_mod_cast hround
  calc (2 : ℚ) ^ exponent x = 2 ^ 52 * ulp x := by
        rw [two_zpow_mul_ulp]
        congr 1
        push_cast
        ring
    _ ≤ nearest x := mul_le_mul_of_nonneg_right hcast (ulp_pos x).le

theorem nearest_mono (hx : 0 ≤ x) (h : x ≤ y) : nearest x ≤ nearest y := by
  obtain rfl | hpos := hx.eq_or_lt
  · rw [nearest_zero]
    exact nearest_nonneg h
  obtain hless | hsame := (exponent_mono hpos h).lt_or_eq
  · -- the power of two between them is a float
    have hnormal : -1022 < exponent y := lt_of_le_of_lt (le_max_right _ _) hless
    calc nearest x ≤ 2 ^ (exponent x + 1) := nearest_le x
      _ ≤ 2 ^ exponent y := zpow_le_zpow_right₀ one_le_two hless
      _ ≤ nearest y := le_nearest (hpos.trans_le h) hnormal
  · have hulp : ulp x = ulp y := by rw [ulp, ulp, hsame]
    rw [nearest, nearest, hulp]
    have hround := roundHalfEven_mono (div_le_div_of_nonneg_right h (ulp_pos y).le)
    exact mul_le_mul_of_nonneg_right (Int.cast_le.2 hround) (ulp_pos y).le

theorem nearest_natCast {n : ℕ} (hn : n < 2 ^ 53) : nearest n = n := by
  obtain rfl | hpos := Nat.eq_zero_or_pos n
  · rw [Nat.cast_zero, nearest_zero]
  have hlog : Nat.log 2 n ≤ 52 := Nat.le_of_lt_succ (Nat.log_lt_of_lt_pow hpos.ne' hn)
  have hexponent : exponent n = Nat.log 2 n := by
    rw [exponent, Int.log_natCast]
    exact max_eq_left (by omega)
  -- in units in its last place the number is an integer
  have hunits : (n : ℚ) / ulp n = ((n * 2 ^ (52 - Nat.log 2 n) : ℕ) : ℤ) := by
    rw [div_eq_iff (ulp_pos _).ne', ulp, hexponent]
    push_cast
    rw [mul_assoc, ← zpow_natCast, ← zpow_add₀ two_ne_zero]
    have hcancel : ((52 - Nat.log 2 n : ℕ) : ℤ) + ((Nat.log 2 n : ℤ) - 52) = 0 := by omega
    rw [hcancel, zpow_zero, mul_one]
  rw [nearest, hunits, roundHalfEven_intCast, ← hunits, div_mul_cancel₀ _ (ulp_pos _).ne']

theorem abs_nearest_sub_le (x : ℚ) : |nearest x - x| ≤ 1 / 2 * ulp x := by
  have hunits : nearest x - x = ((roundHalfEven (x / ulp x) : ℚ) - x / ulp x) * ulp x := by
    rw [nearest, sub_mul, div_mul_cancel₀ _ (ulp_pos x).ne']
  rw [hunits, abs_mul, abs_of_pos (ulp_pos x)]
  exact mul_le_mul_of_nonneg_right (abs_roundHalfEven_sub_le _) (ulp_pos x).le

/-! ## Numbers that are not negative -/

theorem float64_of_nonneg (hx : 0 ≤ x) : float64 x = nearest x := by
  rw [float64, if_neg (not_lt.2 hx)]

theorem float64_mono (hx : 0 ≤ x) (h : x ≤ y) : float64 x ≤ float64 y := by
  rw [float64_of_nonneg hx, float64_of_nonneg (hx.trans h)]
  exact nearest_mono hx h

theorem float64_natCast {n : ℕ} (hn : n < 2 ^ 53) : float64 n = n := by
  rw [float64_of_nonneg (Nat.cast_nonneg n), nearest_natCast hn]

theorem float64_nonneg (hx : 0 ≤ x) : 0 ≤ float64 x := by
  rw [float64_of_nonneg hx]
  exact nearest_nonneg hx

theorem natCast_le_float64 {n : ℕ} (hn : n < 2 ^ 53) (h : (n : ℚ) ≤ x) : (n : ℚ) ≤ float64 x := by
  rw [← float64_natCast hn]
  exact float64_mono (Nat.cast_nonneg n) h

theorem abs_float64_sub_le (hx : 0 ≤ x) (h : x < 2 ^ 11) : |float64 x - x| ≤ 1 / 2 ^ 43 := by
  rw [float64_of_nonneg hx]
  obtain rfl | hpos := hx.eq_or_lt
  · simp
  have hlog : Int.log 2 x < 11 := by
    refine (Int.lt_zpow_iff_log_lt one_lt_two hpos).1 ?_
    exact_mod_cast h
  have hexponent : exponent x - 52 ≤ -42 := by
    rw [exponent]
    omega
  calc |nearest x - x| ≤ 1 / 2 * ulp x := abs_nearest_sub_le x
    _ ≤ 1 / 2 * 2 ^ (-42 : ℤ) :=
      mul_le_mul_of_nonneg_left (zpow_le_zpow_right₀ one_le_two hexponent) (by norm_num)
    _ = 1 / 2 ^ 43 := by norm_num

end Binary64
