import PlainSteps.Proofs.Number.Digits
import PlainSteps.Proofs.Number.Rounding

/-! # Decimal amounts that overflow

A decimal amount is read to the nearest number of double precision, and may then be multiplied by a
thousand, which rounds once more. Both ways overflow from a fixed amount on: the first from half a
step below the first power of two that is too large, the second from half a step below the least
number whose thousandfold is rounded to that power.
-/

namespace PlainSteps

namespace Binary64

/-! ### Reading -/

/-- The count of its digits and its exponent bound a decimal number. -/
theorem decimal_le_pow (digits : Nat) (exponent : Int) :
    (digits * 10 ^ exponent : ℚ) ≤ 10 ^ ((Text.ofNat digits).length + exponent) := by
  have hcount : (digits : ℚ) ≤ 10 ^ (Text.ofNat digits).length := by
    exact_mod_cast (Text.lt_pow_length_ofNat digits).le
  rw [zpow_add₀ (by norm_num), zpow_natCast]
  gcongr

/-- What is cut off as too small. -/
theorem decimal_le_of_length {digits : Nat} {exponent : Int}
    (h : (Text.ofNat digits).length + exponent < -330) :
    (digits * 10 ^ exponent : ℚ) ≤ 10 ^ (-330 : Int) :=
  (decimal_le_pow digits exponent).trans (zpow_le_zpow_right₀ (by norm_num) h.le)

/-- What is cut off as too large. -/
theorem tooLarge_le_decimal {digits : Nat} {exponent : Int} (hdigits : 0 < digits)
    (h : (Text.ofNat digits).length + exponent > 310) : tooLarge ≤ digits * 10 ^ exponent := by
  have hpos : 0 < (Text.ofNat digits).length := Nat.length_toDigits_pos
  have hcount : (10 : ℚ) ^ ((Text.ofNat digits).length - 1) ≤ digits := by
    exact_mod_cast Text.pow_le_of_lt_length_ofNat hdigits (by omega)
  calc tooLarge = (2 ^ 1024 : Nat) := tooLarge_eq
    _ ≤ (10 ^ 310 : Nat) := Nat.cast_le.mpr (by decide +kernel)
    _ = (10 : ℚ) ^ (310 : Int) := by rw [Nat.cast_pow, Nat.cast_ofNat, ← zpow_natCast]; rfl
    _ ≤ 10 ^ (((Text.ofNat digits).length - 1 : Nat) + exponent) :=
      zpow_le_zpow_right₀ (by norm_num) (by omega)
    _ = 10 ^ ((Text.ofNat digits).length - 1) * 10 ^ exponent :=
      by rw [zpow_add₀ (by norm_num), zpow_natCast]
    _ ≤ digits * 10 ^ exponent := by gcongr

/-- A decimal number reaches a bound as the exact ratio does: what is cut off before rounding is too
small or too large to matter. -/
theorem reaches_ofDecimal_iff {M : Nat} {E : Int} (heven : 2 ∣ M) (hlow : 2 ^ 52 < M)
    (hhigh : M ≤ 2 ^ 53) (hmin : 0 ≤ E) (hmax : E ≤ maxExponent) (digits : Nat) (exponent : Int) :
    Reaches (M * 2 ^ E) (ofDecimal false digits exponent) ↔
      ((M - 1 / 2) * 2 ^ E : ℚ) ≤ digits * 10 ^ exponent := by
  have hleast : minExponent ≤ E := le_trans (by decide) hmin
  have hMlow : (2 ^ 52 : ℚ) + 1 ≤ M := by exact_mod_cast hlow
  have hMhigh : (M : ℚ) ≤ 2 ^ 53 := by exact_mod_cast hhigh
  have hone : (1 : ℚ) ≤ 2 ^ E := one_le_zpow₀ one_le_two hmin
  have hsmall : Reaches (M * 2 ^ E) (finite false 0 minExponent) ↔ False := by
    simp only [Reaches, Nat.cast_zero, Bool.false_eq_true, if_false, zero_mul, iff_false, not_le]
    nlinarith
  rcases Nat.eq_zero_or_pos digits with rfl | hdigits
  · have hzero : ofDecimal false 0 exponent = finite false 0 minExponent := rfl
    rw [hzero, hsmall, Nat.cast_zero, zero_mul, false_iff, not_le]
    nlinarith
  have hpow : (0 : ℚ) < 10 ^ exponent := by positivity
  have hne : (digits == 0) = false := by simpa using hdigits.ne'
  unfold ofDecimal
  dsimp only
  rw [hne, Bool.false_or]
  split
  · -- fewer than one part in `10 ^ 330`
    rename_i hsize
    rw [hsmall, false_iff, not_le]
    calc (digits : ℚ) * 10 ^ exponent ≤ 10 ^ (-330 : Int) :=
      decimal_le_of_length (of_decide_eq_true hsize)
      _ ≤ 1 := zpow_le_one_of_nonpos₀ (by norm_num) (by norm_num)
      _ < (M - 1 / 2) * 2 ^ E := by nlinarith
  · split
    · -- at least `10 ^ 310`
      rename_i hsize
      refine iff_of_true rfl ?_
      calc ((M - 1 / 2) * 2 ^ E : ℚ) ≤ M * 2 ^ E := by nlinarith
        _ ≤ tooLarge := mul_zpow_le_tooLarge hhigh hmax
        _ ≤ digits * 10 ^ exponent := tooLarge_le_decimal hdigits hsize
    · split
      · rename_i hnegative
        rw [reaches_ofRatio_iff (Nat.pow_pos (by decide)) heven hlow hhigh hleast hmax,
          zpow_of_neg 10 hnegative, Nat.cast_pow, Nat.cast_ofNat, ← div_eq_mul_inv]
      · rename_i hnegative
        rw [reaches_ofRatio_iff Nat.one_pos heven hlow hhigh hleast hmax,
          zpow_of_not_neg 10 hnegative, Nat.cast_mul, Nat.cast_pow, Nat.cast_ofNat,
            Nat.cast_one, div_one]

theorem ofDecimal_inRange (digits : Nat) (exponent : Int) :
    InRange (ofDecimal false digits exponent) := by
  unfold ofDecimal
  dsimp only
  split
  · exact .inr ⟨0, minExponent, rfl, by decide, by decide⟩
  · split
    · exact .inl rfl
    · split
      · exact ofRatio_inRange _ (Nat.pow_pos (by decide))
      · exact ofRatio_inRange _ Nat.one_pos

/-! ### A thousandfold -/

/-- The least number whose thousandfold overflows. -/
def leastLong : ℚ := (4611686018427388 : Nat) * 2 ^ (962 : Int)

theorem ofInt_thousand : ofInt 1000 = finite false (1000 * 2 ^ 43) (-43) := by decide +kernel

/-- The thousandfold of `m · 2 ^ e`, before it is rounded. -/
theorem ratio_thousand (m : Nat) (e : Int) :
    ((ratio (m * (1000 * 2 ^ 43)) (e + -43)).1 : ℚ) / (ratio (m * (1000 * 2 ^ 43)) (e + -43)).2 =
      m * 2 ^ e * 1000 := by
  rw [ratio_value, zpow_add₀ two_ne_zero]
  push_cast
  norm_num
  ring

/-- A number of 53 binary digits whose thousandfold is rounded to a power that is too large is a
multiple of `2 ^ 962`. -/
theorem leastLong_le_iff {m : Nat} {e : Int} (hm : m < 2 ^ 53) :
    (((2 ^ 53 : Nat) - 1 / 2) * 2 ^ maxExponent : ℚ) ≤ m * 2 ^ e * 1000 ↔
    leastLong ≤ m * 2 ^ e := by
  have hscale : (2 : ℚ) ^ maxExponent = 2 ^ 9 * 2 ^ (962 : Int) := by rw [pow_mul_zpow]; rfl
  have hpos : (0 : ℚ) < 2 ^ (962 : Int) := by positivity
  have hm' : (m : ℚ) ≤ 2 ^ 53 := by exact_mod_cast hm.le
  unfold leastLong
  rw [hscale]
  constructor
  · intro h
    rcases lt_or_ge e 962 with hsmall | hlarge
    · -- a finer grid ends too early
      have hfine : (2 : ℚ) ^ 1 * 2 ^ e ≤ 2 ^ (962 : Int) := by
        rw [pow_mul_zpow]
        exact zpow_le_zpow_right₀ one_le_two (by omega)
      have hall : (m * 2 ^ e : ℚ) ≤ 2 ^ 53 * 2 ^ e := by gcongr
      generalize (2 : ℚ) ^ (962 : Int) = step at *
      push_cast at h
      linarith
    · obtain ⟨k, rfl⟩ : ∃ k : Nat, e = k + 962 := ⟨(e - 962).toNat, by omega⟩
      have hmul : (m * 2 ^ ((k : Int) + 962) : ℚ) = (m * 2 ^ k : Nat) * 2 ^ (962 : Int) := by
        rw [zpow_add₀ two_ne_zero, zpow_natCast, ← mul_assoc, Nat.cast_mul,
          Nat.cast_pow, Nat.cast_ofNat]
      rw [hmul] at h ⊢
      generalize (2 : ℚ) ^ (962 : Int) = step at *
      generalize m * 2 ^ k = count at *
      have hcount : 4611686018427387 < count := by
        by_contra hle
        have hle' : (count : ℚ) ≤ 4611686018427387 := by exact_mod_cast not_lt.mp hle
        have hall : (count * step : ℚ) ≤ 4611686018427387 * step := by gcongr
        push_cast at h
        linarith
      have hleast : ((4611686018427388 : Nat) : ℚ) ≤ count := Nat.cast_le.mpr hcount
      gcongr
  · intro h
    generalize (2 : ℚ) ^ (962 : Int) = step at *
    push_cast at h ⊢
    linarith

theorem mul_thousand (m : Nat) (e : Int) :
    (finite false m e).mul (ofInt 1000) =
      ofRatio false (ratio (m * (1000 * 2 ^ 43)) (e + -43)).1
        (ratio (m * (1000 * 2 ^ 43)) (e + -43)).2 := by
  rw [ofInt_thousand]
  rfl

/-- A thousandfold reaches an even bound from half a step below it on. -/
theorem reaches_mul_thousand_iff {M : Nat} {E : Int} (heven : 2 ∣ M) (hlow : 2 ^ 52 < M)
    (hhigh : M ≤ 2 ^ 53) (hmin : minExponent ≤ E) (hmax : E ≤ maxExponent) (m : Nat) (e : Int) :
    Reaches (M * 2 ^ E) ((finite false m e).mul (ofInt 1000)) ↔
      ((M - 1 / 2) * 2 ^ E : ℚ) ≤ m * 2 ^ e * 1000 := by
  rw [mul_thousand, reaches_ofRatio_iff (ratio_pos _ _) heven hlow hhigh hmin hmax, ratio_thousand]

theorem InRange.mul_thousand {x : Binary64} (hx : InRange x) : InRange (x.mul (ofInt 1000)) := by
  rcases hx with rfl | ⟨m, e, rfl, -, -⟩
  · exact .inl (by rw [ofInt_thousand]; rfl)
  · rw [Binary64.mul_thousand]
    exact ofRatio_inRange _ (ratio_pos _ _)

/-- The thousandfold of a number overflows from one number on. -/
theorem InRange.mul_thousand_iff {x : Binary64} (hx : InRange x) :
    (x.mul (ofInt 1000)).truncate? = none ↔ Reaches leastLong x := by
  rw [hx.mul_thousand.truncate?_eq_none_iff]
  rcases hx with rfl | ⟨m, e, rfl, hm, -⟩
  · rw [ofInt_thousand]
    exact iff_of_true rfl rfl
  · have hleast : Reaches leastLong (finite false m e) ↔ leastLong ≤ m * 2 ^ e := by
      simp only [Reaches, Bool.false_eq_true, if_false]
    rw [tooLarge_eq_mul, hleast, reaches_mul_thousand_iff (by decide) (by decide) le_rfl
      (by decide) le_rfl, leastLong_le_iff hm]

end Binary64

end PlainSteps
