import Mathlib.Algebra.Order.Field.Power
import Mathlib.Data.Nat.Cast.Order.Field
import Mathlib.Data.Rat.Cast.Order
import Mathlib.Tactic.FieldSimp
import Mathlib.Tactic.Linarith
import Mathlib.Tactic.NormNum
import Mathlib.Tactic.Ring
import PlainSteps.Number.Binary64

/-! # What a ratio is rounded past

A positive ratio is rounded on the grid `2 ^ e` whose numbers of 53 binary digits are of its size.
The nearest number reaches a bound on that grid or another exactly when the ratio reaches the place
half a step before the bound; a bound with an even `m` wins the tie. Overflow is the case of the
first bound that is no number any more.
-/

namespace PlainSteps

/-- Half a step below an even number is where rounding begins to reach it. -/
theorem le_roundDiv_iff {num den M : Nat} (hden : 0 < den) (heven : 2 ∣ M) :
    M ≤ roundDiv num den ↔ 2 * M * den ≤ 2 * num + den := by
  obtain ⟨q, r, hr, rfl⟩ : ∃ q r, r < den ∧ num = den * q + r :=
    ⟨num / den, num % den, Nat.mod_lt _ hden, (Nat.div_add_mod num den).symm⟩
  have hq : (den * q + r) / den = q := by
    rw [Nat.mul_add_div hden, Nat.div_eq_of_lt hr, Nat.add_zero]
  have hmod : (den * q + r) % den = r := by rw [Nat.mul_add_mod, Nat.mod_eq_of_lt hr]
  unfold roundDiv
  simp only [hq, hmod]
  rcases Nat.lt_trichotomy M (q + 1) with hlt | rfl | hgt
  · have hle : M * den ≤ q * den := Nat.mul_le_mul_right den (by omega)
    constructor
    · intro _
      nlinarith
    · intro _
      split <;> omega
  · -- the bound is the upper neighbour, so that the lower one is odd
    have hodd : q % 2 = 1 := by omega
    have hexpand : 2 * (q + 1) * den = 2 * (den * q) + 2 * den := by ring
    rw [hexpand]
    simp only [hodd, beq_self_eq_true, Bool.and_true, Bool.or_eq_true,
      decide_eq_true_eq, beq_iff_eq]
    split <;> omega
  · have hle : (q + 2) * den ≤ M * den := Nat.mul_le_mul_right den (by omega)
    constructor
    · intro h
      split at h <;> omega
    · intro h
      nlinarith

theorem div_le_roundDiv (num den : Nat) : num / den ≤ roundDiv num den := by
  unfold roundDiv
  dsimp only
  split <;> omega

theorem roundDiv_le_div_succ (num den : Nat) : roundDiv num den ≤ num / den + 1 := by
  unfold roundDiv
  dsimp only
  split <;> omega

namespace Binary64

/-! ### Grids -/

/-- The exponent of the grid that a ratio is rounded on. -/
def gridExponent (num den : Nat) : Int :=
  let e : Int := (num.log2 : Int) - (den.log2 : Int) - 52
  let first := scaled num den e
  let e := if first.1 < 2 ^ 52 * first.2 then e - 1 else e
  if e < minExponent then minExponent else e

/-- How many steps of a grid a ratio is rounded to. -/
def steps (num den : Nat) (e : Int) : Nat := roundDiv (scaled num den e).1 (scaled num den e).2

/-- The number of so many steps of a grid, if it is not too large. -/
def ofSteps (negative : Bool) (m : Nat) (e : Int) : Binary64 :=
  let (m, e) := if m == 2 ^ 53 then (2 ^ 52, e + 1) else (m, e)
  if e > maxExponent then infinite negative else finite negative m e

theorem ofRatio_eq_ofSteps (negative : Bool) {num den : Nat} (hnum : 0 < num) :
    ofRatio negative num den =
      ofSteps negative (steps num den (gridExponent num den)) (gridExponent num den) := by
  have hne : (num == 0) = false := by simpa using Nat.pos_iff_ne_zero.mp hnum
  unfold ofRatio
  rw [hne]
  rfl

theorem scaled_pos {num den : Nat} (hden : 0 < den) (e : Int) : 0 < (scaled num den e).2 := by
  unfold scaled
  split
  · exact hden
  · exact Nat.mul_pos hden (Nat.two_pow_pos _)

theorem zpow_of_neg (b : ℚ) {e : Int} (he : e < 0) : b ^ e = (b ^ e.natAbs)⁻¹ := by
  rw [← zpow_natCast, ← zpow_neg]
  congr 1
  omega

theorem zpow_of_not_neg (b : ℚ) {e : Int} (he : ¬ e < 0) : b ^ e = b ^ e.natAbs := by
  rw [← zpow_natCast]
  congr 1
  omega

theorem scaled_ratio (num den : Nat) (e : Int) :
    ((scaled num den e).1 : ℚ) / (scaled num den e).2 = num / den / 2 ^ e := by
  unfold scaled
  split
  · rename_i he
    rw [zpow_of_neg 2 he]
    push_cast
    field_simp
  · rename_i he
    rw [zpow_of_not_neg 2 he]
    push_cast
    field_simp

variable {num den : Nat} {e : Int}

theorem scaled_lt_iff (hden : 0 < den) (M : Nat) :
    (scaled num den e).1 < M * (scaled num den e).2 ↔ (num / den : ℚ) < M * 2 ^ e := by
  have hpos : (0 : ℚ) < (scaled num den e).2 := by exact_mod_cast scaled_pos hden e
  have hstep : (0 : ℚ) < 2 ^ e := by positivity
  rw [← div_lt_iff₀ hstep, ← scaled_ratio, div_lt_iff₀ hpos]
  exact_mod_cast Iff.rfl

theorem pow_mul_zpow (k : Nat) (e : Int) : (2 : ℚ) ^ k * 2 ^ e = 2 ^ (k + e) := by
  rw [zpow_add₀ two_ne_zero, zpow_natCast]

/-- The end of one grid is a number of the next one. -/
theorem carry_value (e : Int) : ((2 ^ 53 : Nat) * 2 ^ e : ℚ) = (2 ^ 52 : Nat) * 2 ^ (e + 1) := by
  rw [Nat.cast_pow, Nat.cast_pow, Nat.cast_ofNat, pow_mul_zpow, pow_mul_zpow]
  congr 1
  omega

/-- The grid on which numbers of 53 binary digits are of the size of a ratio, or the finest one. -/
structure IsGrid (x : ℚ) (e : Int) : Prop where
  least : minExponent ≤ e
  above : x < 2 ^ 53 * 2 ^ e
  below : e = minExponent ∨ 2 ^ 52 * 2 ^ e ≤ x

/-- The lengths of numerator and denominator give the size of a ratio up to one binary digit. -/
theorem ratio_size (hnum : 0 < num) (hden : 0 < den) :
    (2 : ℚ) ^ ((num.log2 : Int) - den.log2 - 1) ≤ num / den ∧
      (num / den : ℚ) < 2 ^ ((num.log2 : Int) - den.log2 + 1) := by
  -- both are between powers of two that differ by one binary digit
  have hnumlow : (2 : ℚ) ^ num.log2 ≤ num := by exact_mod_cast Nat.log2_self_le hnum.ne'
  have hnumhigh : (num : ℚ) < 2 ^ (num.log2 + 1) := by exact_mod_cast Nat.lt_log2_self
  have hdenlow : (2 : ℚ) ^ den.log2 ≤ den := by exact_mod_cast Nat.log2_self_le hden.ne'
  have hdenhigh : (den : ℚ) < 2 ^ (den.log2 + 1) := by exact_mod_cast Nat.lt_log2_self
  have hpos : (0 : ℚ) < den := by exact_mod_cast hden
  constructor
  · rw [le_div_iff₀ hpos]
    calc (2 : ℚ) ^ ((num.log2 : Int) - den.log2 - 1) * den
        ≤ 2 ^ ((num.log2 : Int) - den.log2 - 1) * 2 ^ (den.log2 + 1) := by gcongr
      _ = 2 ^ num.log2 := by
        rw [mul_comm, pow_mul_zpow, ← zpow_natCast]
        congr 1
        push_cast
        ring
      _ ≤ num := hnumlow
  · rw [div_lt_iff₀ hpos]
    calc (num : ℚ) < 2 ^ (num.log2 + 1) := hnumhigh
      _ = 2 ^ ((num.log2 : Int) - den.log2 + 1) * 2 ^ den.log2 := by
        rw [mul_comm, pow_mul_zpow, ← zpow_natCast]
        congr 1
        push_cast
        ring
      _ ≤ 2 ^ ((num.log2 : Int) - den.log2 + 1) * den := by gcongr

theorem isGrid_gridExponent (hnum : 0 < num) (hden : 0 < den) :
    IsGrid (num / den) (gridExponent num den) := by
  obtain ⟨hlow, hhigh⟩ := ratio_size hnum hden
  -- before it is kept from becoming too fine, the grid has the size of the ratio
  have hunclamped : ∀ e : Int, 2 ^ 52 * 2 ^ e ≤ (num / den : ℚ) → (num / den : ℚ) < 2 ^ 53 * 2 ^ e →
      IsGrid (num / den) (if e < minExponent then minExponent else e) := by
    intro e hbelow habove
    split
    · rename_i hfine
      refine ⟨le_rfl, lt_of_lt_of_le habove ?_, .inl rfl⟩
      have hstep : (2 : ℚ) ^ e ≤ 2 ^ minExponent := zpow_le_zpow_right₀ one_le_two hfine.le
      gcongr
    · exact ⟨by omega, habove, .inr hbelow⟩
  unfold gridExponent
  dsimp only
  apply hunclamped
  · split
    · refine le_trans (le_of_eq ?_) hlow
      rw [pow_mul_zpow]
      congr 1
      omega
    · rename_i hfirst
      rw [scaled_lt_iff hden] at hfirst
      exact_mod_cast not_lt.mp hfirst
  · split
    · rename_i hfirst
      rw [scaled_lt_iff hden] at hfirst
      refine lt_of_lt_of_eq hfirst ?_
      rw [Nat.cast_pow, Nat.cast_ofNat, pow_mul_zpow, pow_mul_zpow]
      congr 1
      omega
    · refine lt_of_lt_of_eq hhigh ?_
      rw [pow_mul_zpow]
      congr 1
      omega

/-! ### Steps -/

theorem le_steps (hden : 0 < den) {K : Nat} (h : (K * 2 ^ e : ℚ) ≤ num / den) :
    K ≤ steps num den e := by
  have hscaled : K * (scaled num den e).2 ≤ (scaled num den e).1 := by
    rw [← not_lt, scaled_lt_iff hden]
    exact not_lt.mpr h
  exact le_trans ((Nat.le_div_iff_mul_le (scaled_pos hden e)).mpr hscaled) (div_le_roundDiv _ _)

theorem steps_le (hden : 0 < den) {K : Nat} (h : (num / den : ℚ) < K * 2 ^ e) :
    steps num den e ≤ K := by
  have hscaled := (scaled_lt_iff hden K).mpr h
  exact le_trans (roundDiv_le_div_succ _ _)
    ((Nat.div_lt_iff_lt_mul (scaled_pos hden e)).mpr hscaled)

theorem le_steps_iff (hden : 0 < den) {M : Nat} (heven : 2 ∣ M) :
    M ≤ steps num den e ↔ ((M - 1 / 2) * 2 ^ e : ℚ) ≤ num / den := by
  have hpos : (0 : ℚ) < (scaled num den e).2 := by exact_mod_cast scaled_pos hden e
  have hstep : (0 : ℚ) < 2 ^ e := by positivity
  rw [steps, le_roundDiv_iff (scaled_pos hden e) heven, ← le_div_iff₀ hstep,
    ← scaled_ratio, le_div_iff₀ hpos]
  have hcast : 2 * M * (scaled num den e).2 ≤ 2 * (scaled num den e).1 + (scaled num den e).2 ↔
      (2 * M * (scaled num den e).2 : ℚ) ≤ 2 * (scaled num den e).1 + (scaled num den e).2 := by
    exact_mod_cast Iff.rfl
  rw [hcast]
  constructor <;> intro h <;> linarith

/-! ### Bounds -/

/-- Whether a number is at least a bound. -/
def Reaches (bound : ℚ) : Binary64 → Prop
  | finite negative m e => bound ≤ (if negative then -(m : ℚ) else m) * 2 ^ e
  | infinite negative => negative = false
  | nan => False

/-- The first power of two that is too large. -/
def tooLarge : ℚ := 2 ^ 53 * 2 ^ maxExponent

theorem tooLarge_eq_mul : tooLarge = (2 ^ 53 : Nat) * 2 ^ maxExponent := by
  rw [tooLarge, Nat.cast_pow, Nat.cast_ofNat]

theorem tooLarge_eq : tooLarge = (2 ^ 1024 : Nat) := by
  rw [tooLarge, pow_mul_zpow, Nat.cast_pow, Nat.cast_ofNat, ← zpow_natCast]
  rfl

/-- Rounding a number of steps out of range keeps it above every bound in range. -/
theorem reaches_ofSteps_iff {bound : ℚ} {m : Nat} (hbound : bound ≤ tooLarge)
    (hsize : e = minExponent ∨ 2 ^ 52 ≤ m) :
    Reaches bound (ofSteps false m e) ↔ bound ≤ m * 2 ^ e := by
  have hlarge : ∀ {n : Nat} {f : Int}, f > maxExponent → 2 ^ 52 ≤ n → bound ≤ n * 2 ^ f := by
    intro n f hf hn
    have hn' : (2 : ℚ) ^ 52 ≤ n := by exact_mod_cast hn
    have hf' : (2 : ℚ) ^ (maxExponent + 1) ≤ 2 ^ f := zpow_le_zpow_right₀ one_le_two hf
    calc bound ≤ 2 ^ 53 * 2 ^ maxExponent := hbound
      _ = 2 ^ 52 * 2 ^ (maxExponent + 1) := by rw [pow_mul_zpow, pow_mul_zpow]; congr 1
      _ ≤ n * 2 ^ f := by gcongr
  unfold ofSteps
  by_cases hm : m = 2 ^ 53
  · have hcarry : ((2 ^ 52 : Nat) * 2 ^ (e + 1) : ℚ) = m * 2 ^ e := by rw [hm, carry_value]
    simp only [hm, beq_self_eq_true, if_true]
    rw [← hm, ← hcarry]
    split
    · rename_i hover
      exact iff_of_true rfl (hlarge hover le_rfl)
    · simp [Reaches]
  · simp only [beq_eq_false_iff_ne.mpr hm, Bool.false_eq_true, if_false]
    split
    · rename_i hover
      refine iff_of_true rfl (hlarge hover (hsize.resolve_left ?_))
      have : minExponent < maxExponent := by decide
      omega
    · simp [Reaches]

theorem mul_zpow_le_tooLarge {M : Nat} {E : Int} (hM : M ≤ 2 ^ 53) (hE : E ≤ maxExponent) :
    (M * 2 ^ E : ℚ) ≤ tooLarge := by
  have hM' : (M : ℚ) ≤ 2 ^ 53 := by exact_mod_cast hM
  have hE' : (2 : ℚ) ^ E ≤ 2 ^ maxExponent := zpow_le_zpow_right₀ one_le_two hE
  unfold tooLarge
  gcongr

/-- **Rounding reaches an even bound from half a step below it on.** -/
theorem reaches_ofRatio_iff {M : Nat} {E : Int} (hden : 0 < den) (heven : 2 ∣ M) (hlow : 2 ^ 52 < M)
    (hhigh : M ≤ 2 ^ 53) (hmin : minExponent ≤ E) (hmax : E ≤ maxExponent) :
    Reaches (M * 2 ^ E) (ofRatio false num den) ↔ ((M - 1 / 2) * 2 ^ E : ℚ) ≤ num / den := by
  have hMlow : (2 ^ 52 : ℚ) + 1 ≤ M := by exact_mod_cast hlow
  have hMhigh : (M : ℚ) ≤ 2 ^ 53 := by exact_mod_cast hhigh
  have hE : (0 : ℚ) < 2 ^ E := by positivity
  rcases Nat.eq_zero_or_pos num with rfl | hnum
  · have hzero : ofRatio false 0 den = finite false 0 minExponent := rfl
    rw [hzero]
    refine iff_of_false ?_ ?_
    · simp only [Reaches, Nat.cast_zero, Bool.false_eq_true, if_false, zero_mul, not_le]
      nlinarith
    · simp only [Nat.cast_zero, zero_div, not_le]
      nlinarith
  have hgrid := isGrid_gridExponent hnum hden
  have hsize : gridExponent num den = minExponent ∨ 2 ^ 52 ≤ steps num den (gridExponent num den) :=
    hgrid.below.imp_right fun h => le_steps hden (by exact_mod_cast h)
  rw [ofRatio_eq_ofSteps false hnum, reaches_ofSteps_iff (mul_zpow_le_tooLarge hhigh hmax) hsize]
  rcases lt_trichotomy (gridExponent num den) E with hlt | heq | hgt
  · -- all the numbers of a finer grid lie below
    have hfine : (2 : ℚ) ^ 53 * 2 ^ gridExponent num den ≤ 2 ^ 52 * 2 ^ E := by
      rw [pow_mul_zpow, pow_mul_zpow]
      exact zpow_le_zpow_right₀ one_le_two (by push_cast; omega)
    have hsteps : (steps num den (gridExponent num den) : ℚ) ≤ 2 ^ 53 := by
      exact_mod_cast steps_le hden (K := 2 ^ 53) (by exact_mod_cast hgrid.above)
    have hpos : (0 : ℚ) < 2 ^ gridExponent num den := by positivity
    refine iff_of_false ?_ ?_
    · rw [not_le]
      nlinarith
    · rw [not_le]
      nlinarith [hgrid.above]
  · rw [heq, ← le_steps_iff hden heven]
    constructor
    · intro h
      exact_mod_cast le_of_mul_le_mul_right h hE
    · intro h
      have h' : (M : ℚ) ≤ steps num den E := by exact_mod_cast h
      exact mul_le_mul_of_nonneg_right h' hE.le
  · -- all the numbers of a coarser grid that are of its size lie above
    have hnormal : (2 : ℚ) ^ 52 * 2 ^ gridExponent num den ≤ num / den :=
      hgrid.below.resolve_left (by omega)
    have hcoarse : (2 : ℚ) ^ 53 * 2 ^ E ≤ 2 ^ 52 * 2 ^ gridExponent num den := by
      rw [pow_mul_zpow, pow_mul_zpow]
      exact zpow_le_zpow_right₀ one_le_two (by push_cast; omega)
    have hsteps : (2 : ℚ) ^ 52 ≤ steps num den (gridExponent num den) := by
      exact_mod_cast hsize.resolve_left (by omega)
    have hpos : (0 : ℚ) < 2 ^ gridExponent num den := by positivity
    refine iff_of_true ?_ ?_
    · nlinarith
    · nlinarith

/-! ### Overflow -/

/-- A number that is not negative, infinity among them, in the digits and exponents of its
format. -/
def InRange (x : Binary64) : Prop :=
  x = infinite false ∨ ∃ m e, x = finite false m e ∧ m < 2 ^ 53 ∧ e ≤ maxExponent

theorem ofRatio_inRange (num : Nat) (hden : 0 < den) : InRange (ofRatio false num den) := by
  rcases Nat.eq_zero_or_pos num with rfl | hnum
  · exact .inr ⟨0, minExponent, rfl, by decide, by decide⟩
  have hsteps : steps num den (gridExponent num den) ≤ 2 ^ 53 :=
    steps_le hden (by exact_mod_cast (isGrid_gridExponent hnum hden).above)
  rw [ofRatio_eq_ofSteps false hnum]
  unfold ofSteps
  by_cases hcarry : steps num den (gridExponent num den) = 2 ^ 53
  · simp only [hcarry, beq_self_eq_true, if_true]
    split
    · exact .inl rfl
    · exact .inr ⟨_, _, rfl, by decide, by omega⟩
  · simp only [beq_eq_false_iff_ne.mpr hcarry, Bool.false_eq_true, if_false]
    split
    · exact .inl rfl
    · exact .inr ⟨_, _, rfl, lt_of_le_of_ne hsteps hcarry, by omega⟩

theorem ratio_pos (m : Nat) (e : Int) : 0 < (ratio m e).2 := by
  unfold ratio
  split
  · exact Nat.two_pow_pos _
  · exact Nat.one_pos

theorem ratio_value (m : Nat) (e : Int) : ((ratio m e).1 : ℚ) / (ratio m e).2 = m * 2 ^ e := by
  unfold ratio
  split
  · rename_i he
    rw [zpow_of_neg 2 he]
    push_cast
    field_simp
  · rename_i he
    rw [zpow_of_not_neg 2 he]
    push_cast
    field_simp

theorem lt_tooLarge {m : Nat} (hm : m < 2 ^ 53) (he : e ≤ maxExponent) :
    (m * 2 ^ e : ℚ) < tooLarge := by
  have hm' : (m : ℚ) < 2 ^ 53 := by exact_mod_cast hm
  have he' : (2 : ℚ) ^ e ≤ 2 ^ maxExponent := zpow_le_zpow_right₀ one_le_two he
  have hpos : (0 : ℚ) < 2 ^ e := by positivity
  unfold tooLarge
  calc (m * 2 ^ e : ℚ) < 2 ^ 53 * 2 ^ e := by gcongr
    _ ≤ 2 ^ 53 * 2 ^ maxExponent := by gcongr

/-- A number in range has no whole part exactly when it has overflowed. -/
theorem InRange.truncate?_eq_none_iff {x : Binary64} (hx : InRange x) :
    x.truncate? = none ↔ Reaches tooLarge x := by
  rcases hx with rfl | ⟨m, e, rfl, hm, he⟩
  · exact iff_of_true rfl rfl
  · refine iff_of_false (by simp [truncate?]) ?_
    simp only [Reaches, Bool.false_eq_true, if_false, not_le]
    exact lt_tooLarge hm he

/-- The whole part of a number in range is a natural number below the first power that is too
large. -/
theorem InRange.truncate?_eq_some {x : Binary64} {i : Int} (hx : InRange x)
    (hi : x.truncate? = some i) :
    ∃ n : Nat, i = n ∧ (n : ℚ) < tooLarge := by
  rcases hx with rfl | ⟨m, e, rfl, hm, he⟩
  · cases hi
  · obtain rfl := Option.some.inj hi
    refine ⟨_, rfl, lt_of_le_of_lt Nat.cast_div_le ?_⟩
    rw [ratio_value]
    exact lt_tooLarge hm he

end Binary64

end PlainSteps
