import Mathlib.Data.Rat.Floor
import PlainSteps.Proofs.Number.Decimal

/-! # Rounding to the nearest number

What is read and what is multiplied comes out as the nearest number of double precision to the exact
result, or overflows. Which number that is does not depend on how it is computed: `Nearest` says it
of two rationals, ties included, and `Rounds` of a rational and the number it is rounded to. A
number of double precision is rounded to itself, and another one of its size moves by at most one
part in `2 ^ 53`.
-/

namespace PlainSteps

/-- What a rounded quotient leaves of a numerator. -/
theorem roundDiv_bounds (num : Nat) {den : Nat} (hden : 0 < den) :
    2 * num ≤ (2 * roundDiv num den + 1) * den ∧ 2 * roundDiv num den * den ≤ 2 * num + den ∧
      (2 * num = (2 * roundDiv num den + 1) * den ∨ 2 * roundDiv num den * den = 2 * num + den →
        2 ∣ roundDiv num den) := by
  have hdiv : den * (num / den) + num % den = num := Nat.div_add_mod num den
  have hmod : num % den < den := Nat.mod_lt _ hden
  unfold roundDiv
  simp only [Bool.or_eq_true, decide_eq_true_eq, Bool.and_eq_true, beq_iff_eq]
  split
  · rw [show (2 * (num / den + 1) + 1) * den = 2 * (den * (num / den)) + 3 * den by ring,
      show 2 * (num / den + 1) * den = 2 * (den * (num / den)) + 2 * den by ring]
    omega
  · rw [show (2 * (num / den) + 1) * den = 2 * (den * (num / den)) + den by ring,
      show 2 * (num / den) * den = 2 * (den * (num / den)) by ring]
    omega

/-- A rounded quotient is off by at most a half, and where it is off by a half it is even. -/
theorem roundDiv_near (num : Nat) {den : Nat} (hden : 0 < den) :
    |(num / den - roundDiv num den : ℚ)| ≤ 1 / 2 ∧
      (|(num / den - roundDiv num den : ℚ)| = 1 / 2 → 2 ∣ roundDiv num den) := by
  obtain ⟨hlow, hhigh, heven⟩ := roundDiv_bounds num hden
  have hpos : (0 : ℚ) < den := by exact_mod_cast hden
  have hlow' : (2 * num : ℚ) ≤ (2 * roundDiv num den + 1) * den := by exact_mod_cast hlow
  have hhigh' : (2 * roundDiv num den * den : ℚ) ≤ 2 * num + den := by exact_mod_cast hhigh
  have hquotient : (num : ℚ) = num / den * den := (div_mul_cancel₀ _ hpos.ne').symm
  -- both bounds are linear in the quotient once it is cleared of its denominator
  generalize (num / den : ℚ) = x at hquotient ⊢
  rw [hquotient] at hlow' hhigh'
  refine ⟨abs_le.mpr ⟨?_, ?_⟩, fun hhalf => heven ?_⟩
  · nlinarith
  · nlinarith
  · rcases (abs_eq (by norm_num)).mp hhalf with habove | hbelow
    · refine .inl ?_
      have : (2 * num : ℚ) = (2 * roundDiv num den + 1) * den := by
        rw [hquotient, eq_add_of_sub_eq habove]
        ring
      exact_mod_cast this
    · refine .inr ?_
      have : (2 * roundDiv num den * den : ℚ) = 2 * num + den := by
        rw [hquotient, eq_add_of_sub_eq hbelow]
        ring
      exact_mod_cast this

namespace Binary64

/-- A number of double precision that is not negative. -/
def Representable (x : ℚ) : Prop :=
  ∃ (m : Nat) (e : Int), m < 2 ^ 53 ∧ minExponent ≤ e ∧ e ≤ maxExponent ∧ x = m * 2 ^ e

/-- The number of double precision nearest to a rational. Halfway between two neighbours it is the
one that is an even multiple of their distance. -/
structure Nearest (x y : ℚ) : Prop where
  representable : Representable y
  least : ∀ z, Representable z → |x - y| ≤ |x - z|
  even : ∀ z, Representable z → |x - z| = |x - y| → z = y ∨ ∃ m : Nat, y = 2 * m * |y - z|

/-- What a rational is rounded to: the nearest number, unless it is half a step from the first one
that is too large. -/
inductive Rounds (x : ℚ) : Binary64 → Prop where
  | near {m : Nat} {e : Int} (nearest : Nearest x (m * 2 ^ e)) : Rounds x (finite false m e)
  | overflow (large : (((2 ^ 53 : Nat) - 1 / 2) * 2 ^ maxExponent : ℚ) ≤ x) :
      Rounds x (infinite false)

variable {x y z : ℚ} {num den : Nat} {e : Int}

/-! ### Numbers of double precision -/

theorem representable_zero : Representable 0 :=
  ⟨0, minExponent, by decide, le_rfl, by decide, by simp⟩

/-- The last number of a grid is the first of the next one. -/
theorem representable_mul {q : Nat} (hq : q ≤ 2 ^ 53) (hleast : minExponent ≤ e)
    (hmost : e < maxExponent) :
    Representable (q * 2 ^ e) := by
  rcases Nat.lt_or_ge q (2 ^ 53) with hlt | hge
  · exact ⟨q, e, hlt, hleast, hmost.le, rfl⟩
  · obtain rfl : q = 2 ^ 53 := le_antisymm hq hge
    exact ⟨2 ^ 52, e + 1, by decide, by omega, by omega, carry_value e⟩

/-- Whole numbers are numbers of double precision up to `2 ^ 53`. -/
theorem representable_natCast {n : Nat} (hn : n ≤ 2 ^ 53) : Representable n := by
  simpa using representable_mul (e := 0) hn (by decide) (by decide)

theorem Representable.eq_zero_or_le (h : Representable z) : z = 0 ∨ (2 : ℚ) ^ minExponent ≤ z := by
  obtain ⟨m, e, -, hleast, -, rfl⟩ := h
  rcases Nat.eq_zero_or_pos m with rfl | hm
  · exact .inl (by simp)
  · refine .inr ?_
    have hone : (1 : ℚ) ≤ m := by exact_mod_cast hm
    have hstep : (2 : ℚ) ^ minExponent ≤ 2 ^ e := zpow_le_zpow_right₀ one_le_two hleast
    calc (2 : ℚ) ^ minExponent ≤ 2 ^ e := hstep
      _ ≤ m * 2 ^ e := le_mul_of_one_le_left (by positivity) hone

theorem Representable.lt_overflow (h : Representable z) :
    z < ((2 ^ 53 : Nat) - 1 / 2) * 2 ^ maxExponent := by
  obtain ⟨m, e, hm, -, hmost, rfl⟩ := h
  have hm' : (m : ℚ) ≤ (2 ^ 53 : Nat) - 1 := by
    have : (m : ℚ) + 1 ≤ (2 ^ 53 : Nat) := by exact_mod_cast hm
    linarith
  have hstep : (2 : ℚ) ^ e ≤ 2 ^ maxExponent := zpow_le_zpow_right₀ one_le_two hmost
  have hpos : (0 : ℚ) < 2 ^ maxExponent := by positivity
  -- the greatest step is too large to be computed with
  generalize (2 : ℚ) ^ maxExponent = step at hstep hpos ⊢
  calc (m * 2 ^ e : ℚ) ≤ m * step := by gcongr
    _ ≤ ((2 ^ 53 : Nat) - 1) * step := by gcongr
    _ < ((2 ^ 53 : Nat) - 1 / 2) * step := by gcongr; norm_num

/-- A number of double precision is on the grid of a rational, or below all the numbers of that
size. -/
theorem Representable.multiple_or_below (hz : Representable z) (hgrid : IsGrid x e) :
    (∃ i : Nat, z = i * 2 ^ e) ∨ z < 2 ^ 52 * 2 ^ e ∧ 2 ^ 52 * 2 ^ e ≤ x := by
  obtain ⟨m, f, hm, hleast, -, rfl⟩ := hz
  rcases le_or_gt e f with hle | hlt
  · refine .inl ⟨m * 2 ^ (f - e).toNat, ?_⟩
    push_cast
    rw [mul_assoc, pow_mul_zpow]
    congr 2
    omega
  · have hm' : (m : ℚ) < 2 ^ 53 := by exact_mod_cast hm
    refine .inr ⟨?_, hgrid.below.resolve_left (by omega)⟩
    calc (m * 2 ^ f : ℚ) < 2 ^ 53 * 2 ^ f := by gcongr
      _ = 2 ^ (53 + f) := pow_mul_zpow 53 f
      _ ≤ 2 ^ (52 + e) := zpow_le_zpow_right₀ one_le_two (by omega)
      _ = 2 ^ 52 * 2 ^ e := (pow_mul_zpow 52 e).symm

/-- A number of double precision that needs all its digits in front of the point has none behind
it. -/
theorem Representable.whole (hz : Representable z) (hlarge : 2 ^ 53 ≤ z) : ∃ i : Nat, z = i := by
  obtain ⟨m, e, hm, -, -, rfl⟩ := hz
  have hm' : (m : ℚ) < 2 ^ 53 := by exact_mod_cast hm
  have he : 0 ≤ e := by
    by_contra hneg
    have hstep : (2 : ℚ) ^ e ≤ 1 := zpow_le_one_of_nonpos₀ one_le_two (by omega)
    have hall : (m * 2 ^ e : ℚ) ≤ m := mul_le_of_le_one_right (by positivity) hstep
    linarith
  refine ⟨m * 2 ^ e.toNat, ?_⟩
  push_cast
  rw [← zpow_natCast, Int.toNat_of_nonneg he]

/-! ### The nearest number -/

theorem nearest_self (hx : Representable x) : Nearest x x where
  representable := hx
  least z _ := by
    rw [sub_self, abs_zero]
    exact abs_nonneg _
  even z _ htie := by
    rw [sub_self, abs_zero, abs_eq_zero, sub_eq_zero] at htie
    exact .inl htie.symm

/-- What is less than half the least positive number is rounded to zero. -/
theorem nearest_zero (hx : 0 ≤ x) (hsmall : x < 2 ^ minExponent / 2) : Nearest x 0 where
  representable := representable_zero
  least z hz := by
    rcases hz.eq_zero_or_le with rfl | hle
    · exact le_rfl
    · rw [sub_zero, abs_of_nonneg hx, abs_sub_comm, abs_of_nonneg (by linarith)]
      linarith
  even z hz htie := by
    rcases hz.eq_zero_or_le with rfl | hle
    · exact .inl rfl
    · rw [sub_zero, abs_of_nonneg hx, abs_sub_comm, abs_of_nonneg (by linarith)] at htie
      exact absurd htie (by linarith)

/-- There is only one nearest number. -/
theorem Nearest.unique (hy : Nearest x y) (hz : Nearest x z) : y = z := by
  have htie : |x - z| = |x - y| :=
    le_antisymm (hz.least y hy.representable) (hy.least z hz.representable)
  by_contra hne
  obtain ⟨m, hm⟩ := (hy.even z hz.representable htie).resolve_left (Ne.symm hne)
  obtain ⟨n, hn⟩ := (hz.even y hy.representable htie.symm).resolve_left hne
  rw [abs_sub_comm] at hn
  have hpos : 0 < |y - z| := abs_pos.mpr (sub_ne_zero.mpr hne)
  obtain ⟨d, hd⟩ : ∃ d, d = |y - z| := ⟨_, rfl⟩
  rw [← hd] at hm hn hpos
  -- two even multiples of their own distance
  have hdistance : 1 * d = |(2 * m - 2 * n : ℚ)| * d := by
    calc 1 * d = |2 * m * d - 2 * n * d| := by rw [← hm, ← hn, one_mul, hd]
      _ = |(2 * m - 2 * n : ℚ)| * d := by rw [← sub_mul, abs_mul, abs_of_pos hpos]
  have hodd : (1 : Int) = |(2 * m - 2 * n : Int)| :=
    by exact_mod_cast mul_right_cancel₀ hpos.ne' hdistance
  rcases abs_choice (2 * m - 2 * n : Int) with h | h
  · omega
  · omega

/-- What is at most some number is rounded to at most that number. -/
theorem Nearest.le (h : Nearest x y) (hz : Representable z) (hxz : x ≤ z) : y ≤ z := by
  by_contra hlt
  have hless := h.least z hz
  rw [not_le] at hlt
  rw [abs_sub_comm, abs_of_pos (by linarith), abs_sub_comm, abs_of_nonneg (by linarith)] at hless
  linarith

/-- What is at least some number is rounded to at least that number. -/
theorem Nearest.ge (h : Nearest x y) (hz : Representable z) (hzx : z ≤ x) : z ≤ y := by
  by_contra hlt
  have hless := h.least z hz
  rw [not_le] at hlt
  rw [abs_of_pos (by linarith), abs_of_nonneg (by linarith)] at hless
  linarith

/-- Of two numbers on a grid, the one that is off by at most half a step is as near as the other
one; both are as near only halfway between them, and then they are neighbours. -/
theorem near_of_multiple {q i : Nat} (hi : i ≠ q) (hnear : |x - q * 2 ^ e| ≤ 2 ^ e / 2) :
    |x - q * 2 ^ e| ≤ |x - i * 2 ^ e| ∧ (|x - i * 2 ^ e| = |x - q * 2 ^ e| →
      |x - q * 2 ^ e| = 2 ^ e / 2 ∧ |(q * 2 ^ e - i * 2 ^ e : ℚ)| = 2 ^ e) := by
  have hone : (1 : ℚ) ≤ |(q - i : ℚ)| := by
    have : (1 : Int) ≤ |(q - i : Int)| := Int.one_le_abs (by omega)
    exact_mod_cast this
  have hgap : (2 : ℚ) ^ e ≤ |(q * 2 ^ e - i * 2 ^ e : ℚ)| := by
    have hstep : (0 : ℚ) < 2 ^ e := by positivity
    rw [← sub_mul, abs_mul, abs_of_pos hstep]
    exact le_mul_of_one_le_left hstep.le hone
  have htriangle : |(q * 2 ^ e - i * 2 ^ e : ℚ)| ≤ |x - q * 2 ^ e| + |x - i * 2 ^ e| := by
    rw [abs_sub_comm x (q * 2 ^ e)]
    exact abs_sub_le _ x _
  exact ⟨by linarith, fun htie => ⟨by linarith, by linarith⟩⟩

/-- A number on the grid of a rational that is off by at most half a step is the nearest one, if
ties are even. -/
theorem nearest_of_multiple (hgrid : IsGrid x e) {q : Nat} (hrep : Representable (q * 2 ^ e))
    (hnear : |x - q * 2 ^ e| ≤ 2 ^ e / 2) (heven : |x - q * 2 ^ e| = 2 ^ e / 2 → 2 ∣ q) :
    Nearest x (q * 2 ^ e) := by
  have hle : ∀ i : Nat, |x - q * 2 ^ e| ≤ |x - i * 2 ^ e| := fun i => by
    by_cases hi : i = q
    · rw [hi]
    · exact (near_of_multiple hi hnear).1
  -- what is below the grid is below its first number of this size
  have hfar : ∀ z, z < 2 ^ 52 * 2 ^ e → 2 ^ 52 * 2 ^ e ≤ x → |x - q * 2 ^ e| < |x - z| :=
    fun z hbelow hsize => by
    have hfirst := hle (2 ^ 52)
    rw [Nat.cast_pow, Nat.cast_ofNat, abs_of_nonneg (sub_nonneg.mpr hsize)] at hfirst
    rw [abs_of_pos (by linarith : 0 < x - z)]
    linarith
  refine ⟨hrep, fun z hz => ?_, fun z hz htie => ?_⟩
  · rcases hz.multiple_or_below hgrid with ⟨i, rfl⟩ | ⟨hbelow, hsize⟩
    · exact hle i
    · exact (hfar z hbelow hsize).le
  · rcases hz.multiple_or_below hgrid with ⟨i, rfl⟩ | ⟨hbelow, hsize⟩
    · by_cases hi : i = q
      · exact .inl (by rw [hi])
      · obtain ⟨hmiddle, hdistance⟩ := (near_of_multiple hi hnear).2 htie
        obtain ⟨m, rfl⟩ := heven hmiddle
        refine .inr ⟨m, ?_⟩
        rw [hdistance]
        push_cast
        rfl
    · exact absurd htie (hfar z hbelow hsize).ne'

/-! ### Operations -/

/-- The number of steps is off by at most half a step. -/
theorem steps_near (num : Nat) (hden : 0 < den) (e : Int) :
    |(num / den - steps num den e * 2 ^ e : ℚ)| ≤ 2 ^ e / 2 ∧
    (|(num / den - steps num den e * 2 ^ e : ℚ)| = 2 ^ e / 2 → 2 ∣ steps num den e) := by
  have hstep : (0 : ℚ) < 2 ^ e := by positivity
  obtain ⟨hnear, heven⟩ := roundDiv_near (scaled num den e).1 (@scaled_pos num den hden e)
  rw [scaled_ratio] at hnear heven
  have hscale : |(num / den - steps num den e * 2 ^ e : ℚ)| =
      |(num / den / 2 ^ e - steps num den e : ℚ)| * 2 ^ e := by
    rw [← abs_of_pos hstep, ← abs_mul, abs_of_pos hstep, sub_mul, div_mul_cancel₀ _ hstep.ne']
  rw [hscale, show (2 ^ e / 2 : ℚ) = 1 / 2 * 2 ^ e by ring]
  exact ⟨mul_le_mul_of_nonneg_right hnear hstep.le,
    fun hhalf => heven (mul_right_cancel₀ hstep.ne' hhalf)⟩

/-- A number of double precision is not moved, and any other one of its size by at most one part in
`2 ^ 53`. -/
theorem Nearest.relative_error (hnum : 0 < num) (hden : 0 < den) (h : Nearest (num / den) y)
    (hlow : (2 : ℚ) ^ 53 * 2 ^ minExponent ≤ num / den)
    (hhigh : (num / den : ℚ) < 2 ^ 52 * 2 ^ maxExponent) :
    |num / den - y| ≤ num / den / 2 ^ 53 := by
  have hgrid := isGrid_gridExponent hnum hden
  generalize gridExponent num den = e at hgrid
  -- above the subnormal numbers the grid has 53 digits
  have hsize : (2 ^ 52 * 2 ^ e : ℚ) ≤ num / den := hgrid.below.resolve_left fun he => by
    have habove := hgrid.above
    rw [he] at habove
    exact absurd habove (not_lt.mpr hlow)
  have hmost : e < maxExponent := by
    have hless := lt_of_le_of_lt hsize hhigh
    rwa [mul_lt_mul_iff_right₀ (by positivity), zpow_lt_zpow_iff_right₀ one_lt_two] at hless
  have hsteps : steps num den e ≤ 2 ^ 53 := steps_le hden (by exact_mod_cast hgrid.above)
  have hrep := representable_mul hsteps hgrid.least hmost
  calc |(num / den - y : ℚ)| ≤ |(num / den - steps num den e * 2 ^ e : ℚ)| := h.least _ hrep
    _ ≤ 2 ^ e / 2 := (steps_near num hden e).1
    _ ≤ num / den / 2 ^ 53 := by
      rw [le_div_iff₀ (by positivity)]
      linarith

/-- Steps that do not overflow keep their value, as a number of double precision. -/
theorem ofSteps_eq_finite {q m : Nat} {f : Int} (hq : q ≤ 2 ^ 53) (hleast : minExponent ≤ e)
    (h : ofSteps false q e = finite false m f) :
    (q * 2 ^ e : ℚ) = m * 2 ^ f ∧ Representable (q * 2 ^ e) := by
  unfold ofSteps at h
  by_cases hcarry : q = 2 ^ 53
  · simp only [hcarry, beq_self_eq_true, if_true] at h
    split at h
    · cases h
    · cases h
      have hvalue : (q * 2 ^ e : ℚ) = (2 ^ 52 : Nat) * 2 ^ (e + 1) := by rw [hcarry, carry_value]
      exact ⟨hvalue, 2 ^ 52, e + 1, by decide, by omega, by omega, hvalue⟩
  · simp only [beq_eq_false_iff_ne.mpr hcarry, Bool.false_eq_true, if_false] at h
    split at h
    · cases h
    · cases h
      exact ⟨rfl, q, e, lt_of_le_of_ne hq hcarry, hleast, by omega, rfl⟩

/-- A ratio is rounded to the nearest number. -/
theorem rounds_ofRatio (num : Nat) (hden : 0 < den) :
    Rounds (num / den) (ofRatio false num den) := by
  rcases Nat.eq_zero_or_pos num with rfl | hnum
  · refine .near (m := 0) (e := minExponent) ?_
    simpa using nearest_self representable_zero
  have hgrid := isGrid_gridExponent hnum hden
  have hsteps : steps num den (gridExponent num den) ≤ 2 ^ 53 :=
    steps_le hden (by exact_mod_cast hgrid.above)
  rcases ofRatio_inRange num hden with hinfinite | ⟨m, f, hfinite, -, -⟩
  · rw [hinfinite]
    refine .overflow ?_
    rw [← reaches_ofRatio_iff hden (by decide) (by decide) le_rfl (by decide) le_rfl, hinfinite]
    rfl
  · rw [hfinite]
    rw [ofRatio_eq_ofSteps false hnum] at hfinite
    obtain ⟨hvalue, hrep⟩ := ofSteps_eq_finite hsteps hgrid.least hfinite
    obtain ⟨hnear, heven⟩ := steps_near num hden (gridExponent num den)
    exact .near (hvalue ▸ nearest_of_multiple hgrid hrep hnear heven)

/-- A decimal number that is too small to be looked at is less than half the least positive
number. -/
theorem ten_zpow_lt_half : (10 : ℚ) ^ (-330 : Int) < 2 ^ minExponent / 2 := by
  have hpow : (2 ^ 1075 : Nat) < 10 ^ 330 := by decide +kernel
  calc (10 : ℚ) ^ (-330 : Int) = ((10 ^ 330 : Nat) : ℚ)⁻¹ := by
        rw [zpow_of_neg 10 (by decide), Nat.cast_pow, Nat.cast_ofNat]
        rfl
    _ < ((2 ^ 1075 : Nat) : ℚ)⁻¹ :=
      inv_strictAnti₀ (Nat.cast_pos.mpr (by decide +kernel)) (Nat.cast_lt.mpr hpow)
    _ = 2 ^ (minExponent - 1) := by
      rw [zpow_of_neg 2 (by decide), Nat.cast_pow, Nat.cast_ofNat]
      rfl
    _ = 2 ^ minExponent / 2 := zpow_sub_one₀ two_ne_zero _

/-- A decimal number is rounded to the nearest number, also where its size alone decides. -/
theorem rounds_ofDecimal (digits : Nat) (exponent : Int) :
    Rounds (digits * 10 ^ exponent) (ofDecimal false digits exponent) := by
  have hreaches := reaches_ofDecimal_iff (M := 2 ^ 53) (by decide) (by decide) le_rfl (by decide)
    (le_refl maxExponent) digits exponent
  unfold ofDecimal at hreaches ⊢
  dsimp only at hreaches ⊢
  split
  · rename_i hsmall
    refine .near (m := 0) (e := minExponent) ?_
    rw [Nat.cast_zero, zero_mul]
    refine nearest_zero (by positivity) ?_
    rcases (Bool.or_eq_true _ _).mp hsmall with hzero | hsize
    · rw [eq_of_beq hzero, Nat.cast_zero, zero_mul]
      positivity
    · exact (decimal_le_of_length (of_decide_eq_true hsize)).trans_lt ten_zpow_lt_half
  · rename_i hsmall
    rw [if_neg hsmall] at hreaches
    split
    · rename_i hlarge
      rw [if_pos hlarge] at hreaches
      exact .overflow (hreaches.mp rfl)
    · split
      · rename_i hnegative
        rw [zpow_of_neg 10 hnegative, ← div_eq_mul_inv]
        exact_mod_cast rounds_ofRatio digits (Nat.pow_pos (by decide))
      · rename_i hnegative
        rw [zpow_of_not_neg 10 hnegative]
        simpa using rounds_ofRatio (digits * 10 ^ exponent.natAbs) Nat.one_pos

/-- A thousandfold is rounded to the nearest number. -/
theorem rounds_mul_thousand (m : Nat) (e : Int) :
    Rounds (m * 2 ^ e * 1000) ((finite false m e).mul (ofInt 1000)) := by
  rw [mul_thousand, ← ratio_thousand]
  exact rounds_ofRatio _ (ratio_pos _ _)

/-- The whole part is what its name says. -/
theorem truncate?_finite (m : Nat) (e : Int) :
    (finite false m e).truncate? = some ⌊(m * 2 ^ e : ℚ)⌋ := by
  rw [← ratio_value, Rat.floor_natCast_div_natCast]
  rfl

/-! ### Results in range -/

variable {b : Binary64}

/-- What is at most a number of double precision does not overflow. -/
theorem Rounds.near_of_le (h : Rounds x b) (hz : Representable z) (hxz : x ≤ z) :
    ∃ m e, b = finite false m e ∧ Nearest x (m * 2 ^ e) := by
  cases h with
  | near nearest => exact ⟨_, _, rfl, nearest⟩
  | overflow large => exact absurd (hxz.trans_lt hz.lt_overflow) (not_lt.mpr large)

/-- A number of double precision is rounded to itself. -/
theorem Rounds.of_representable (h : Rounds x b) (hx : Representable x) :
    ∃ m e, b = finite false m e ∧ (m * 2 ^ e : ℚ) = x := by
  obtain ⟨m, e, rfl, hnearest⟩ := h.near_of_le hx le_rfl
  exact ⟨m, e, rfl, hnearest.unique (nearest_self hx)⟩

end Binary64

end PlainSteps
