import PlainSteps.Proofs.Facts.Duration
import PlainSteps.Proofs.Number.Nearest

/-! # What a duration is converted to

The amount of a duration is rounded when it is read; seconds are then multiplied by a thousand and
rounded once more, and what is left of a millisecond is cut off. Whole milliseconds are kept exactly
as long as their number is one of double precision. Seconds with three decimal places that come to
fewer than `2 ^ 52` milliseconds come out exactly or one millisecond short: short where the two
roundings end below the whole number, by however little (`wait_converts`).
-/

namespace PlainSteps

open Binary64

namespace Numeral

/-- Digits with a point are read to the nearest number. -/
theorem rounds_fraction (t : Text) : Rounds (value t) (fraction t) := by
  rw [value_eq]
  exact rounds_ofDecimal _ _

/-- How many digits stand behind the point. -/
def places (t : Text) : Nat := (digitsOf (t.drop ((t.takeWhile (· != '.')).length + 1))).length

/-- With three decimal places at most, a number is a number of thousandths. -/
theorem exists_thousandths {t : Text} (h : places t ≤ 3) : ∃ k : Nat, value t = k / 1000 := by
  unfold places at h
  unfold value
  dsimp only
  generalize digitsOf (t.drop ((t.takeWhile (· != '.')).length + 1)) = after at h ⊢
  generalize ofDigits (digitsOf (t.takeWhile (· != '.'))) = whole
  refine ⟨whole * 1000 + ofDigits after * 10 ^ (3 - after.length), ?_⟩
  have hpow : (1000 : ℚ) = 10 ^ (3 - after.length) * 10 ^ after.length := by
    rw [← pow_add, Nat.sub_add_cancel h]
    norm_num
  push_cast
  rw [add_div, mul_div_cancel_right₀ _ (by norm_num), hpow, mul_comm (10 ^ (3 - after.length) : ℚ),
    mul_div_mul_right _ _ (by positivity)]

end Numeral

namespace Facts

/-- What a number of milliseconds makes of a wait. -/
def outcome (ms : Binary64) : Except DurationError Int :=
  match ms.truncate? with
  | some ms => .ok ms
  | none => .error .infinite

theorem outcome_finite (m : Nat) (e : Int) :
    outcome (finite false m e) = .ok ⌊(m * 2 ^ e : ℚ)⌋ := by
  rw [outcome, truncate?_finite]

/-- The first rounding moves fewer than `2 ^ 52` thousandths by half a thousandth at most. -/
theorem thousandfold_near {k : Nat} {a : ℚ} (hk : k < 2 ^ 52) (h : Nearest (k / 1000) a) :
    |(k - a * 1000 : ℚ)| ≤ 1 / 2 := by
  have hk' : (k : ℚ) < 2 ^ 52 := by exact_mod_cast hk
  rcases Nat.eq_zero_or_pos k with rfl | hpos
  · rw [Nat.cast_zero, zero_div] at h
    rw [h.unique (nearest_self representable_zero)]
    norm_num
  · have hone : (1 : ℚ) ≤ k := by exact_mod_cast hpos
    -- a thousandth and more is far from the subnormal numbers
    have hlow : (2 : ℚ) ^ 53 * 2 ^ minExponent ≤ k / (1000 : Nat) :=
      calc (2 : ℚ) ^ 53 * 2 ^ minExponent = 2 ^ (53 + minExponent) := pow_mul_zpow 53 minExponent
        _ ≤ 2 ^ (-10 : Int) := zpow_le_zpow_right₀ one_le_two (by decide)
        _ ≤ k / (1000 : Nat) := by
          rw [le_div_iff₀ (by norm_num)]
          norm_num
          linarith
    have hhigh : (k / (1000 : Nat) : ℚ) < 2 ^ 52 * 2 ^ maxExponent :=
      calc (k / (1000 : Nat) : ℚ) < 2 ^ 52 := by
            rw [div_lt_iff₀ (by norm_num)]
            push_cast
            linarith
        _ ≤ 2 ^ 52 * 2 ^ maxExponent :=
          le_mul_of_one_le_right (by positivity) (one_le_zpow₀ one_le_two (by decide))
    have herror := Nearest.relative_error hpos (by decide) (by exact_mod_cast h) hlow hhigh
    have hscale : (k - a * 1000 : ℚ) = (k / (1000 : Nat) - a) * 1000 := by
      push_cast
      ring
    rw [hscale, abs_mul, abs_of_pos (by norm_num : (0 : ℚ) < 1000)]
    push_cast at herror
    linarith

theorem representable_half {k : Nat} (hk : k < 2 ^ 52) : Representable (k + 1 / 2) := by
  refine ⟨2 * k + 1, -1, by omega, by decide, by decide, ?_⟩
  push_cast
  rw [zpow_neg_one]
  ring

/-- The second rounding reaches a whole number from half a step below it on. Between the half of `2
^ 53` and all of it, the steps below `k` are of the size `2 ^ (-j)`. -/
theorem reaches_thousandfold_iff {j k : Nat} (hk : k < 2 ^ 52) (hlow : 2 ^ 52 < k * 2 ^ j)
    (hhigh : k * 2 ^ j ≤ 2 ^ 53) {m : Nat} {e : Int} :
    Reaches k ((finite false m e).mul (ofInt 1000)) ↔
      (k - 1 / 2 ^ (j + 1) : ℚ) ≤ m * 2 ^ e * 1000 := by
  have heven : 2 ∣ k * 2 ^ j := by
    rcases j with _ | i
    · omega
    · exact Dvd.dvd.mul_left (dvd_pow_self 2 (by omega)) k
  have hpos : 0 < k := Nat.pos_of_ne_zero (by rintro rfl; omega)
  have hj : j ≤ 53 :=
    (Nat.pow_le_pow_iff_right (by decide)).mp (le_trans (Nat.le_mul_of_pos_left _ hpos) hhigh)
  have hmin : minExponent ≤ -(j : Int) := by
    unfold minExponent
    omega
  have hmax : -(j : Int) ≤ maxExponent := le_trans (by omega) (by decide : 0 ≤ maxExponent)
  have hbound : ((k * 2 ^ j : Nat) * 2 ^ (-(j : Int)) : ℚ) = k := by
    rw [zpow_neg, zpow_natCast, ← div_eq_mul_inv, Nat.cast_mul, Nat.cast_pow, Nat.cast_ofNat,
      mul_div_cancel_right₀ _ (by positivity)]
  have hhalf : (((k * 2 ^ j : Nat) - 1 / 2) * 2 ^ (-(j : Int)) : ℚ) = k - 1 / 2 ^ (j + 1) := by
    rw [sub_mul, hbound, zpow_neg, zpow_natCast, pow_succ]
    ring
  have hreaches := reaches_mul_thousand_iff heven hlow hhigh hmin hmax m e
  rwa [hbound, hhalf] at hreaches

variable {text : Text} {f : Pattern.Found} {k n : Nat}

theorem ends_of_wait {ms : Int} (h : wait text = .ok ms) : ¬ Endless text := by
  simp [← wait_eq_error_iff text .infinite, h]

/-! ### Milliseconds -/

section Milliseconds

variable (hfind : duration.find? text = some f)
  (hunit : Text.startsWith ['m'] (Text.lower (f.group 2)) = true)

include hfind hunit

theorem wait_milliseconds_eq : wait text = outcome (Numeral.fraction (f.group 1)) := by
  rw [wait_of_find hfind, if_pos hunit]
  rfl

/-- Milliseconds are rounded once. -/
theorem wait_milliseconds (hends : ¬ Endless text) :
    ∃ a, Nearest (Numeral.value (f.group 1)) a ∧ wait text = .ok ⌊a⌋ := by
  rw [← wait_eq_error_iff text .infinite] at hends
  rw [wait_milliseconds_eq hfind hunit] at hends ⊢
  have hrounds := Numeral.rounds_fraction (f.group 1)
  generalize Numeral.fraction (f.group 1) = b at hends hrounds ⊢
  cases hrounds with
  | near nearest => exact ⟨_, nearest, outcome_finite _ _⟩
  | overflow => exact absurd rfl hends

theorem wait_milliseconds_ok_iff (ms : Int) :
    wait text = .ok ms ↔ ¬ Endless text ∧ ∃ a, Nearest (Numeral.value (f.group 1)) a ∧
    ⌊a⌋ = ms := by
  constructor
  · intro hwait
    obtain ⟨a, hnearest, hfloor⟩ := wait_milliseconds hfind hunit (ends_of_wait hwait)
    exact ⟨ends_of_wait hwait, a, hnearest, Except.ok.inj (hfloor.symm.trans hwait)⟩
  · rintro ⟨hends, a, hnearest, rfl⟩
    obtain ⟨a', hnearest', hfloor⟩ := wait_milliseconds hfind hunit hends
    rw [hfloor, hnearest'.unique hnearest]

/-- Whole milliseconds are kept just when they are a number of double precision. -/
theorem wait_whole_iff (hvalue : Numeral.value (f.group 1) = n) :
    wait text = .ok (n : Int) ↔ Representable n := by
  constructor
  · intro hwait
    obtain ⟨-, a, hnearest, hfloor⟩ := (wait_milliseconds_ok_iff hfind hunit n).mp hwait
    obtain ⟨hlow, hhigh⟩ := Int.floor_eq_iff.mp hfloor
    rcases Nat.le_total n (2 ^ 53) with hsmall | hlarge
    · exact representable_natCast hsmall
    · -- so large a number has no digits behind the point
      have hlarge' : (2 : ℚ) ^ 53 ≤ n := by exact_mod_cast hlarge
      rw [Int.cast_natCast] at hlow hhigh
      obtain ⟨i, rfl⟩ := hnearest.representable.whole (hlarge'.trans hlow)
      obtain rfl : n = i :=
        le_antisymm (by exact_mod_cast hlow) (Nat.lt_succ_iff.mp (by exact_mod_cast hhigh))
      exact hnearest.representable
  · intro hrep
    obtain ⟨m, e, hfraction, hme⟩ :=
      (Numeral.rounds_fraction (f.group 1)).of_representable (hvalue ▸ hrep)
    rw [wait_milliseconds_eq hfind hunit, hfraction, outcome_finite, hme, hvalue, Int.floor_natCast]

end Milliseconds

/-! ### Seconds -/

section Seconds

variable (hfind : duration.find? text = some f)
  (hunit : Text.startsWith ['m'] (Text.lower (f.group 2)) = false)

include hfind hunit

theorem wait_seconds_eq :
    wait text = outcome ((Numeral.fraction (f.group 1)).mul (ofInt 1000)) := by
  rw [wait_of_find hfind, if_neg (by simp [hunit])]
  rfl

/-- Seconds are rounded twice. -/
theorem wait_seconds (hends : ¬ Endless text) :
    ∃ a b, Nearest (Numeral.value (f.group 1)) a ∧ Nearest (a * 1000) b ∧ wait text = .ok ⌊b⌋ := by
  rw [← wait_eq_error_iff text .infinite] at hends
  rw [wait_seconds_eq hfind hunit] at hends ⊢
  have hrounds := Numeral.rounds_fraction (f.group 1)
  generalize Numeral.fraction (f.group 1) = a at hends hrounds ⊢
  cases hrounds with
  | @near m e nearest =>
    have hthousand := rounds_mul_thousand m e
    generalize (finite false m e).mul (ofInt 1000) = b at hends hthousand ⊢
    cases hthousand with
    | near thousand => exact ⟨_, _, nearest, thousand, outcome_finite _ _⟩
    | overflow => exact absurd rfl hends
  | overflow =>
    rw [ofInt_thousand] at hends
    exact absurd rfl hends

theorem wait_seconds_ok_iff (ms : Int) : wait text = .ok ms ↔
    ¬ Endless text ∧ ∃ a b, Nearest (Numeral.value (f.group 1)) a ∧
    Nearest (a * 1000) b ∧ ⌊b⌋ = ms := by
  constructor
  · intro hwait
    obtain ⟨a, b, hnearest, hthousand, hfloor⟩ := wait_seconds hfind hunit (ends_of_wait hwait)
    exact ⟨ends_of_wait hwait, a, b, hnearest, hthousand, Except.ok.inj (hfloor.symm.trans hwait)⟩
  · rintro ⟨hends, a, b, hnearest, hthousand, rfl⟩
    obtain ⟨a', b', hnearest', hthousand', hfloor⟩ := wait_seconds hfind hunit hends
    obtain rfl := hnearest'.unique hnearest
    rw [hfloor, hthousand'.unique hthousand]

/-- Where neither rounding moves anything, the milliseconds are exact. -/
theorem wait_seconds_of_representable (hvalue : Numeral.value (f.group 1) = k / 1000)
    (hrep : Representable (k / 1000)) (hk : Representable k) : wait text = .ok (k : Int) := by
  obtain ⟨m, e, hfraction, hme⟩ :=
    (Numeral.rounds_fraction (f.group 1)).of_representable (hvalue ▸ hrep)
  have hthousand : (m * 2 ^ e * 1000 : ℚ) = k := by
    rw [hme, hvalue]
    ring
  obtain ⟨m', e', hmul, hme'⟩ := (rounds_mul_thousand m e).of_representable (hthousand ▸ hk)
  rw [wait_seconds_eq hfind hunit, hfraction, hmul, outcome_finite, hme', hthousand,
    Int.floor_natCast]

/-- Fewer than `2 ^ 52` thousandths come out as they are or one less, as the first rounding has
it. -/
theorem wait_thousandths (hvalue : Numeral.value (f.group 1) = k / 1000) (hk : k < 2 ^ 52) :
    ∃ a, Nearest (k / 1000) a ∧ (wait text = .ok (k : Int) ∨ wait text = .ok (k - 1 : Int)) ∧
      ∀ j, 2 ^ 52 < k * 2 ^ j → k * 2 ^ j ≤ 2 ^ 53 →
        (wait text = .ok (k : Int) ↔ (k - 1 / 2 ^ (j + 1) : ℚ) ≤ a * 1000) := by
  have hrounds := Numeral.rounds_fraction (f.group 1)
  rw [hvalue] at hrounds
  obtain ⟨m, e, hfraction, hnearest⟩ :=
    hrounds.near_of_le (representable_natCast (n := k) (by omega)) (by
    have : (0 : ℚ) ≤ k := by positivity
    linarith)
  have hhalf := abs_le.mp (thousandfold_near hk hnearest)
  obtain ⟨m', e', hmul, hthousand⟩ :=
    (rounds_mul_thousand m e).near_of_le (representable_half hk) (by linarith)
  -- rounding is monotone and keeps whole numbers and halves, so the second one stays between two of
  -- them
  have habove := hthousand.le (representable_half hk) (by linarith)
  have hbelow : (k - 1 : ℚ) ≤ m' * 2 ^ e' := by
    rcases k with _ | i
    · rw [Nat.cast_zero, zero_sub]
      exact (by norm_num : (-1 : ℚ) ≤ 0).trans (by positivity)
    · push_cast at hhalf ⊢
      rw [add_sub_cancel_right]
      exact hthousand.ge (representable_natCast (by omega)) (by linarith)
  have hwait : wait text = .ok ⌊(m' * 2 ^ e' : ℚ)⌋ := by
    rw [wait_seconds_eq hfind hunit, hfraction, hmul, outcome_finite]
  have hexact : wait text = .ok (k : Int) ↔ (k : ℚ) ≤ m' * 2 ^ e' := by
    rw [hwait, Except.ok.injEq, Int.floor_eq_iff, Int.cast_natCast]
    exact and_iff_left (by linarith)
  refine ⟨_, hnearest, ?_, fun j hlow hhigh => ?_⟩
  · rcases le_or_gt (k : ℚ) (m' * 2 ^ e') with hle | hlt
    · exact .inl (hexact.mpr hle)
    · refine .inr ?_
      rw [hwait, Except.ok.injEq, Int.floor_eq_iff]
      push_cast
      exact ⟨hbelow, by linarith⟩
  · rw [hexact, ← reaches_thousandfold_iff hk hlow hhigh, hmul]
    simp [Reaches]

end Seconds

/-- **Whole milliseconds are exact just when they are a number of double precision; thousandths of a
second are exact, or short by one.** Milliseconds are rounded once and seconds twice, each time to
the nearest number, and the whole part of the last one is what comes out, if the duration is not too
long. So whole milliseconds come out as they are written if they are such a number, as all of them
up to `2 ^ 53` are, and not otherwise. Seconds with three decimal places come out exactly where
neither rounding moves them. Below `2 ^ 52` milliseconds they may otherwise lose one: just when the
thousandfold of the rounded seconds is more than half a step below the whole number, where a step is
the distance of the numbers of double precision below it. -/
theorem wait_converts (text : Text) (f : Pattern.Found) (hfind : duration.find? text = some f) :
    let value := Numeral.value (f.group 1)
    (Text.startsWith ['m'] (Text.lower (f.group 2)) = true →
      (∀ ms : Int, wait text = .ok ms ↔ ¬ Endless text ∧ ∃ a, Nearest value a ∧ ⌊a⌋ = ms) ∧
      ∀ n : Nat, value = n → (wait text = .ok (n : Int) ↔ Representable n) ∧
        (n ≤ 2 ^ 53 → wait text = .ok (n : Int))) ∧
    (Text.startsWith ['m'] (Text.lower (f.group 2)) = false →
      (∀ ms : Int, wait text = .ok ms ↔
        ¬ Endless text ∧ ∃ a b, Nearest value a ∧ Nearest (a * 1000) b ∧ ⌊b⌋ = ms) ∧
      (Numeral.places (f.group 1) ≤ 3 → ∃ k : Nat, value = k / 1000) ∧
      ∀ k : Nat, value = k / 1000 →
        (Representable (k / 1000) → Representable k → wait text = .ok (k : Int)) ∧
        (k < 2 ^ 52 → ∃ a, Nearest (k / 1000) a ∧
          (wait text = .ok (k : Int) ∨ wait text = .ok (k - 1 : Int)) ∧
          ∀ j, 2 ^ 52 < k * 2 ^ j → k * 2 ^ j ≤ 2 ^ 53 →
            (wait text = .ok (k : Int) ↔ (k - 1 / 2 ^ (j + 1) : ℚ) ≤ a * 1000))) := by
  refine ⟨fun hunit => ⟨wait_milliseconds_ok_iff hfind hunit, fun n hvalue => ?_⟩,
    fun hunit =>
      ⟨wait_seconds_ok_iff hfind hunit, Numeral.exists_thousandths, fun k hvalue => ⟨?_, ?_⟩⟩⟩
  · have hiff := wait_whole_iff hfind hunit hvalue
    exact ⟨hiff, fun hn => hiff.mpr (representable_natCast hn)⟩
  · exact wait_seconds_of_representable hfind hunit hvalue
  · exact wait_thousandths hfind hunit hvalue

/-- Half seconds and whole milliseconds are kept. -/
theorem wait_converts_half :
    (∃ f, duration.find? "Wait 2.5 s" = some f ∧ Numeral.value (f.group 1) = (2500 : Nat) / 1000 ∧
      wait "Wait 2.5 s" = .ok 2500) ∧
    ∃ f, duration.find? "Wait 700 ms" = some f ∧ Numeral.value (f.group 1) = (700 : Nat) ∧
      wait "Wait 700 ms" = .ok 700 := by
  have hseconds : Numeral.value "2.5" = (2500 : Nat) / 1000 := by decide +kernel
  have hmilliseconds : Numeral.value "700" = (700 : Nat) := by decide +kernel
  refine ⟨⟨_, rfl, hseconds, ?_⟩, _, rfl, hmilliseconds, ?_⟩
  · refine (((wait_converts "Wait 2.5 s" _ rfl).2 rfl).2.2 2500 hseconds).1 ?_ ?_
    · exact ⟨5, -1, by decide, by decide, by decide, by norm_num⟩
    · exact ⟨2500, 0, by decide, by decide, by decide, by norm_num⟩
  · exact (((wait_converts "Wait 700 ms" _ rfl).1 rfl).2 700 hmilliseconds).2 (by decide)

/-- A second and a thousandth loses the thousandth, and so many milliseconds the last one. -/
theorem wait_loses_a_millisecond :
    (∃ f, duration.find? "Wait 1.001 s" = some f ∧ Numeral.value (f.group 1) = 1001 / 1000 ∧
      wait "Wait 1.001 s" = .ok 1000) ∧
    ∃ f, duration.find? "Wait 9007199254740993 ms" = some f ∧
      Numeral.value (f.group 1) = 9007199254740993 ∧
      wait "Wait 9007199254740993 ms" = .ok 9007199254740992 := by
  have hseconds : Numeral.value "1.001" = 1001 / 1000 := by decide +kernel
  have hmilliseconds : Numeral.value "9007199254740993" = 9007199254740993 := by decide +kernel
  exact ⟨⟨_, rfl, hseconds, by decide +kernel⟩, _, rfl, hmilliseconds, by decide +kernel⟩

end Facts

end PlainSteps
