import PlainSteps.Facts.Duration
import PlainSteps.Proofs.Number.Decimal

/-! # Waits without end

Every text asks to wait for some time, except one whose first duration is so long that its
milliseconds are no number of double precision. Where that begins is a fixed amount for each of the
two units, and the amount is that of the decimal number as it is written, not of the one it is read
to.
-/

namespace PlainSteps

namespace Numeral

/-- The values of the digits in a text. -/
def digitsOf (t : Text) : List Nat := t.filterMap Text.digitValue?

/-- The number that digits, a point and further digits write. -/
def value (t : Text) : ℚ :=
  let before := t.takeWhile (· != '.')
  let after := digitsOf (t.drop (before.length + 1))
  ofDigits (digitsOf before) + ofDigits after / 10 ^ after.length

theorem foldl_digits (ds : List Nat) (n : Nat) :
    ds.foldl (fun n d => n * 10 + d) n = n * 10 ^ ds.length + ofDigits ds := by
  induction ds generalizing n with
  | nil => simp [ofDigits]
  | cons d rest ih =>
    have hrest : ofDigits (d :: rest) = d * 10 ^ rest.length + ofDigits rest := by
      rw [ofDigits, List.foldl_cons, ih]
      ring
    rw [List.foldl_cons, ih, hrest, List.length_cons]
    ring

theorem ofDigits_append (a b : List Nat) :
    ofDigits (a ++ b) = ofDigits a * 10 ^ b.length + ofDigits b := by
  rw [ofDigits, List.foldl_append, foldl_digits]
  rfl

/-- The number is that of all its digits, with the point moved in front of the last ones. -/
theorem value_eq (t : Text) :
    let before := t.takeWhile (· != '.')
    let after := digitsOf (t.drop (before.length + 1))
    value t = ofDigits (digitsOf before ++ after) * 10 ^ (-(after.length : Int)) := by
  dsimp only
  rw [ofDigits_append, zpow_neg, zpow_natCast]
  push_cast
  rw [← div_eq_mul_inv, add_div, mul_div_cancel_right₀ _ (by positivity)]
  rfl

variable {M : Nat} {E : Int}

theorem reaches_fraction_iff (heven : 2 ∣ M) (hlow : 2 ^ 52 < M) (hhigh : M ≤ 2 ^ 53) (hmin : 0 ≤ E)
    (hmax : E ≤ Binary64.maxExponent) (t : Text) :
    (fraction t).Reaches (M * 2 ^ E) ↔ ((M - 1 / 2) * 2 ^ E : ℚ) ≤ value t := by
  rw [value_eq]
  exact Binary64.reaches_ofDecimal_iff heven hlow hhigh hmin hmax _ _

theorem fraction_inRange (t : Text) : (fraction t).InRange := Binary64.ofDecimal_inRange _ _

end Numeral

namespace Facts

open Binary64

/-- The least amount, in milliseconds or in seconds, that is too long for a wait. -/
def leastEndless (milliseconds : Bool) : ℚ :=
  if milliseconds then 2 ^ 1024 - 2 ^ 970 else 9223372036854775 * 2 ^ 961

/-- A text whose first duration is too long. -/
def Endless (text : Text) : Prop :=
  ∃ f, duration.find? text = some f ∧
    leastEndless (Text.startsWith ['m'] (Text.lower (f.group 2))) ≤ Numeral.value (f.group 1)

theorem milliseconds_overflow (t : Text) :
    (Numeral.fraction t).truncate? = none ↔ leastEndless true ≤ Numeral.value t := by
  have hleast : (((2 ^ 53 : Nat) - 1 / 2) * 2 ^ maxExponent : ℚ) = leastEndless true := by
    have hscale : (2 : ℚ) ^ maxExponent = 2 ^ 1 * 2 ^ 970 := by
      rw [← pow_add, ← zpow_natCast]
      rfl
    have htop : (2 : ℚ) ^ 1024 = 2 ^ 54 * 2 ^ 970 := (pow_add 2 54 970)
    rw [leastEndless, if_pos rfl, hscale, htop]
    -- the powers are too large to be computed with
    generalize (2 : ℚ) ^ 970 = step
    push_cast
    ring
  rw [(Numeral.fraction_inRange t).truncate?_eq_none_iff, tooLarge_eq_mul,
    Numeral.reaches_fraction_iff (by decide) (by decide) le_rfl (by decide) le_rfl, hleast]

theorem seconds_overflow (t : Text) :
    ((Numeral.fraction t).mul (ofInt 1000)).truncate? = none ↔
    leastEndless false ≤ Numeral.value t := by
  have hleast : (((4611686018427388 : Nat) - 1 / 2) * 2 ^ (962 : Int) : ℚ) =
      leastEndless false := by
    have hscale : (2 : ℚ) ^ (962 : Int) = 2 ^ 1 * 2 ^ 961 := by
      rw [← pow_add, ← zpow_natCast]
      rfl
    rw [leastEndless, if_neg Bool.false_ne_true, hscale]
    generalize (2 : ℚ) ^ 961 = step
    push_cast
    ring
  rw [(Numeral.fraction_inRange t).mul_thousand_iff, leastLong,
    Numeral.reaches_fraction_iff (by decide) (by decide) (by decide) (by decide) (by decide),
      hleast]

/-- What a wait comes to: its milliseconds, if they are a number. -/
theorem wait_of_find {text : Text} {f : Pattern.Found} (h : duration.find? text = some f) :
    wait text = match (if Text.startsWith ['m'] (Text.lower (f.group 2)) then
      Numeral.fraction (f.group 1)
      else (Numeral.fraction (f.group 1)).mul (ofInt 1000)).truncate? with
      | some ms => .ok ms
      | none => .error .infinite := by
  unfold wait
  generalize duration.find? text = found at h ⊢
  subst h
  rfl

/-- **A wait has no length exactly when it is too long.** -/
theorem wait_eq_error_iff (text : Text) (e : DurationError) :
    wait text = .error e ↔ Endless text := by
  cases e
  cases hfind : duration.find? text with
  | none =>
    refine iff_of_false ?_ ?_
    · unfold wait
      rw [hfind]
      simp
    · rintro ⟨f, hf, -⟩
      rw [hfind] at hf
      cases hf
  | some f =>
    have hendless : Endless text ↔
        leastEndless (Text.startsWith ['m'] (Text.lower (f.group 2))) ≤
          Numeral.value (f.group 1) := by
      simp [Endless, hfind]
    rw [hendless, wait_of_find hfind]
    cases hunit : Text.startsWith ['m'] (Text.lower (f.group 2)) with
    | true =>
      rw [← milliseconds_overflow, if_pos rfl]
      split <;> simp [*]
    | false =>
      rw [← seconds_overflow, if_neg Bool.false_ne_true]
      split <;> simp [*]

/-- A whole number in range has few enough digits to be read. -/
theorem whole_ofInt_of_lt {n : Nat} (h : (n : ℚ) < tooLarge) :
    Numeral.whole (Text.ofInt n) = .ok n := by
  have hpow : 2 ^ 1024 ≤ 10 ^ Numeral.maxDigits := by decide +kernel
  rw [tooLarge_eq, Nat.cast_lt] at h
  rw [Text.ofInt_natCast]
  exact Numeral.whole_ofNat ((Nat.length_toDigits_le_iff (by decide) (by decide)).mpr
    (lt_of_lt_of_le h hpow))

/-- A wait is a natural number of milliseconds, and in range. -/
theorem exists_natCast_of_wait {text : Text} {ms : Int} (h : wait text = .ok ms) :
    ∃ n : Nat, ms = n ∧ (n : ℚ) < tooLarge := by
  cases hfind : duration.find? text with
  | none =>
    unfold wait at h
    rw [hfind] at h
    cases h
    exact ⟨2000, rfl, by rw [tooLarge_eq, Nat.cast_lt]; decide +kernel⟩
  | some f =>
    rw [wait_of_find hfind] at h
    split at h
    · rename_i i hi
      cases h
      split at hi
      · exact (Numeral.fraction_inRange _).truncate?_eq_some hi
      · exact (Numeral.fraction_inRange _).mul_thousand.truncate?_eq_some hi
    · cases h

/-- The length of a wait is read back from its digits. -/
theorem whole_ofInt_of_wait {text : Text} {ms : Int} (h : wait text = .ok ms) :
    Numeral.whole (Text.ofInt ms) = .ok ms := by
  obtain ⟨n, rfl, hn⟩ := exists_natCast_of_wait h
  exact whole_ofInt_of_lt hn

end Facts

end PlainSteps
