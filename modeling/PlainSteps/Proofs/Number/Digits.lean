import Mathlib.Algebra.Order.Ring.Nat
import PlainSteps.Number.Numeral
import PlainSteps.Proofs.Text.Cutting

/-! # Whole numbers written and read

A number written in decimal digits is read back as itself, as long as it has no more digits than a
reader takes; and how many digits it has says how large it is.
-/

namespace PlainSteps

namespace Text

theorem isDigit_of_mem_ofNat {n : Nat} {c : Char} (h : c ∈ ofNat n) : c.isDigit = true :=
  Nat.isDigit_of_mem_toDigits (by decide) (by decide) h

theorem ofNat_ne_nil (n : Nat) : ofNat n ≠ [] := Nat.toDigits_ne_nil

theorem ofInt_natCast (n : Nat) : ofInt n = ofNat n := by
  unfold ofInt
  rw [if_neg (by omega), Int.natAbs_natCast]

theorem lt_pow_length_ofNat (n : Nat) : n < 10 ^ (ofNat n).length :=
  (Nat.length_toDigits_le_iff (by decide) Nat.length_toDigits_pos).mp (Nat.le_refl _)

theorem pow_le_of_lt_length_ofNat {n k : Nat} (hn : 0 < n) (hk : k < (ofNat n).length) :
    10 ^ k ≤ n := by
  rcases Nat.eq_zero_or_pos k with rfl | hpos
  · exact hn
  · refine Nat.le_of_not_lt fun hlt => ?_
    have hle : (ofNat n).length ≤ k := (Nat.length_toDigits_le_iff (by decide) hpos).mpr hlt
    omega

/-- The code points of the digits lie between those of `0` and `9`. -/
theorem toNat_of_isDigit {c : Char} (h : c.isDigit = true) : 48 ≤ c.toNat ∧ c.toNat ≤ 57 := by
  simpa [Char.isDigit, UInt32.le_iff_toNat_le] using h

theorem not_isBlank_of_isDigit {c : Char} (h : c.isDigit = true) : isBlank c = false := by
  obtain ⟨hlow, hhigh⟩ := toNat_of_isDigit h
  unfold isBlank
  simp only [Bool.or_eq_false_iff, Bool.and_eq_false_iff, beq_eq_false_iff_ne,
    decide_eq_false_iff_not]
  omega

theorem digitValue?_of_isDigit {c : Char} (h : c.isDigit = true) :
    digitValue? c = some (c.toNat - 48) := by
  obtain ⟨-, hhigh⟩ := toNat_of_isDigit h
  unfold digitValue?
  dsimp only
  rw [if_pos (by omega), if_pos h]

end Text

namespace Numeral

theorem digitValues_of_isDigit : ∀ {t : Text}, t ≠ [] → (∀ c ∈ t, c.isDigit = true) →
    digitValues Text.digitValue? t = some (t.map fun c => c.toNat - 48)
  | [], hne, _ => absurd rfl hne
  | [c], _, h => by simp [digitValues, Text.digitValue?_of_isDigit (h c (.head _))]
  | c :: d :: rest, _, h => by
    -- an underscore between digits would be skipped
    have hd : d ≠ '_' := by
      rintro rfl
      exact absurd (h '_' (.tail _ (.head _))) (by decide)
    have ih := digitValues_of_isDigit (List.cons_ne_nil d rest) fun x hx => h x (.tail _ hx)
    rw [digitValues]
    · simp [Text.digitValue?_of_isDigit (h c (.head _)), ih]
    · simp
    · simp [hd]

theorem ofDigits_map (t : Text) :
    ofDigits (t.map fun c => c.toNat - 48) = Nat.ofDigitChars 10 t 0 := by
  rw [ofDigits, Nat.ofDigitChars_eq_foldl, List.foldl_map]
  congr
  funext n c
  rw [Nat.mul_comm]
  rfl

/-- Digits have no sign in front. -/
theorem splitSign_of_isDigit {t : Text} (h : ∀ c ∈ t, c.isDigit = true) :
    splitSign t = (false, t) := by
  unfold splitSign
  split
  · exact absurd (h '-' (.head _)) (by decide)
  · exact absurd (h '+' (.head _)) (by decide)
  · rfl

/-- **A number in decimal digits is read back as itself.** -/
theorem whole_ofNat {n : Nat} (h : (Text.ofNat n).length ≤ maxDigits) :
    whole (Text.ofNat n) = .ok n := by
  have hdigits : ∀ c ∈ Text.ofNat n, c.isDigit = true := fun _ => Text.isDigit_of_mem_ofNat
  have htrim : Text.trim (Text.ofNat n) = Text.ofNat n :=
    Text.trimOf_eq_self_of_forall fun c hc => Text.not_isBlank_of_isDigit (hdigits c hc)
  unfold whole
  rw [htrim, splitSign_of_isDigit hdigits]
  dsimp only
  rw [digitValues_of_isDigit (Text.ofNat_ne_nil n) hdigits]
  dsimp only
  rw [List.length_map, if_neg (by omega), ofDigits_map, Text.ofNat, Nat.ofDigitChars_ten_toDigits]
  rfl

end Numeral

end PlainSteps
