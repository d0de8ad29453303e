import Mathlib.Data.List.TakeWhile
import PlainSteps.Json.Reader

/-! # What the reader leaves and what it refuses

From wherever it begins, the reader leaves an end of the text. So when it stops at a numeral with
too many digits, these digits stand in the text it was given, one after the other.
-/

namespace PlainSteps.Json

/-- More digits stand one after the other than are converted. -/
def HasLongNumeral (t : Text) : Prop :=
  ∃ ds : Text, Numeral.maxDigits < ds.length ∧ (∀ c ∈ ds, c.isDigit = true) ∧ ds <:+: t

/-- What a reader comes to at a text: an end of it is left, or if it stops at a numeral with too
many digits, the text has one. -/
def Leaves {α : Type} (t : Text) : Except Stop (α × Text) → Prop
  | .ok (_, rest) => rest <:+ t
  | .error s => ∀ n, s.problem = .tooLong n → HasLongNumeral t

section Leaves

variable {α β : Type} {t t' : Text} {r : Except Stop (α × Text)}

theorem HasLongNumeral.mono (h : HasLongNumeral t') (ht : t' <:+ t) : HasLongNumeral t := by
  obtain ⟨ds, hlong, hdigits, hinfix⟩ := h
  exact ⟨ds, hlong, hdigits, hinfix.trans ht.isInfix⟩

theorem leaves_error {s : Stop} (hs : ∀ n, s.problem ≠ .tooLong n) : Leaves (α := α) t (.error s) :=
  fun n hn => absurd hn (hs n)

theorem Leaves.mono (h : Leaves t' r) (ht : t' <:+ t) : Leaves t r := by
  cases r with
  | ok x => exact h.trans ht
  | error s => exact fun n hn => (h n hn).mono ht

theorem Leaves.map (f : α → β) (h : Leaves t r) : Leaves t (r.map fun x => (f x.1, x.2)) := by
  cases r with
  | ok x => exact h
  | error s => exact h

theorem Leaves.bind {f : α × Text → Except Stop (β × Text)} (h : Leaves t r)
    (hf : ∀ a rest, rest <:+ t → Leaves rest (f (a, rest))) : Leaves t (r >>= f) := by
  cases r with
  | ok x => exact (hf x.1 x.2 h).mono h
  | error s => exact h

theorem skipGap_suffix (t : Text) : skipGap t <:+ t := List.dropWhile_suffix _

/-- What follows the first character behind a gap. -/
theorem suffix_of_skipGap {c : Char} {rest : Text} (h : skipGap t = c :: rest) : rest <:+ t :=
  (List.suffix_cons c rest).trans (h ▸ skipGap_suffix t)

end Leaves

/-! ### Words and numbers -/

theorem Leaves.push {t : Text} {r : Except Stop (Text × Text)} (c : Char) (h : Leaves t r) :
    Leaves t (push c r) :=
  h.map (c :: ·)

theorem string_leaves (opening : Nat) (t : Text) : Leaves t (string opening t) := by
  fun_induction string opening t
  all_goals first
    | exact leaves_error fun n hn => by cases hn
    | exact List.suffix_cons _ _
    | exact Leaves.push _ (Leaves.mono ‹_› (by simp [List.suffix_cons_iff]))

theorem isDigit_of_wholeDigits {t : Text} {c : Char} (hc : c ∈ wholeDigits t) :
    c.isDigit = true := by
  unfold wholeDigits at hc
  split at hc
  · cases hc
  · obtain rfl := List.mem_singleton.mp hc
    rfl
  · exact List.mem_takeWhile_imp hc

theorem wholeDigits_isPrefix (t : Text) : wholeDigits t <+: t := by
  unfold wholeDigits
  split
  · exact List.prefix_rfl
  · exact ⟨_, rfl⟩
  · exact List.takeWhile_prefix _

theorem number_leaves (t : Text) : Leaves t (number t) := by
  have hdrop : ∀ a b c d : Nat, (((t.drop a).drop b).drop c).drop d <:+ t := fun a b c d =>
    (List.drop_suffix _ _).trans
      ((List.drop_suffix _ _).trans ((List.drop_suffix _ _).trans (List.drop_suffix _ _)))
  unfold number
  dsimp only
  -- with a sign or without
  split
  all_goals
    split
    · exact leaves_error fun n hn => by cases hn
    · split
      · split
        · rename_i hlong
          refine fun n hn => ⟨_, hlong, fun c hc => isDigit_of_wholeDigits hc, ?_⟩
          exact (wholeDigits_isPrefix _).isInfix.trans (List.drop_suffix _ _).isInfix
        · exact hdrop _ _ _ _
      · exact hdrop _ _ _ _

theorem scalar_leaves (t : Text) : Leaves t (scalar t) := by
  unfold scalar
  split
  · exact List.drop_suffix _ _
  · exact number_leaves t

/-! ### Values -/

/-- Values, lists and objects, all with the fuel that is left. -/
theorem value_leaves (fuel : Nat) :
    (∀ t, Leaves t (value fuel t)) ∧ (∀ t, Leaves t (items fuel t)) ∧
    ∀ t, Leaves t (members fuel t) := by
  -- the three readings call each other with one unit less, so one induction carries them all
  induction fuel with
  | zero =>
    refine ⟨fun t => ?_, fun t => ?_, fun t => ?_⟩
    all_goals exact leaves_error fun n hn => by cases hn
  | succ fuel ih =>
    obtain ⟨hvalue, hitems, hmembers⟩ := ih
    refine ⟨fun t => ?_, fun t => ?_, fun t => ?_⟩
    · unfold value
      split
      · exact ((string_leaves _ _).map _).mono (List.suffix_cons _ _)
      · split
        · rename_i hgap
          exact (suffix_of_skipGap hgap).trans (List.suffix_cons _ _)
        · exact ((hitems _).map _).mono ((skipGap_suffix _).trans (List.suffix_cons _ _))
      · split
        · rename_i hgap
          exact (suffix_of_skipGap hgap).trans (List.suffix_cons _ _)
        · exact ((hmembers _).map fun ms => obj (settle ms)).mono
            ((skipGap_suffix _).trans (List.suffix_cons _ _))
      · exact scalar_leaves _
    · unfold items
      refine (hvalue t).bind fun x rest _ => ?_
      dsimp only
      split
      · rename_i hgap
        exact suffix_of_skipGap hgap
      · rename_i hgap
        refine ((hitems _).bind fun xs rest _ => ?_).mono
          ((skipGap_suffix _).trans (suffix_of_skipGap hgap))
        exact List.suffix_rfl
      · exact leaves_error fun n hn => by cases hn
    · unfold members
      split
      · refine ((string_leaves _ _).bind fun key rest _ => ?_).mono (List.suffix_cons _ _)
        dsimp only
        split
        · rename_i hgap
          refine ((hvalue _).bind fun x rest _ => ?_).mono
            ((skipGap_suffix _).trans (suffix_of_skipGap hgap))
          dsimp only
          split
          · rename_i hgap
            exact suffix_of_skipGap hgap
          · rename_i hgap
            refine ((hmembers _).bind fun ms rest _ => ?_).mono
              ((skipGap_suffix _).trans (suffix_of_skipGap hgap))
            exact List.suffix_rfl
          · exact leaves_error fun n hn => by cases hn
        · exact leaves_error fun n hn => by cases hn
      · exact leaves_error fun n hn => by cases hn

/-- **A text that is refused for a numeral with too many digits has one.** -/
theorem hasLongNumeral_of_read {t : Text} {e : ReadError} (h : read t = .error e)
    (hlong : e.isTooLong = true) :
    HasLongNumeral t := by
  unfold read at h
  split at h
  · cases h
  · rename_i s hs
    obtain rfl := Except.error.inj h
    obtain ⟨n, hn⟩ : ∃ n, s.problem = .tooLong n := by
      unfold ReadError.isTooLong at hlong
      split at hlong
      · rename_i n hn
        exact ⟨n, hn⟩
      · cases hlong
    unfold readDocument at hs
    split at hs
    · cases hs
      cases hn
    · have hleaves := (value_leaves (2 * t.length + 2)).1 (skipGap t)
      cases hvalue : value (2 * t.length + 2) (skipGap t) with
      | error s' =>
        rw [hvalue] at hs hleaves
        cases hs
        exact (hleaves n hn).mono (skipGap_suffix t)
      | ok x =>
        rw [hvalue] at hs
        dsimp only [Bind.bind, Except.bind] at hs
        split at hs
        · cases hs
        · cases hs
          cases hn

end PlainSteps.Json
