import Mathlib.Data.List.DropRight
import PlainSteps.Proofs.Text.Newlines

/-! # What trimming leaves

Trimming takes the characters of a class off both ends of a text. What it leaves begins and ends
outside the class, so that trimming again changes nothing; it leaves nothing just of a text that has
only characters of the class; and such characters in front of a text or behind it make no
difference.
-/

namespace PlainSteps.Text

variable {p : Char → Bool} {t : Text}

/-- What trimming leaves begins outside the class. -/
theorem starts_trimOf : ∀ c ∈ (trimOf p t).head?, p c = false := by
  intro c hc
  obtain ⟨back, hback⟩ : trimOf p t <+: trimLeftOf p t := List.rdropWhile_prefix p _
  apply starts_trimLeftOf c
  rw [← hback, List.head?_append, Option.mem_def.mp hc]
  rfl

/-- What trimming the end leaves ends outside the class. -/
theorem ends_trimRightOf : ∀ c ∈ (trimRightOf p t).getLast?, p c = false := by
  intro c hc
  -- from its end a text is trimmed as its reverse is from the start
  apply starts_trimLeftOf (t := t.reverse) c
  rw [← List.getLast?_reverse]
  exact hc

/-- What trimming leaves ends outside the class. -/
theorem ends_trimOf : ∀ c ∈ (trimOf p t).getLast?, p c = false := ends_trimRightOf

/-- A text that trimming leaves as it is ends outside the class, if it has an end. -/
theorem exists_end_of_trimOf (hne : t ≠ []) (h : trimOf p t = t) :
    ∃ c ∈ t.getLast?, p c = false := by
  refine ⟨t.getLast hne, List.getLast?_eq_some_getLast hne, ends_trimOf (t := t) _ ?_⟩
  rw [h]
  exact List.getLast?_eq_some_getLast hne

/-- Trimming again changes nothing. -/
theorem trimOf_trimOf : trimOf p (trimOf p t) = trimOf p t :=
  trimOf_eq_self starts_trimOf ends_trimOf

theorem trim_trim (t : Text) : trim (trim t) = trim t := trimOf_trimOf

/-- Trimming takes off characters of the class only. -/
theorem trimOf_parts (p : Char → Bool) (t : Text) :
    ∃ front back, t = front ++ (trimOf p t ++ back) ∧
    (∀ c ∈ front, p c = true) ∧ ∀ c ∈ back, p c = true := by
  refine ⟨t.takeWhile p, (trimLeftOf p t).rtakeWhile p, ?_, fun c => List.mem_takeWhile_imp,
    fun c => List.mem_rtakeWhile_imp⟩
  have hright : trimOf p t ++ (trimLeftOf p t).rtakeWhile p = trimLeftOf p t :=
    List.rdropWhile_append_rtakeWhile
  rw [hright]
  exact List.takeWhile_append_dropWhile.symm

theorem trimOf_append_left {front : Text} (h : ∀ c ∈ front, p c = true) :
    trimOf p (front ++ t) = trimOf p t := by
  unfold trimOf trimLeftOf
  rw [List.dropWhile_append_of_pos h]

theorem trimOf_append_right {back : Text} (h : ∀ c ∈ back, p c = true) :
    trimOf p (t ++ back) = trimOf p t := by
  induction back using List.reverseRecOn with
  | nil => rw [List.append_nil]
  | append_singleton back c ih =>
    rw [← List.append_assoc, trimOf_append_singleton (h c (by simp))]
    exact ih fun d hd => h d (by simp [hd])

/-- Trimming leaves nothing just of a text within the class. -/
theorem trimOf_eq_nil_iff : trimOf p t = [] ↔ ∀ c ∈ t, p c = true := by
  constructor
  · intro hnil
    obtain ⟨front, back, ht, hfront, hback⟩ := trimOf_parts p t
    rw [hnil, List.nil_append] at ht
    rw [ht]
    intro c hc
    exact (List.mem_append.mp hc).elim (hfront c) (hback c)
  · intro h
    rw [← List.append_nil t, trimOf_append_left h]
    rfl

/-! ### At the end only -/

/-- Trimming the end leaves nothing just of a text within the class. -/
theorem trimRightOf_eq_nil_iff : trimRightOf p t = [] ↔ ∀ c ∈ t, p c = true :=
  List.rdropWhile_eq_nil_iff

/-- The end of a text is trimmed first, and what is in front of it only when nothing is left. -/
theorem trimRightOf_append (front t : Text) : trimRightOf p (front ++ t) =
    if trimRightOf p t = [] then trimRightOf p front else front ++ trimRightOf p t := by
  simp only [trimRightOf, List.reverse_append, List.dropWhile_append, List.isEmpty_iff,
    List.reverse_eq_nil_iff]
  split
  · rfl
  · rw [List.reverse_append, List.reverse_reverse]

end PlainSteps.Text
