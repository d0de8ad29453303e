import PlainSteps.Pattern.Reader

/-! # Escaped texts

An escaped text is read back as the pattern of its letters. Each of its tokens is a plain character
that is no mark of the syntax, or a mark behind a backslash, and an escaped mark is neither a class
nor a control character; so the reader takes every token for one letter, whatever stands around it.
In particular every text has an escaped form that is a pattern.
-/

namespace PlainSteps.Pattern

/-- The token of a character in an escaped text. -/
def literalToken (c : Char) : Token := if isSpecial c then .escaped c else .plain c

theorem escape_cons (c : Char) (t : Text) :
    escape (c :: t) = (if isSpecial c then ['\\', c] else [c]) ++ escape t := rfl

theorem length_le_escape (t : Text) : t.length ≤ (escape t).length := by
  induction t with
  | nil => exact Nat.le_refl 0
  | cons c t ih =>
    rw [escape_cons, List.length_append, List.length_cons]
    split
    · simp only [List.length_cons, List.length_nil]
      omega
    · simp only [List.length_cons, List.length_nil]
      omega

/-! ### Characters -/

/-- The marks are neither classes nor control characters nor letters or digits. -/
theorem special_escaped : "()[]\x7b\x7d?*+-|^$\\.&~# \t\n\r\x0b\x0c".toList.all
    (fun c => (classOf? c).isNone && (controlOf? c).isNone && !c.isAlphanum) = true := by decide

/-- Behind a backslash a mark stands for itself. -/
theorem escaped_of_special {c : Char} (h : isSpecial c = true) :
    classOf? c = none ∧ (∀ n, escapedChar n c = .ok c) ∧ c ≠ 'b' ∧ c ≠ 'B' ∧ c ≠ 'A' ∧ c ≠ 'Z' := by
  have hmark := List.all_eq_true.mp special_escaped c (by simpa [isSpecial] using h)
  simp only [Bool.and_eq_true, Option.isNone_iff_eq_none, Bool.not_eq_true'] at hmark
  obtain ⟨⟨hclass, hcontrol⟩, hletter⟩ := hmark
  refine ⟨hclass, fun n => ?_, ?_⟩
  · simp [escapedChar, hcontrol, hletter]
  · refine ⟨?_, ?_, ?_, ?_⟩
    all_goals
      rintro rfl
      exact absurd hletter (by decide)

/-- A character that needs no backslash is no mark of the syntax. -/
theorem plain_of_not_special {c : Char} (h : ¬ isSpecial c = true) :
    c ≠ '\\' ∧ c ≠ ')' ∧ c ≠ '|' ∧ c ≠ '.' ∧ c ≠ '^' ∧ c ≠ '$' ∧ c ≠ '*' ∧ c ≠ '+' ∧ c ≠ '?' ∧
    c ≠ '\x7b' ∧
      c ≠ '[' ∧ c ≠ '(' := by
  refine ⟨?_, ?_, ?_, ?_, ?_, ?_, ?_, ?_, ?_, ?_, ?_, ?_⟩
  all_goals
    rintro rfl
    exact h (by decide)

/-! ### Reading -/

theorem tokens_escape (t : Text) (n : Nat) :
    ∃ left, tokens n (escape t) = (left, false) ∧ left.map Prod.snd = t.map literalToken := by
  induction t generalizing n with
  | nil => exact ⟨[], rfl, rfl⟩
  | cons c t ih =>
    rw [escape_cons, List.map_cons]
    unfold literalToken
    by_cases hspecial : isSpecial c = true
    · rw [if_pos hspecial, if_pos hspecial]
      obtain ⟨left, htokens, hleft⟩ := ih (n + 2)
      have hcut : tokens n ('\\' :: c :: escape t) =
          ((n, .escaped c) :: (tokens (n + 2) (escape t)).1, (tokens (n + 2) (escape t)).2) := rfl
      refine ⟨(n, .escaped c) :: left, ?_, congrArg (Token.escaped c :: ·) hleft⟩
      rw [List.cons_append, List.singleton_append, hcut, htokens]
    · rw [if_neg hspecial, if_neg hspecial]
      obtain ⟨left, htokens, hleft⟩ := ih (n + 1)
      have hne : c ≠ '\\' := (plain_of_not_special hspecial).1
      have hcut : tokens n (c :: escape t) =
          ((n, .plain c) :: (tokens (n + 1) (escape t)).1, (tokens (n + 1) (escape t)).2) := by
        rw [tokens]
        · exact fun hc => absurd hc hne
        · exact fun _ _ hc => absurd hc hne
      refine ⟨(n, .plain c) :: left, ?_, congrArg (Token.plain c :: ·) hleft⟩
      rw [List.singleton_append, hcut, htokens]

section Items

variable {fuel n length : Nat} {sofar : List (ItemKind × Pattern)} {before : List Pattern}

/-- **The token of a character is read as its letter.** -/
theorem readItems_literal (c : Char) (rest : List (Nat × Token)) :
    readItems (fuel + 1) sofar before ⟨(n, literalToken c) :: rest, length, false⟩ =
      readItems fuel ((.piece, letter c) :: sofar) before ⟨rest, length, false⟩ := by
  -- in either case the marks that the character is not are what rules the other branches out
  by_cases hspecial : isSpecial c = true
  · have htoken : literalToken c = .escaped c := if_pos hspecial
    obtain ⟨hclass, hchar, hne⟩ := escaped_of_special hspecial
    obtain ⟨_, _, _, _⟩ := hne
    rw [htoken, readItems]
    simp [Source.skip, Source.checked, bind, Except.bind, hclass, hchar]
  · have htoken : literalToken c = .plain c := if_neg hspecial
    obtain ⟨-, hclosing, hne⟩ := plain_of_not_special hspecial
    obtain ⟨_, _, _, _, _, _, _, _, _, _⟩ := hne
    rw [htoken, readItems]
    simp [Source.skip, Source.checked, bind, Except.bind, hclosing]

theorem readItems_literals {t : Text} {left : List (Nat × Token)}
    (hleft : left.map Prod.snd = t.map literalToken) (hfuel : t.length < fuel) :
    readItems fuel sofar before ⟨left, length, false⟩ =
      .ok (choice (before.reverse ++ [seq (sofar.reverse.map (·.2) ++ t.map letter)]),
        ⟨[], length, false⟩) := by
  induction t generalizing fuel sofar left with
  | nil =>
    obtain ⟨fuel, rfl⟩ := Nat.exists_eq_succ_of_ne_zero (Nat.ne_of_gt hfuel)
    obtain rfl : left = [] := List.map_eq_nil_iff.mp hleft
    rw [readItems, List.map_nil, List.append_nil]
  | cons c t ih =>
    obtain ⟨fuel, rfl⟩ := Nat.exists_eq_succ_of_ne_zero (Nat.ne_zero_of_lt hfuel)
    obtain ⟨⟨n, token⟩, rest, rfl, htoken, hrest⟩ := List.map_eq_cons_iff.mp hleft
    obtain rfl : token = literalToken c := htoken
    rw [readItems_literal, ih hrest (Nat.lt_of_succ_lt_succ hfuel)]
    simp

end Items

/-- **An escaped text is read as the letters of the text.** -/
theorem read_escape (t : Text) : read (escape t) = .ok (letters t) := by
  obtain ⟨left, htokens, hleft⟩ := tokens_escape t 0
  have hfuel : t.length < (escape t).length + 1 := Nat.lt_succ_of_le (length_le_escape t)
  have hsource : Source.checked ⟨left, (escape t).length, false⟩ =
      .ok ⟨left, (escape t).length, false⟩ := by
    simp [Source.checked]
  unfold read
  rw [htokens]
  simp only [hsource, bind, Except.bind, readItems_literals hleft hfuel]
  rfl

end PlainSteps.Pattern
