import PlainSteps.Proofs.Text.Cutting

/-! # Line ends

Line ends can be written in many ways, and a carriage return with a line feed behind it is one of
them. A text file is read with every return written as a line feed, which cuts the text into the
same lines as before. When its lines are joined again by line feeds, the end of the last line is
left out; so one empty line at the end may be lost, and nothing else.
-/

namespace PlainSteps.Text

/-! ### Reading a file -/

/-- A line end, unless it is a return, ends the line that it stands on. -/
theorem lines_cons_of_break {c : Char} (hbreak : isLineBreak c = true) (hreturn : c ≠ '\r')
    (t : Text) :
    lines (c :: t) = [] :: lines t := by
  have hpair : ∀ cs : Text, c = '\r' → t = '\n' :: cs → False := fun _ h _ => hreturn h
  exact (lines.eq_3 c t hpair).trans (if_pos hbreak)

/-- A return that no line feed follows ends the line that it stands on. -/
theorem lines_return {t : Text} (hfeed : ∀ cs, t ≠ '\n' :: cs) :
    lines ('\r' :: t) = [] :: lines t := by
  have hpair : ∀ cs : Text, '\r' = '\r' → t = '\n' :: cs → False := fun cs _ h => hfeed cs h
  exact (lines.eq_3 '\r' t hpair).trans (if_pos (by decide))

/-- **A text file is read in the lines it was written in.** -/
theorem lines_unifyNewlines (t : Text) : lines (unifyNewlines t) = lines t := by
  fun_induction unifyNewlines t with
  | case1 => rfl
  | case2 cs ih =>
    rw [lines_cons_of_break (by decide) (by decide), ih]
    rfl
  | case3 cs hpair ih =>
    rw [lines_cons_of_break (by decide) (by decide), lines_return hpair, ih]
  | case4 c cs hpair hreturn ih =>
    by_cases hbreak : isLineBreak c = true
    · have hc : c ≠ '\r' := hreturn
      rw [lines_cons_of_break hbreak hc, lines_cons_of_break hbreak hc, ih]
    · have hplain : isLineBreak c = false := by simpa using hbreak
      rw [lines_cons hplain, lines_cons hplain, ih]

/-! ### Lines in their text -/

theorem eq_nil_of_lines_eq_nil {t : Text} (h : lines t = []) : t = [] := by
  fun_induction lines t with
  | case1 => rfl
  | case2 => cases h
  | case3 => cases h
  | case4 => cases h
  | case5 => cases h

/-- The first line of a text is all of it, or what stands in front of a line end; the other lines
are behind that. -/
theorem lines_eq_cons {t line : Text} {rest : List Text} (h : lines t = line :: rest) :
    t = line ∧ rest = [] ∨ ∃ ending t', t = line ++ (ending ++ t') ∧ ending ≠ [] ∧
      (∀ c ∈ ending, isLineBreak c = true) ∧ lines t' = rest := by
  fun_induction lines t generalizing line rest with
  | case1 => cases h
  | case2 cs =>
    cases h
    have hpair : ∀ c ∈ ['\r', '\n'], isLineBreak c = true :=
      List.forall_mem_cons.mpr ⟨by decide, List.forall_mem_singleton.mpr (by decide)⟩
    exact .inr ⟨['\r', '\n'], cs, rfl, List.cons_ne_nil _ _, hpair, rfl⟩
  | case3 c cs _ hc =>
    cases h
    exact .inr ⟨[c], cs, rfl, List.cons_ne_nil _ _, List.forall_mem_singleton.mpr hc, rfl⟩
  | case4 c cs _ hc hnone =>
    cases h
    obtain rfl := eq_nil_of_lines_eq_nil hnone
    exact .inl ⟨rfl, rfl⟩
  | case5 c cs _ hc first rest hlines ih =>
    cases h
    rcases ih hlines with ⟨rfl, hrest⟩ | ⟨ending, t', rfl, hending⟩
    · exact .inl ⟨rfl, hrest⟩
    · exact .inr ⟨ending, t', rfl, hending⟩

/-- A piece without line breaks lies on one side of a line end. -/
theorem beside_ending {first ending rest before piece after : Text} (hne : ending ≠ [])
    (hending : ∀ c ∈ ending, isLineBreak c = true) (hsome : piece ≠ []) (hpiece : IsOneLine piece)
    (h : first ++ (ending ++ rest) = before ++ (piece ++ after)) :
    (∃ more, first = before ++ (piece ++ more) ∧ after = more ++ (ending ++ rest)) ∨
      ∃ more, before = first ++ (ending ++ more) ∧ rest = more ++ (piece ++ after) := by
  have hapart : ∀ {c : Char}, c ∈ ending → c ∉ piece := by
    intro c hc hmem
    have hplain := hpiece c hmem
    rw [hending c hc] at hplain
    cases hplain
  -- an overlap would put a character of the line end into the piece
  rcases List.append_eq_append_iff.mp h with ⟨gap, rfl, hgap⟩ | ⟨tail, rfl, htail⟩
  · rcases List.append_eq_append_iff.mp hgap with ⟨more, rfl, hrest⟩ | ⟨tail, rfl, htail⟩
    · exact .inr ⟨more, rfl, hrest⟩
    · cases tail with
      | nil => exact .inr ⟨[], by simp, htail.symm⟩
      | cons c cs =>
        obtain ⟨d, ds, rfl⟩ := List.exists_cons_of_ne_nil hsome
        obtain rfl : d = c := (List.cons.inj htail).1
        exact absurd (.head _) (hapart (List.mem_append_right gap (.head _)))
  · rcases List.append_eq_append_iff.mp htail with ⟨more, rfl, hafter⟩ | ⟨gap, rfl, hgap⟩
    · exact .inl ⟨more, rfl, hafter⟩
    · cases gap with
      | nil => exact .inl ⟨[], by simp, hgap.symm⟩
      | cons c cs =>
        obtain ⟨d, ds, rfl⟩ := List.exists_cons_of_ne_nil hne
        obtain rfl : d = c := (List.cons.inj hgap).1
        exact absurd (List.mem_append_right tail (.head _)) (hapart (.head _))

theorem isOneLine_of_mem_lines {t line : Text} (h : line ∈ lines t) : IsOneLine line := by
  fun_induction lines t generalizing line with
  | case1 => cases h
  | case2 cs ih =>
    rcases List.mem_cons.mp h with rfl | h
    · exact nofun
    · exact ih h
  | case3 c cs _ _ ih =>
    rcases List.mem_cons.mp h with rfl | h
    · exact nofun
    · exact ih h
  | case4 c cs _ hc hnone ih =>
    obtain rfl := List.mem_singleton.mp h
    intro d hd
    obtain rfl := List.mem_singleton.mp hd
    simpa using hc
  | case5 c cs _ hc first rest hlines ih =>
    rw [hlines] at ih
    rcases List.mem_cons.mp h with rfl | h
    · intro d hd
      rcases List.mem_cons.mp hd with rfl | hd
      · simpa using hc
      · exact ih (.head _) d hd
    · exact ih (.tail _ h)

/-! ### Joining lines -/

theorem joinWith_cons {separator : Text} {ls : List Text} (h : ls ≠ []) (t : Text) :
    joinWith separator (t :: ls) = t ++ separator ++ joinWith separator ls := by
  cases ls with
  | nil => exact absurd rfl h
  | cons next rest => rfl

theorem joinWith_append_singleton {separator : Text} {ls : List Text} (h : ls ≠ []) (t : Text) :
    joinWith separator (ls ++ [t]) = joinWith separator ls ++ separator ++ t := by
  induction ls with
  | nil => exact absurd rfl h
  | cons first rest ih =>
    by_cases hrest : rest = []
    · subst hrest
      simp [joinWith]
    · rw [List.cons_append, joinWith_cons (by simp), joinWith_cons hrest, ih hrest]
      simp only [List.append_assoc]

/-- Lines in front of a text, each ended by a line feed, stand in front of its own lines. -/
theorem lines_joinWith_append {ls : List Text} (h : ∀ line ∈ ls, IsOneLine line) (t : Text) :
    lines (joinWith ['\n'] (ls ++ [t])) = ls ++ lines t := by
  induction ls with
  | nil => rfl
  | cons line rest ih =>
    have hrest : rest ++ [t] ≠ [] := List.append_ne_nil_of_right_ne_nil rest (List.cons_ne_nil t [])
    rw [List.cons_append, joinWith_cons hrest, List.append_assoc, List.singleton_append,
      lines_append_feed (h line (.head _)), ih fun l hl => h l (.tail _ hl), List.cons_append]

/-- **Joined again, the lines of a text are the same up to an empty one at the end.** -/
theorem lines_joinWith_lines (t : Text) :
    lines t = lines (joinWith ['\n'] (lines t)) ∨
    lines t = lines (joinWith ['\n'] (lines t)) ++ [[]] := by
  have hline : ∀ line ∈ lines t, IsOneLine line := fun _ => isOneLine_of_mem_lines
  rcases List.eq_nil_or_concat (lines t) with hnil | ⟨ls, last, hlast⟩
  · rw [hnil]
    exact .inl rfl
  · rw [List.concat_eq_append] at hlast
    rw [hlast] at hline ⊢
    rw [lines_joinWith_append fun l hl => hline l (List.mem_append_left _ hl)]
    by_cases hempty : last = []
    · subst hempty
      exact .inr (by rw [lines, List.append_nil])
    · have hown : IsOneLine last := hline last (List.mem_append_right _ (.head _))
      exact .inl (by rw [lines_of_isOneLine hown hempty])

/-! ### What trimming forgets -/

/-- A character of the class at the end of a text is trimmed away. -/
theorem trimOf_append_singleton {p : Char → Bool} {c : Char} (hc : p c = true) (t : Text) :
    trimOf p (t ++ [c]) = trimOf p t := by
  have hright : ∀ u : Text, trimRightOf p (u ++ [c]) = trimRightOf p u := by
    intro u
    unfold trimRightOf
    rw [List.reverse_append, List.reverse_singleton, List.singleton_append,
      List.dropWhile_cons_of_pos hc]
  unfold trimOf trimLeftOf
  rw [List.dropWhile_append]
  split
  · rename_i hall
    have hnil : List.dropWhile p t = [] := by simpa using hall
    rw [hnil, List.dropWhile_cons_of_pos hc]
    rfl
  · exact hright _

/-- An empty line at the end of a text is trimmed away. -/
theorem trim_joinWith_append_nil {ls : List Text} (h : ls ≠ []) :
    trim (joinWith ['\n'] (ls ++ [[]])) = trim (joinWith ['\n'] ls) := by
  rw [joinWith_append_singleton h, List.append_nil]
  exact trimOf_append_singleton (by decide) _

end PlainSteps.Text
