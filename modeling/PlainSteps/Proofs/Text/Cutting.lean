import PlainSteps.Text.Basic

/-! # What cutting leaves alone

A text that begins and ends outside a class has nothing to trim, lines that are joined by line feeds
are cut again into the same lines, and so are pieces that are joined by a separator. The proofs
about prompts made of known lines rest on these facts.
-/

namespace PlainSteps.Text

variable {p : Char → Bool} {t : Text}

/-! ### Trimming -/

theorem trimLeftOf_eq_self (h : ∀ c ∈ t.head?, p c = false) : trimLeftOf p t = t := by
  cases t with
  | nil => rfl
  | cons c cs => simp [trimLeftOf, h c rfl]

theorem starts_trimLeftOf : ∀ c ∈ (trimLeftOf p t).head?, p c = false := by
  intro c hc
  have hnot := List.head?_dropWhile_not p t
  have hhead : (t.dropWhile p).head? = some c := hc
  rw [hhead] at hnot
  exact hnot

theorem trimRightOf_eq_self (h : ∀ c ∈ t.getLast?, p c = false) : trimRightOf p t = t := by
  have hrev : trimLeftOf p t.reverse = t.reverse := trimLeftOf_eq_self (by simpa using h)
  rw [trimLeftOf] at hrev
  rw [trimRightOf, hrev, List.reverse_reverse]

/-- A text whose ends lie outside a class has nothing of that class to trim. -/
theorem trimOf_eq_self (hhead : ∀ c ∈ t.head?, p c = false)
    (hlast : ∀ c ∈ t.getLast?, p c = false) :
    trimOf p t = t := by
  rw [trimOf, trimLeftOf_eq_self hhead, trimRightOf_eq_self hlast]

theorem trimOf_eq_self_of_forall (h : ∀ c ∈ t, p c = false) : trimOf p t = t :=
  trimOf_eq_self (fun c hc => h c (List.mem_of_mem_head? hc)) fun c hc =>
    h c (List.mem_of_getLast? hc)

/-! ### Lines -/

theorem isBlank_of_isLineBreak {c : Char} (h : isLineBreak c = true) : isBlank c = true := by
  simp only [isLineBreak, isBlank, Bool.or_eq_true, Bool.and_eq_true, decide_eq_true_eq, beq_iff_eq]
    at h ⊢
  omega

/-- A text that stays on one line. -/
def IsOneLine (t : Text) : Prop := ∀ c ∈ t, isLineBreak c = false

theorem isOneLine_of_all {t : Text} (h : t.all (fun c => !isLineBreak c) = true) : IsOneLine t := by
  intro c hc
  simpa using List.all_eq_true.mp h c hc

theorem lines_cons {c : Char} (hc : isLineBreak c = false) (t : Text) :
    lines (c :: t) = match lines t with
      | [] => [[c]]
      | line :: rest => (c :: line) :: rest := by
  have hreturn : ∀ cs : Text, c = '\r' → t = '\n' :: cs → False := by
    rintro _ rfl
    exact absurd hc (by decide)
  exact (lines.eq_3 c t hreturn).trans (if_neg (by simp [hc]))

theorem lines_append_feed {line : Text} (h : IsOneLine line) (rest : Text) :
    lines (line ++ '\n' :: rest) = line :: lines rest := by
  induction line with
  | nil => rfl
  | cons c cs ih =>
    have hc : isLineBreak c = false := h c (.head _)
    have hcs : IsOneLine cs := fun d hd => h d (.tail _ hd)
    rw [List.cons_append, lines_cons hc, ih hcs]

theorem lines_of_isOneLine {line : Text} (h : IsOneLine line) (hne : line ≠ []) :
    lines line = [line] := by
  induction line with
  | nil => exact absurd rfl hne
  | cons c cs ih =>
    have hc : isLineBreak c = false := h c (.head _)
    have hcs : IsOneLine cs := fun d hd => h d (.tail _ hd)
    rw [lines_cons hc]
    cases cs with
    | nil => rfl
    | cons d ds => rw [ih hcs (List.cons_ne_nil d ds)]

/-- **Lines that are joined by line feeds are cut again into the same lines.** -/
theorem lines_joinWith : ∀ {ls : List Text}, (∀ line ∈ ls, IsOneLine line ∧ line ≠ []) →
    lines (joinWith ['\n'] ls) = ls
  | [], _ => rfl
  | [line], h => lines_of_isOneLine (h line (.head _)).1 (h line (.head _)).2
  | line :: next :: rest, h => by
    have hjoin : joinWith ['\n'] (line :: next :: rest) = line ++ '\n' ::
        joinWith ['\n'] (next :: rest) := by
      simp [joinWith]
    rw [hjoin, lines_append_feed (h line (.head _)).1, lines_joinWith fun l hl => h l (.tail _ hl)]

theorem head?_joinWith {separator : Text} : ∀ {ls : List Text}, (∀ line ∈ ls, line ≠ []) →
    (joinWith separator ls).head? = ls.head?.bind List.head?
  | [], _ => rfl
  | [_], _ => rfl
  | line :: next :: rest, h => by
    obtain ⟨c, cs, rfl⟩ := List.exists_cons_of_ne_nil (h line (.head _))
    rfl

theorem getLast?_joinWith {separator : Text} : ∀ {ls : List Text}, (∀ line ∈ ls, line ≠ []) →
    (joinWith separator ls).getLast? = ls.getLast?.bind List.getLast?
  | [], _ => rfl
  | [_], _ => rfl
  | line :: next :: rest, h => by
    have ih : (joinWith separator (next :: rest)).getLast? =
        (next :: rest).getLast?.bind List.getLast? :=
      getLast?_joinWith fun l hl => h l (.tail line hl)
    have hsome : (joinWith separator (next :: rest)).getLast?.isSome := by
      have hne : joinWith separator (next :: rest) ≠ [] := by
        cases rest with
        | nil => exact h next (.tail _ (.head _))
        | cons l ls => simp [joinWith, h next (.tail _ (.head _))]
      simpa using hne
    rw [joinWith, List.getLast?_append, Option.or_of_isSome hsome, ih, List.getLast?_cons_cons]
    exact List.cons_ne_nil _ _

/-! ### Pieces -/

theorem splitWhere_eq_splitOnP (p : Char → Bool) (t : Text) : splitWhere p t = t.splitOnP p := by
  induction t with
  | nil => exact List.splitOnP_nil.symm
  | cons c cs ih =>
    rw [splitWhere, List.splitOnP_cons_eq_if_modifyHead, ih]
    by_cases hc : p c = true
    · rw [if_pos hc, if_pos hc]
    · rw [if_neg hc, if_neg hc]
      obtain ⟨piece, pieces, hpieces⟩ := List.exists_cons_of_ne_nil (splitWhere_ne_nil p cs)
      rw [← ih, hpieces]
      rfl

/-- The pieces hold the characters outside the class, and no others. -/
theorem exists_mem_splitWhere_iff {c : Char} :
    (∃ piece ∈ splitWhere p t, c ∈ piece) ↔ c ∈ t ∧ p c = false := by
  induction t with
  | nil => simp [splitWhere]
  | cons d ds ih =>
    rw [splitWhere]
    split
    · rename_i hd
      simp only [List.mem_cons, exists_eq_or_imp, List.not_mem_nil, false_or, ih]
      refine and_congr_left fun hc => (or_iff_right fun heq => ?_).symm
      rw [heq, hd] at hc
      cases hc
    · rename_i hd
      obtain ⟨piece, pieces, hpieces⟩ := List.exists_cons_of_ne_nil (splitWhere_ne_nil p ds)
      rw [hpieces] at ih ⊢
      simp only [List.mem_cons, exists_eq_or_imp] at ih ⊢
      rw [or_assoc, ih, or_and_right]
      refine or_congr_left ⟨fun heq => ⟨heq, ?_⟩, fun h => h.1⟩
      rw [heq]
      simpa using hd

theorem joinWith_eq_intercalate (separator : Text) :
    ∀ ts : List Text, joinWith separator ts = separator.intercalate ts
  | [] => rfl
  | [t] => by simp [joinWith]
  | t :: next :: rest => by
    rw [joinWith, joinWith_eq_intercalate separator (next :: rest), List.intercalate_cons_cons]
    simp

/-- **Pieces without the separator are cut again as they were joined.** -/
theorem splitOn_joinWith {separator : Char} {ts : List Text} (hne : ts ≠ [])
    (h : ∀ t ∈ ts, separator ∉ t) :
    splitOn separator (joinWith [separator] ts) = ts := by
  rw [splitOn, splitWhere_eq_splitOnP, joinWith_eq_intercalate, ← List.splitOn_eq_splitOnP]
  exact List.splitOn_intercalate separator h hne

end PlainSteps.Text
