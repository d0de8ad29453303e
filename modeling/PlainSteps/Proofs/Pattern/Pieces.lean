import PlainSteps.Proofs.Pattern.Course
import PlainSteps.Proofs.Pattern.Locality
import PlainSteps.Proofs.Text.Trimming

/-! # The pieces between matches

A search stops at the first place where something matches, so in front of what it finds nothing
matches. A pattern that takes up no empty piece therefore has a course through every text, and the
text is made of its matches and of the pieces in front of them and behind the last. For a separator
that cuts no word such a piece may be looked at by itself: what would match in it would match in the
text at the same place. So a text is split completely, and no piece can be split again
(`not_occursIn_of_mem_split`).
-/

namespace PlainSteps.Pattern

variable {a : Pattern} {previous : Option Char} {t piece rest last : Text} {f : Found}
  {found : List Found}

/-! ### In front of a match -/

/-- What is in front of the first match is passed. -/
theorem passes_of_findFrom (h : a.findFrom previous t = some f) :
    a.Passes previous f.before (f.whole ++ f.after) := by
  induction t generalizing previous f with
  | nil =>
    rw [findFrom] at h
    obtain ⟨m, -, rfl⟩ := Option.map_eq_some_iff.mp h
    exact passes_nil
  | cons c cs ih =>
    rw [findFrom] at h
    cases hhere : a.matchAt ⟨previous, c :: cs⟩ with
    | some m =>
      rw [hhere] at h
      cases h
      exact passes_nil
    | none =>
      rw [hhere] at h
      obtain ⟨f', hf', rfl⟩ := Option.map_eq_some_iff.mp h
      refine passes_cons_iff.mpr ⟨?_, ih hf'⟩
      rwa [← (findFrom_parts hf').1]

/-- A text in which nothing is found is passed as a whole. -/
theorem passes_of_findFrom_eq_none (h : a.findFrom previous t = none) : a.Passes previous t [] := by
  induction t generalizing previous with
  | nil => exact passes_nil
  | cons c cs ih =>
    rw [findFrom] at h
    cases hhere : a.matchAt ⟨previous, c :: cs⟩ with
    | some m =>
      rw [hhere] at h
      cases h
    | none =>
      rw [hhere] at h
      refine passes_cons_iff.mpr ⟨?_, ih (Option.map_eq_none_iff.mp h)⟩
      rwa [List.append_nil]

/-! ### The course of every text -/

/-- A pattern that takes up no empty piece. -/
def TakesUp (a : Pattern) : Prop :=
  ∀ (previous : Option Char) (whole after : Text) (g : Captures),
    a.matchAt ⟨previous, whole ++ after⟩ = some (g, after) → whole ≠ []

theorem TakesUp.matchAt_nil (ha : a.TakesUp) (previous : Option Char) :
    a.matchAt ⟨previous, []⟩ = none := by
  by_contra hsome
  obtain ⟨⟨g, rest⟩, hmatch⟩ := Option.ne_none_iff_exists'.mp hsome
  obtain ⟨piece, rest', g', hrest, heq⟩ := run_taken a hmatch
  cases heq
  obtain ⟨-, rfl⟩ := List.append_eq_nil_iff.mp hrest.symm
  exact ha previous [] [] g hmatch rfl

theorem TakesUp.exists_course (ha : a.TakesUp) (previous : Option Char) (t : Text) :
    ∃ found, Course a previous t found := by
  induction hlength : t.length using Nat.strong_induction_on generalizing previous t with
  | _ n ih =>
    cases hfind : a.findFrom previous t with
    | none => exact ⟨[], .done hfind⟩
    | some f =>
      obtain ⟨hparts, hmatch⟩ := findFrom_parts hfind
      have htakes := ha _ _ _ _ hmatch
      have hshorter : f.after.length < n := by
        have hlengths := congrArg List.length hparts
        have htaken := List.length_pos_iff.mpr htakes
        rw [List.length_append, List.length_append] at hlengths
        omega
      obtain ⟨found, hfound⟩ := ih f.after.length hshorter f.whole.getLast? f.after rfl
      exact ⟨f :: found, .next hfind htakes hfound⟩

/-- All matches of a text are its course. -/
theorem TakesUp.course_findAll (ha : a.TakesUp) (t : Text) : Course a none t (a.findAll t) := by
  obtain ⟨found, hfound⟩ := ha.exists_course none t
  rwa [hfound.findAll_eq]

/-! ### Positions -/

theorem le_of_mem_startsFrom {p : Nat × Found} :
    ∀ {found : List Found} {n : Nat}, p ∈ startsFrom n found → n ≤ p.1
  | f :: rest, n, h => by
    rcases List.mem_cons.mp h with rfl | hrest
    · exact Nat.le_add_right _ _
    · have := le_of_mem_startsFrom hrest
      omega

/-- Each match begins behind the end of those before it. -/
theorem startsFrom_pairwise (found : List Found) (n : Nat) :
    (startsFrom n found).Pairwise fun p q => p.1 + p.2.whole.length ≤ q.1 := by
  induction found generalizing n with
  | nil => exact .nil
  | cons f rest ih => exact .cons (fun q hq => le_of_mem_startsFrom hq) (ih _)

/-- Every match of a course takes up its piece at its position. -/
theorem Course.exists_front_of_mem (h : Course a previous t found) {n : Nat} {p : Nat × Found}
    (hp : p ∈ startsFrom n found) :
    ∃ front, t = front ++ (p.2.whole ++ p.2.after) ∧ p.1 = n + front.length ∧
      p.2.whole ≠ [] ∧ a.matchAt ⟨lastOf previous front, p.2.whole ++ p.2.after⟩ =
        some (p.2.captures, p.2.after) := by
  induction h generalizing n with
  | done => cases hp
  | @next previous t first found hfirst htakes _ ih =>
    obtain ⟨hparts, hmatch⟩ := findFrom_parts hfirst
    rcases List.mem_cons.mp hp with rfl | hp
    · exact ⟨first.before, hparts, rfl, htakes, hmatch⟩
    · obtain ⟨front, hafter, hstart, hne, hmatch⟩ := ih hp
      refine ⟨first.before ++ (first.whole ++ front), ?_, ?_, hne, ?_⟩
      · rw [hparts, hafter]
        simp only [List.append_assoc]
      · rw [hstart, List.length_append, List.length_append]
        omega
      · rwa [lastOf_append, lastOf_append, lastOf_eq _ first.whole,
          Option.or_of_isSome (by simpa using htakes)]

theorem map_snd_startsFrom (found : List Found) (n : Nat) :
    (startsFrom n found).map Prod.snd = found := by
  induction found generalizing n with
  | nil => rfl
  | cons f rest ih => exact congrArg (f :: ·) (ih _)

/-- Every match of a course is a match at its place. -/
theorem Course.matchAt_of_mem (h : Course a previous t found) (hf : f ∈ found) :
    ∃ front, t = front ++ (f.whole ++ f.after) ∧
      a.matchAt ⟨lastOf previous front, f.whole ++ f.after⟩ = some (f.captures, f.after) := by
  rw [← map_snd_startsFrom found 0] at hf
  obtain ⟨p, hp, rfl⟩ := List.mem_map.mp hf
  obtain ⟨front, hparts, -, -, hmatch⟩ := h.exists_front_of_mem hp
  exact ⟨front, hparts, hmatch⟩

/-- **Where a pattern matches, a match of the course begins or has not yet ended.** -/
theorem Course.covers (h : Course a previous t found) {before ahead : Text}
    (hparts : t = before ++ ahead) (hne : ahead ≠ [])
    (hmatch : (a.matchAt ⟨lastOf previous before, ahead⟩).isSome) (n : Nat) :
    ∃ p ∈ startsFrom n found, p.1 ≤ n + before.length ∧
      n + before.length < p.1 + p.2.whole.length := by
  induction h generalizing n before with
  | done hnone =>
    have hpassed := passes_of_findFrom_eq_none hnone before ahead hparts hne
    rw [List.append_nil] at hpassed
    rw [hpassed] at hmatch
    cases hmatch
  | @next previous t first found hfirst htakes _ ih =>
    have hwhole := (findFrom_parts hfirst).1
    rw [hparts] at hwhole
    -- the place lies in front of the first match, in it or behind it
    rcases List.append_eq_append_iff.mp hwhole with ⟨own, hown, hrest⟩ | ⟨own, rfl, hrest⟩
    · by_cases hnil : own = []
      · have htaken := List.length_pos_iff.mpr htakes
        have hlength := congrArg List.length hown
        rw [hnil, List.append_nil] at hlength
        exact ⟨_, .head _, Nat.le_of_eq (by rw [hlength]), by dsimp only; omega⟩
      · -- the search has passed all places in front of its match
        have hpassed := passes_of_findFrom hfirst before own hown hnil
        rw [← hrest] at hpassed
        rw [hpassed] at hmatch
        cases hmatch
    · rw [List.length_append]
      by_cases hwithin : own.length < first.whole.length
      · exact ⟨_, .head _, Nat.add_le_add_left (Nat.le_add_right _ _) n, by dsimp only; omega⟩
      · obtain ⟨back, rfl, hafter⟩ : ∃ back, own = first.whole ++ back ∧
            first.after = back ++ ahead := by
          rcases List.append_eq_append_iff.mp hrest with ⟨back, hback, hahead⟩ |
            ⟨back, hback, hahead⟩
          · exact ⟨back, hback, hahead⟩
          · have hlength := congrArg List.length hback
            rw [List.length_append] at hlength
            obtain rfl := List.eq_nil_of_length_eq_zero (show back.length = 0 by omega)
            exact ⟨[], by rw [hback, List.append_nil, List.append_nil], hahead.symm⟩
        have hbehind : lastOf previous (first.before ++ (first.whole ++ back)) =
            lastOf first.whole.getLast? back := by
          rw [lastOf_append, lastOf_append, lastOf_eq _ first.whole,
            Option.or_of_isSome (by simpa using htakes)]
        rw [hbehind] at hmatch
        obtain ⟨p, hp, hfirst', hlast⟩ :=
          ih hafter hmatch (n + first.before.length + first.whole.length)
        rw [List.length_append]
        exact ⟨p, .tail _ hp, by omega, by omega⟩

/-! ### A text and its matches -/

theorem lastAfter_cons (t : Text) (f : Found) (rest : List Found) :
    lastAfter t (f :: rest) = lastAfter f.after rest := by
  induction rest generalizing t f with
  | nil => rfl
  | cons g rest ih => exact (ih t g).trans (ih f.after g).symm

/-- The text that is made of matches, each with what is in front of it, and of what is behind the
last. -/
def woven : List Found → Text → Text
  | [], last => last
  | f :: rest, last => f.before ++ (f.whole ++ woven rest last)

/-- **A text is made of its matches and of the pieces around them.** -/
theorem Course.woven_eq (h : Course a previous t found) : woven found (lastAfter t found) = t := by
  induction h with
  | done => rfl
  | next hfirst _ _ ih => rw [lastAfter_cons, woven, ih, ← (findFrom_parts hfirst).1]

/-- Pieces that stand in a text one behind the other, with gaps around them. -/
inductive InOrder : List Text → Text → Prop
  | nil (t : Text) : InOrder [] t
  | cons {pieces : List Text} {t : Text} (gap piece : Text) (rest : InOrder pieces t) :
      InOrder (piece :: pieces) (gap ++ (piece ++ t))

theorem InOrder.behind {pieces : List Text} (h : InOrder pieces t) (front : Text) :
    InOrder pieces (front ++ t) := by
  cases h with
  | nil => exact .nil _
  | cons gap piece rest =>
    rw [← List.append_assoc]
    exact .cons (front ++ gap) piece rest

/-- The pieces between matches stand in the text in their order. -/
theorem inOrder_woven (last : Text) : ∀ found : List Found,
    InOrder (found.map (·.before) ++ [last]) (woven found last)
  | [] => by
    have hlast : InOrder [last] ([] ++ (last ++ [])) := .cons [] last (.nil [])
    rwa [List.append_nil] at hlast
  | f :: rest => .cons [] f.before ((inOrder_woven last rest).behind f.whole)

/-- Pieces that are trimmed still stand in order, and those that nothing is left of may be
dropped. -/
theorem InOrder.trimmed {pieces : List Text} (p : Char → Bool) (h : InOrder pieces t) :
    InOrder ((pieces.map (Text.trimOf p)).filter (!·.isEmpty)) t := by
  induction h with
  | nil t => exact .nil t
  | @cons pieces t gap piece _ ih =>
    obtain ⟨front, back, hpiece, -, -⟩ := Text.trimOf_parts p piece
    rw [List.map_cons]
    by_cases hleft : Text.trimOf p piece = []
    · rw [hleft, List.filter_cons_of_neg (by simp)]
      exact (ih.behind piece).behind gap
    · rw [List.filter_cons_of_pos (by simpa using hleft)]
      have hparts : gap ++ (piece ++ t) = (gap ++ front) ++
          (Text.trimOf p piece ++ (back ++ t)) := by
        conv_lhs => rw [hpiece]
        simp only [List.append_assoc]
      rw [hparts]
      exact .cons (gap ++ front) (Text.trimOf p piece) (ih.behind back)

/-- What trimming takes off pieces is of the class. -/
theorem filter_flatten_trimmed (p : Char → Bool) (pieces : List Text) :
    ((pieces.map (Text.trimOf p)).filter (!·.isEmpty)).flatten.filter (!p ·) =
      pieces.flatten.filter (!p ·) := by
  rw [List.flatten_filter_not_isEmpty]
  induction pieces with
  | nil => rfl
  | cons piece rest ih =>
    obtain ⟨front, back, hpiece, hfront, hback⟩ := Text.trimOf_parts p piece
    have hkept : (Text.trimOf p piece).filter (!p ·) = piece.filter (!p ·) := by
      have hnone : ∀ {t : Text}, (∀ c ∈ t, p c = true) → t.filter (!p ·) = [] := fun ht =>
        List.filter_eq_nil_iff.mpr fun c hc => by simp [ht c hc]
      conv_rhs => rw [hpiece]
      rw [List.filter_append, List.filter_append, hnone hfront, hnone hback,
        List.nil_append, List.append_nil]
    rw [List.map_cons, List.flatten_cons, List.flatten_cons, List.filter_append,
      List.filter_append, hkept, ih]

/-! ### Separators that cut no word -/

/-- A separator that takes up something, and begins and ends outside words. -/
def CutsNoWord (a : Pattern) : Prop :=
  ∀ (previous : Option Char) (whole after : Text) (g : Captures),
    a.matchAt ⟨previous, whole ++ after⟩ = some (g, after) →
      whole ≠ [] ∧ OutsideWord whole.head? ∧ OutsideWord whole.getLast?

theorem takesUp_of_cutsNoWord (ha : CutsNoWord a) : a.TakesUp := fun _ _ _ _ h => (ha _ _ _ _ h).1

/-- No word goes on where a match of such a separator begins. -/
theorem CutsNoWord.outside_head (ha : CutsNoWord a) (h : a.findFrom previous t = some f) :
    OutsideWord (f.whole ++ f.after).head? := by
  obtain ⟨hne, hhead, -⟩ := ha _ _ _ _ (findFrom_parts h).2
  rw [List.head?_append, Option.or_of_isSome (by simpa using hne)]
  exact hhead

theorem Course.cutFrom (h : Course a previous t found) (ha : CutsNoWord a) :
    ∀ piece ∈ found.map (·.before) ++ [lastAfter t found], CutFrom piece t := by
  induction h with
  | @done previous t _ => exact List.forall_mem_singleton.mpr (CutFrom.refl t)
  | @next previous t f found hfirst htakes _ ih =>
    obtain ⟨hparts, hmatch⟩ := findFrom_parts hfirst
    rw [List.map_cons, List.cons_append, lastAfter_cons]
    refine List.forall_mem_cons.mpr ⟨⟨[], _, hparts, rfl, ha.outside_head hfirst⟩,
      fun piece hpiece => ?_⟩
    refine (ih piece hpiece).trans ⟨f.before ++ f.whole, [], ?_, ?_, rfl⟩
    · rw [List.append_nil, List.append_assoc]
      exact hparts
    · rw [List.getLast?_append, Option.or_of_isSome (by simpa using htakes)]
      exact (ha _ _ _ _ hmatch).2.2

/-- The pieces between separators that cut no word are cut from the text. -/
theorem cutFrom_of_mem_split (ha : CutsNoWord a) (h : piece ∈ a.split t) : CutFrom piece t :=
  ((takesUp_of_cutsNoWord ha).course_findAll t).cutFrom ha piece h

/-- A piece that a search has passed shows nothing by itself either. -/
theorem Passes.not_occursIn (h : a.Passes previous piece rest) (hlocal : a.isLocal = true)
    (htakes : a.TakesUp) (hprevious : OutsideWord previous) (hrest : OutsideWord rest.head?) :
    a.occursIn piece = false := by
  refine Bool.eq_false_iff.mpr fun hoccurs => ?_
  obtain ⟨before, ahead, rfl, hmatch⟩ := exists_matchAt_of_findFrom hoccurs
  by_cases hahead : ahead = []
  · rw [hahead, htakes.matchAt_nil] at hmatch
    cases hmatch
  have hsome : (a.matchAt ⟨lastOf previous before, ahead ++ rest⟩).isSome :=
    matchAt_isSome_within hlocal hrest (Spot.within_lastOf hprevious before ahead) hmatch
  rw [h before ahead rfl hahead] at hsome
  cases hsome

theorem Course.not_occursIn (h : Course a previous t found) (ha : CutsNoWord a)
    (hlocal : a.isLocal = true) (hprevious : OutsideWord previous) :
    ∀ piece ∈ found.map (·.before) ++ [lastAfter t found], a.occursIn piece = false := by
  induction h with
  | done hnone =>
    refine List.forall_mem_singleton.mpr ?_
    exact (passes_of_findFrom_eq_none hnone).not_occursIn hlocal
      (takesUp_of_cutsNoWord ha) hprevious rfl
  | @next previous t f found hfirst _ _ ih =>
    rw [List.map_cons, List.cons_append, lastAfter_cons]
    refine List.forall_mem_cons.mpr ⟨?_, ih (ha _ _ _ _ (findFrom_parts hfirst).2).2.2⟩
    exact (passes_of_findFrom hfirst).not_occursIn hlocal (takesUp_of_cutsNoWord ha) hprevious
      (ha.outside_head hfirst)

/-- **No piece can be split again.** -/
theorem not_occursIn_of_mem_split (ha : CutsNoWord a) (hlocal : a.isLocal = true)
    (h : piece ∈ a.split t) :
    a.occursIn piece = false :=
  ((takesUp_of_cutsNoWord ha).course_findAll t).not_occursIn ha hlocal rfl piece h

/-- A text without a separator is a single piece. -/
theorem split_of_not_occursIn (h : a.occursIn t = false) : a.split t = [t] := by
  have hcourse : Course a none t [] := .done (by simpa [occursIn, find?] using h)
  unfold split
  rw [hcourse.findAll_eq]
  rfl

end PlainSteps.Pattern
