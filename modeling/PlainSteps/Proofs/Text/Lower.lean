import Mathlib.Data.List.Infix
import PlainSteps.Proofs.Text.Case
import PlainSteps.Text.Basic

/-! # Lower case in context

A letter has the same lower case wherever it stands, except a capital sigma, whose form says whether
its word ends there. In a part of a text that is put in lower case by itself, the words are cut off
at its two ends. So a part is found again in the lower case of every text around it just when none
of its sigmas takes another form once letters are put in front of the part or behind it
(`includes_lower_iff`).
-/

namespace PlainSteps.Text

/-! ### Searching -/

/-- A part that occurs in a text is an infix of it. -/
theorem includes_iff {part t : Text} : includes part t = true ↔ part <:+: t := by
  induction t with
  | nil => simp [includes]
  | cons c cs ih => simp [includes, startsWith, ih, List.infix_cons_iff]

/-! ### Letters around a text -/

/-- Whether the last character that is not case-ignorable is cased, once a character is read. -/
def advance (cased : Bool) (c : Char) : Bool := if isCaseIgnorable c then cased else isCased c

/-- Whether the last character that is not case-ignorable is cased, once a text is read. -/
def casedAfter (cased : Bool) (t : Text) : Bool := t.foldl advance cased

/-- The lower case of a character, given whether a cased one comes before it and whether one comes
next. -/
def lowerLetter (cased next : Bool) (c : Char) : Text :=
  if c == 'Σ' then [if cased && !next then 'ς' else 'σ']
  else if c == 'İ' then ['i', '\u0307']
  else [lowerChar c]

/-- Lower case of a text in front of another. -/
def lowerBefore (after : Text) (cased : Bool) : Text → Text
  | [] => []
  | c :: cs => lowerLetter cased (nextCased (cs ++ after)) c ++
      lowerBefore after (advance cased c) cs

variable {cased cased' : Bool} {after after' before t : Text}

theorem lowerAfter_eq (cased : Bool) (t : Text) : lowerAfter cased t = lowerBefore [] cased t := by
  induction t generalizing cased with
  | nil => rfl
  | cons c cs ih =>
    rw [lowerBefore, List.append_nil, ← ih]
    rfl

/-- The lower case of a part hangs on the text around it by what is cased at its ends alone. -/
theorem lowerBefore_append (after : Text) (cased : Bool) (a b : Text) :
    lowerBefore after cased (a ++ b) = lowerBefore (b ++ after) cased a ++
      lowerBefore after (casedAfter cased a) b := by
  induction a generalizing cased with
  | nil => rfl
  | cons c cs ih =>
    rw [List.cons_append, lowerBefore, ih, lowerBefore, List.append_assoc, List.append_assoc]
    rfl

theorem lower_append (before t after : Text) :
    lower (before ++ t ++ after) = lowerBefore (t ++ after) false before ++
      lowerBefore after (casedAfter false before) t ++
        lowerBefore [] (casedAfter false (before ++ t)) after := by
  rw [lower, lowerAfter_eq, lowerBefore_append, lowerBefore_append, List.append_nil]

/-- Both forms of a sigma are of one length. -/
theorem length_lowerBefore (after after' : Text) (cased cased' : Bool) (t : Text) :
    (lowerBefore after cased t).length = (lowerBefore after' cased' t).length := by
  induction t generalizing cased cased' with
  | nil => rfl
  | cons c cs ih =>
    rw [lowerBefore, lowerBefore, List.length_append, List.length_append,
      ih (advance cased c) (advance cased' c)]
    congr 1
    unfold lowerLetter
    split
    · rfl
    · rfl

/-- Only the empty text has an empty lower case. -/
theorem lower_eq_nil_iff : lower t = [] ↔ t = [] := by
  cases t with
  | nil => exact iff_of_true rfl rfl
  | cons c cs =>
    refine iff_of_false (List.append_ne_nil_of_left_ne_nil ?_ _) (List.cons_ne_nil c cs)
    split
    · exact List.cons_ne_nil _ _
    · split <;> exact List.cons_ne_nil _ _

/-! ### Sigmas at the ends -/

/-- A sigma that takes another form when letters are put in front of the text, or behind it. -/
inductive HasLooseSigma (t : Text) : Prop
  /-- The sigma ends a word, which may begin in front of the text. -/
  | front {before after : Text} (parts : t = before ++ 'Σ' :: after)
      (reaches : ∀ c ∈ before, isCaseIgnorable c = true) (ends : nextCased after = false) :
      HasLooseSigma t
  /-- The sigma stands behind a letter of its word, which may go on behind the text. -/
  | back {before after : Text} (parts : t = before ++ 'Σ' :: after)
      (begun : casedAfter false before = true) (reaches : ∀ c ∈ after, isCaseIgnorable c = true) :
      HasLooseSigma t

theorem casedAfter_of_ignorable (h : ∀ c ∈ t, isCaseIgnorable c = true) :
    casedAfter cased t = cased := by
  induction t with
  | nil => rfl
  | cons c cs ih =>
    rw [casedAfter, List.foldl_cons, advance, if_pos (h c (.head _))]
    exact ih fun d hd => h d (.tail _ hd)

/-- A character that is not ignorable makes what was before it count no more. -/
theorem casedAfter_congr (cased cased' : Bool) (h : ¬ ∀ c ∈ t, isCaseIgnorable c = true) :
    casedAfter cased t = casedAfter cased' t := by
  induction t generalizing cased cased' with
  | nil => exact absurd (by simp) h
  | cons c cs ih =>
    rw [casedAfter, casedAfter, List.foldl_cons, List.foldl_cons]
    by_cases hc : isCaseIgnorable c = true
    · exact ih _ _ fun hcs => h (List.forall_mem_cons.mpr ⟨hc, hcs⟩)
    · rw [advance, advance, if_neg hc, if_neg hc]

theorem nextCased_of_ignorable (after : Text) (h : ∀ c ∈ t, isCaseIgnorable c = true) :
    nextCased (t ++ after) = nextCased after := by
  induction t with
  | nil => rfl
  | cons c cs ih =>
    rw [List.cons_append, nextCased, if_pos (h c (.head _))]
    exact ih fun d hd => h d (.tail _ hd)

theorem nextCased_congr (h : ¬ ∀ c ∈ t, isCaseIgnorable c = true) :
    nextCased (t ++ after) = nextCased t := by
  induction t with
  | nil => exact absurd (by simp) h
  | cons c cs ih =>
    rw [List.cons_append, nextCased, nextCased]
    by_cases hc : isCaseIgnorable c = true
    · rw [if_pos hc, if_pos hc]
      exact ih fun hcs => h (List.forall_mem_cons.mpr ⟨hc, hcs⟩)
    · rw [if_neg hc, if_neg hc]

/-- A sigma that is not loose ends its word in every context, or in none. -/
theorem ends_of_not_loose (h : ¬ HasLooseSigma (before ++ 'Σ' :: t)) :
    (casedAfter cased before && !nextCased (t ++ after)) =
      (casedAfter false before && !nextCased t) := by
  by_cases hbefore : ∀ c ∈ before, isCaseIgnorable c = true
  · have hnext : nextCased t = true := by simpa using fun hends => h (.front rfl hbefore hends)
    have hall : ¬ ∀ c ∈ t, isCaseIgnorable c = true := fun hall => by
      have := nextCased_of_ignorable [] hall
      rw [List.append_nil, hnext] at this
      cases this
    rw [nextCased_congr hall, hnext, Bool.not_true, Bool.and_false, Bool.and_false]
  · rw [casedAfter_congr cased false hbefore]
    by_cases hall : ∀ c ∈ t, isCaseIgnorable c = true
    · have hbegun : casedAfter false before = false :=
        by simpa using fun hbegun => h (.back rfl hbegun hall)
      rw [hbegun, Bool.false_and, Bool.false_and]
    · rw [nextCased_congr hall]

/-- Lower case is the same in two contexts in which each letter has the same form. -/
theorem lowerBefore_congr (h : ∀ a c b, t = a ++ c :: b →
      lowerLetter (casedAfter cased a) (nextCased (b ++ after)) c =
        lowerLetter (casedAfter cased' a) (nextCased (b ++ after')) c) :
    lowerBefore after cased t = lowerBefore after' cased' t := by
  induction t generalizing cased cased' with
  | nil => rfl
  | cons c cs ih =>
    rw [lowerBefore, lowerBefore]
    congr 1
    · exact h [] c cs rfl
    · exact ih fun a d b hparts => h (c :: a) d b (by rw [hparts, List.cons_append])

/-- Without a loose sigma a text has the same lower case in every context. -/
theorem lowerBefore_of_not_loose (h : ¬ HasLooseSigma t) : lowerBefore after cased t = lower t := by
  rw [lower, lowerAfter_eq]
  refine lowerBefore_congr fun a c b hparts => ?_
  unfold lowerLetter
  split
  · rename_i hsigma
    rw [eq_of_beq hsigma] at hparts
    rw [List.append_nil, ends_of_not_loose (hparts ▸ h)]
  · rfl

/-- What stands behind a text without a sigma leaves its lower case alone. -/
theorem lower_prefix_append (h : 'Σ' ∉ t) (after : Text) : lower t <+: lower (t ++ after) := by
  have hsettled : ¬ HasLooseSigma t := by
    rintro (⟨hparts, -, -⟩ | ⟨hparts, -, -⟩)
    · exact h (by simp [hparts])
    · exact h (by simp [hparts])
  have hparts : lower (t ++ after) = lower t ++ lowerBefore [] (casedAfter false t) after := by
    rw [lower, lowerAfter_eq, lowerBefore_append, lowerBefore_of_not_loose hsettled]
  rw [hparts]
  exact List.prefix_append _ _

/-- A sigma of two forms gives a text two lower cases. -/
theorem lowerBefore_ne (hparts : t = before ++ 'Σ' :: after) {p p' : Text}
    (h : (casedAfter cased before && !nextCased (after ++ p)) ≠
      (casedAfter cased' before && !nextCased (after ++ p'))) :
    lowerBefore p cased t ≠ lowerBefore p' cased' t := by
  rw [hparts, lowerBefore_append, lowerBefore_append]
  intro heq
  have hrest := (List.append_inj heq (length_lowerBefore _ _ _ _ before)).2
  rw [lowerBefore, lowerBefore] at hrest
  have hsigma := (List.cons.inj hrest).1
  generalize (casedAfter cased before && !nextCased (after ++ p)) = ends at h hsigma
  generalize (casedAfter cased' before && !nextCased (after ++ p')) = ends' at h hsigma
  cases ends <;> cases ends' <;> first | exact h rfl | exact absurd hsigma (by decide)

/-! ### Plain characters -/

/-- The characters of ASCII that are the lower case of nothing else but, if they are letters, their
capitals. -/
def IsPlain (c : Char) : Prop := IsMark c ∨ IsOwnLetter c

instance (c : Char) : Decidable (IsPlain c) := inferInstanceAs (Decidable (_ ∨ _))

theorem IsPlain.lt {c : Char} (h : IsPlain c) : c.toNat < 128 := by
  rcases h with h | h
  · exact h.2.1
  · exact Nat.lt_of_le_of_lt h.2.1 (by decide)

theorem IsPlain.fold_eq {c : Char} (h : IsPlain c) : fold c = c := by
  rcases id h with hmark | ⟨hfirst, -, -⟩
  · exact hmark.fold_eq
  · rw [fold_ascii h.lt, if_neg (by omega)]

/-- A plain character is the lower case of the characters that equal it up to case. -/
theorem IsPlain.lowerChar_eq_iff {c d : Char} (hc : IsPlain c) :
    lowerChar d = c ↔ fold d = fold c := by
  rw [hc.fold_eq]
  constructor
  · intro hlower
    unfold fold
    dsimp only
    rw [hlower, if_pos hc.lt]
  · intro hfold
    have hself : fold d = fold c := hfold.trans hc.fold_eq.symm
    have hascii : d = c ∨ d.toNat + 32 = c.toNat := by
      rcases hc with hmark | hown
      · exact .inl (hmark.fold_eq_iff.mp hself)
      · exact hown.of_fold_eq hself
    have hlt : d.toNat < 128 := by
      have := hc.lt
      rcases hascii with rfl | hcapital
      · exact this
      · omega
    rw [fold_ascii hlt] at hfold
    unfold lowerChar
    dsimp only
    rw [if_pos hlt]
    simpa using hfold

/-- What equals a plain character up to case has it as its lower case everywhere. -/
theorem IsPlain.lowerLetter_eq {c d : Char} (hc : IsPlain c) (h : fold d = fold c) (next : Bool) :
    lowerLetter cased next d = [c] := by
  have hlower := hc.lowerChar_eq_iff.mpr h
  have hsigma : ¬ (d == 'Σ') = true := by
    intro heq
    rw [eq_of_beq heq] at hlower
    exact absurd hc.lt (hlower ▸ by decide)
  have hdotted : ¬ (d == 'İ') = true := by
    intro heq
    rw [eq_of_beq heq] at hlower
    subst hlower
    revert hc
    decide
  rw [lowerLetter, if_neg hsigma, if_neg hdotted, hlower]

theorem lowerLetter_ne_nil (cased next : Bool) (c : Char) : lowerLetter cased next c ≠ [] := by
  unfold lowerLetter
  split
  · exact List.cons_ne_nil _ _
  · split <;> exact List.cons_ne_nil _ _

/-- No character is lost in lower case. -/
theorem length_le_lower (t : Text) : t.length ≤ (lower t).length := by
  rw [lower, lowerAfter_eq]
  generalize false = cased
  induction t generalizing cased with
  | nil => exact Nat.le_refl _
  | cons c cs ih =>
    have hletter := List.length_pos_iff.mpr (lowerLetter_ne_nil cased (nextCased (cs ++ [])) c)
    have hrest := ih (advance cased c)
    rw [lowerBefore, List.length_append, List.length_cons]
    omega

/-- Only what equals a plain character up to case has a lower case that ends with it. -/
theorem IsPlain.fold_eq_of_lowerLetter {c d : Char} (hc : IsPlain c) {next : Bool}
    (h : (lowerLetter cased next d).getLast? = some c) :
    fold d = fold c ∧ lowerLetter cased next d = [c] := by
  have hfold : fold d = fold c := by
    have hlt := hc.lt
    unfold lowerLetter at h
    split at h
    · rw [List.getLast?_singleton] at h
      obtain rfl := Option.some.inj h
      split at hlt <;> exact absurd hlt (by decide)
    · split at h
      · obtain rfl : '\u0307' = c := Option.some.inj h
        exact absurd hlt (by decide)
      · exact hc.lowerChar_eq_iff.mp (Option.some.inj h)
  exact ⟨hfold, hc.lowerLetter_eq hfold next⟩

theorem lowerBefore_of_plain {plain written : Text} (hplain : ∀ c ∈ plain, IsPlain c)
    (h : written.map fold = plain.map fold) : lowerBefore after cased written = plain := by
  induction plain generalizing written cased with
  | nil =>
    rw [List.map_eq_nil_iff.mp h]
    rfl
  | cons c cs ih =>
    obtain ⟨d, ds, rfl, hd, hds⟩ := List.map_eq_cons_iff.mp h
    obtain ⟨hc, hcs⟩ := List.forall_mem_cons.mp hplain
    rw [lowerBefore, hc.lowerLetter_eq hd, ih hcs hds]
    rfl

/-- **A text ends with plain characters in lower case just when it ends with them in some case.** -/
theorem endsWith_lower_iff {plain : Text} (hplain : ∀ c ∈ plain, IsPlain c) :
    endsWith plain (lower t) = true ↔ ∃ front written, t = front ++ written ∧
    written.map fold = plain.map fold := by
  rw [endsWith, List.isSuffixOf_iff_suffix, lower, lowerAfter_eq]
  constructor
  · generalize ([] : Text) = after
    generalize false = cased
    intro hends
    -- from the last character to the first, as what follows a character decides its lower case
    induction plain using List.reverseRecOn generalizing t after with
    | nil => exact ⟨t, [], (List.append_nil t).symm, rfl⟩
    | append_singleton cs c ih =>
      rcases List.eq_nil_or_concat t with rfl | ⟨ds, d, rfl⟩
      · exact absurd (List.eq_nil_of_suffix_nil hends) (by simp)
      · rw [List.concat_eq_append, lowerBefore_append] at hends
        obtain ⟨hcs, hc⟩ := List.forall_mem_append.mp hplain
        obtain ⟨before, hbefore⟩ := hends
        rw [lowerBefore, lowerBefore, List.append_nil] at hbefore
        have hlast := congrArg List.getLast? hbefore
        rw [← List.append_assoc, List.getLast?_concat, List.getLast?_append,
          Option.or_of_isSome (by simpa using lowerLetter_ne_nil _ _ d)] at hlast
        obtain ⟨hfold, hletter⟩ :=
          (hc c (List.mem_singleton_self c)).fold_eq_of_lowerLetter hlast.symm
        rw [hletter, ← List.append_assoc] at hbefore
        obtain ⟨front, written, rfl, hwritten⟩ :=
          ih hcs _ ⟨before, List.append_cancel_right hbefore⟩
        exact ⟨front, written ++ [d], by simp, by simp [hwritten, hfold]⟩
  · rintro ⟨front, written, rfl, hwritten⟩
    rw [lowerBefore_append, lowerBefore_of_plain hplain hwritten]
    exact List.suffix_append _ _

/-- No letter has a lower case that is no character. -/
theorem lowerRuns_valid : ∀ run ∈ lowerRuns, 0 < (run.1 : Int) + run.2.2.2 ∧
    ((run.2.1 : Int) + run.2.2.2 < 0xd800 ∨
      0xdfff < (run.1 : Int) + run.2.2.2 ∧ (run.2.1 : Int) + run.2.2.2 < 0x110000) := by
  decide +kernel

theorem eq_nul_of_lowerChar {c : Char} (h : lowerChar c = '\x00') : c = '\x00' := by
  unfold lowerChar at h
  dsimp only at h
  split at h
  · split at h
    · rename_i hascii hupper
      simp only [Bool.and_eq_true, decide_eq_true_eq] at hupper
      have hcode := congrArg Char.toNat h
      rw [toNat_ofNat_of_lt (by omega)] at hcode
      exact absurd hcode (by simp)
    · exact h
  · rename_i hbeyond
    have hcode := congrArg Char.toNat h
    -- the distance of a run leads to a code point, and not to the first one
    have hvalid : (c.toNat + lowerDistance c.toNat lowerRuns).toNat.isValidChar ∧
        (c.toNat + lowerDistance c.toNat lowerRuns).toNat ≠ 0 := by
      rcases lowerDistance_eq c.toNat lowerRuns with hnone | ⟨run, hrun, hfirst, hlast, hdistance⟩
      · rw [hnone, Int.add_zero, Int.toNat_natCast]
        exact ⟨c.valid, by omega⟩
      · obtain ⟨hpos, hrange⟩ := lowerRuns_valid run hrun
        rw [hdistance]
        unfold Nat.isValidChar
        omega
    unfold Char.ofNat at hcode
    rw [dif_pos hvalid.1] at hcode
    exact absurd hcode hvalid.2

theorem mem_lowerLetter {c d : Char} {next : Bool} (h : c ∈ lowerLetter cased next d) :
    c ∈ ['ς', 'σ', 'i', '\u0307'] ∨ lowerChar d = c := by
  unfold lowerLetter at h
  split at h
  · left
    rw [List.mem_singleton.mp h]
    split <;> decide
  · split at h
    · exact .inl (List.mem_append_right ['ς', 'σ'] h)
    · exact .inr (List.mem_singleton.mp h).symm

theorem mem_lowerBefore {c : Char} (h : c ∈ lowerBefore after cased t) :
    c ∈ ['ς', 'σ', 'i', '\u0307'] ∨ ∃ d ∈ t, lowerChar d = c := by
  induction t generalizing cased with
  | nil => cases h
  | cons d ds ih =>
    rw [lowerBefore] at h
    rcases List.mem_append.mp h with hhere | hrest
    · exact (mem_lowerLetter hhere).imp_right fun hlower => ⟨d, .head _, hlower⟩
    · exact (ih hrest).imp_right fun ⟨d', hd', hlower⟩ => ⟨d', .tail _ hd', hlower⟩

/-- Lower case brings no mark and no NUL into a text. -/
theorem not_mem_lower {c : Char} (hc : IsMark c ∨ c = '\x00') (h : c ∉ t) : c ∉ lower t := by
  intro hin
  rw [lower, lowerAfter_eq] at hin
  rcases mem_lowerBefore hin with hletter | ⟨d, hd, hlower⟩
  · revert hc
    simp only [List.mem_cons, List.not_mem_nil, or_false] at hletter
    rcases hletter with rfl | rfl | rfl | rfl <;> decide
  · rcases hc with hmark | rfl
    · obtain rfl := hmark.fold_eq_iff.mp ((IsPlain.lowerChar_eq_iff (.inl hmark)).mp hlower)
      exact h hd
    · rw [eq_nul_of_lowerChar hlower] at hd
      exact h hd

/-! ### Parts -/

/-- A text one character longer than a part holds it at its start or at its end. -/
theorem infix_of_length {part longer : Text} (h : part <:+: longer)
    (hlength : longer.length = part.length + 1) :
    (∃ z, longer = part ++ [z]) ∨ ∃ z, longer = z :: part := by
  obtain ⟨front, back, rfl⟩ := h
  simp only [List.length_append] at hlength
  rcases front with _ | ⟨z, front⟩
  · have hback : back.length = 1 := by simpa [Nat.add_comm] using hlength
    obtain ⟨z, rfl⟩ := List.length_eq_one_iff.mp hback
    exact .inl ⟨z, rfl⟩
  · obtain ⟨rfl, rfl⟩ : front = [] ∧ back = [] := by
      simp only [List.length_cons] at hlength
      exact ⟨List.eq_nil_of_length_eq_zero (by omega), List.eq_nil_of_length_eq_zero (by omega)⟩
    exact .inr ⟨z, by simp⟩

/-- One of two small letters is another one than a given character. -/
theorem exists_letter_ne (o : Option Char) : ∃ z, (z = 'a' ∨ z = 'b') ∧ o ≠ some z := by
  by_cases h : o = some 'a'
  · exact ⟨'b', .inr rfl, by rw [h]; decide⟩
  · exact ⟨'a', .inl rfl, h⟩

/-- A part whose lower case is another one behind some letter is lost there. -/
theorem not_includes_behind {part : Text} (h : lowerBefore [] true part ≠ lower part) :
    ∃ z, includes (lower part) (lower (z :: part)) = false := by
  -- a letter that the lower case of the part does not begin with, lest the part be found one place
  -- further on
  obtain ⟨z, hz, hhead⟩ := exists_letter_ne (lower part).head?
  refine ⟨z, ?_⟩
  have hlower : lower (z :: part) = z :: lowerBefore [] true part := by
    rw [lower, lowerAfter_eq, lowerBefore]
    rcases hz with rfl | rfl <;> rfl
  rw [← Bool.not_eq_true, includes_iff, hlower]
  intro hinfix
  have hlength : (z :: lowerBefore [] true part).length = (lower part).length + 1 := by
    rw [lower, lowerAfter_eq, List.length_cons, length_lowerBefore]
  rcases infix_of_length hinfix hlength with ⟨x, hfirst⟩ | ⟨x, hrest⟩
  · cases hpart : lower part with
    | nil =>
      rw [hpart] at hfirst
      exact h ((List.cons.inj hfirst).2.trans hpart.symm)
    | cons d ds =>
      rw [hpart] at hfirst hhead
      exact hhead (congrArg some (List.cons.inj hfirst).1.symm)
  · exact h (List.cons.inj hrest).2

/-- A part whose lower case is another one in front of some letter is lost there. -/
theorem not_includes_before {part : Text}
    (h : ∀ z, z = 'a' ∨ z = 'b' → lowerBefore [z] false part ≠ lower part) :
    ∃ z, includes (lower part) (lower (part ++ [z])) = false := by
  obtain ⟨z, hz, hlast⟩ := exists_letter_ne (lower part).getLast?
  refine ⟨z, ?_⟩
  have hlower : lower (part ++ [z]) = lowerBefore [z] false part ++ [z] := by
    rw [lower, lowerAfter_eq, lowerBefore_append]
    rcases hz with rfl | rfl <;> rfl
  rw [← Bool.not_eq_true, includes_iff, hlower]
  intro hinfix
  have hlength : (lowerBefore [z] false part ++ [z]).length = (lower part).length + 1 := by
    rw [lower, lowerAfter_eq, List.length_append, List.length_singleton, length_lowerBefore]
  rcases infix_of_length hinfix hlength with ⟨x, hfirst⟩ | ⟨x, hrest⟩
  · exact h z hz (List.append_inj_left' hfirst rfl)
  · cases hpart : lower part with
    | nil =>
      rw [hpart] at hrest
      have hnil : lowerBefore [z] false part = [] := by
        rw [← List.length_eq_zero_iff]
        simpa using congrArg List.length hrest
      exact h z hz (hnil.trans hpart.symm)
    | cons d ds =>
      have hends := congrArg List.getLast? hrest
      rw [List.getLast?_append, List.getLast?_cons, hpart] at hends
      rw [hpart] at hlast
      exact hlast (by simpa using hends.symm)

/-- **A part is found in the lower case of every text that holds it just when it has no loose
sigma.** -/
theorem includes_lower_iff {part : Text} :
    (∀ t, part <:+: t → includes (lower part) (lower t) = true) ↔ ¬ HasLooseSigma part := by
  constructor
  · rintro hall (⟨hparts, hreaches, hends⟩ | ⟨hparts, hbegun, hreaches⟩)
    · -- a letter in front turns the loose sigma into a final one
      obtain ⟨z, hlost⟩ : ∃ z, includes (lower part) (lower (z :: part)) = false := by
        refine not_includes_behind ?_
        rw [lower, lowerAfter_eq]
        refine lowerBefore_ne hparts ?_
        rw [casedAfter_of_ignorable hreaches, casedAfter_of_ignorable hreaches,
          List.append_nil, hends]
        decide
      rw [hall _ (List.infix_cons (List.infix_refl part))] at hlost
      cases hlost
    · -- a letter behind turns a final sigma into a common one
      obtain ⟨z, hlost⟩ : ∃ z, includes (lower part) (lower (part ++ [z])) = false := by
        refine not_includes_before fun z hz => ?_
        rw [lower, lowerAfter_eq]
        refine lowerBefore_ne hparts ?_
        rw [nextCased_of_ignorable _ hreaches, nextCased_of_ignorable _ hreaches, hbegun]
        rcases hz with rfl | rfl <;> decide
      rw [hall _ (List.prefix_append part [z]).isInfix] at hlost
      cases hlost
  · rintro hsettled t ⟨before, after, rfl⟩
    rw [includes_iff, lower_append, lowerBefore_of_not_loose hsettled]
    exact ⟨_, _, rfl⟩

end PlainSteps.Text
