import PlainSteps.Prompt
import PlainSteps.Proofs.Text.Lower

/-! # What hints at a tag

A prompt without tags of its own gets those whose hints occur in the lower case of its path and its
body. A slash or a blank cuts a text in two that are put in lower case each by itself, since no word
goes on behind it. No hint has such a character, so a hint occurs on one side of it or on the other:
what a path and a body hint at together is what the names of the path and the body hint at one by
one (`mem_inferTags_append_cons`).
-/

namespace PlainSteps

namespace Text

variable {a b part : Text} {c : Char}

/-- A character at which every word ends and that is its own lower case. -/
structure EndsWords (c : Char) : Prop where
  not_ignorable : isCaseIgnorable c = false
  not_cased : isCased c = false
  lowerLetter_eq : ∀ cased next, lowerLetter cased next c = [c]

theorem endsWords_slash : EndsWords '/' := ⟨by decide, by decide, fun _ _ => rfl⟩

theorem endsWords_space : EndsWords ' ' := ⟨by decide, by decide, fun _ _ => rfl⟩

theorem EndsWords.nextCased_append_cons (hc : EndsWords c) (a b : Text) :
    nextCased (a ++ c :: b) = nextCased a := by
  induction a with
  | nil => simp [nextCased, hc.not_ignorable, hc.not_cased]
  | cons d ds ih => rw [List.cons_append, nextCased, nextCased, ih]

/-- Each side of such a character is put in lower case by itself. -/
theorem EndsWords.lower_append_cons (hc : EndsWords c) (a b : Text) :
    lower (a ++ c :: b) = lower a ++ c :: lower b := by
  have hfront : lowerBefore (c :: b) false a = lowerBefore [] false a :=
    lowerBefore_congr fun _ d rest _ => by rw [hc.nextCased_append_cons, List.append_nil]
  have hbehind : advance (casedAfter false a) c = false := by
    rw [advance, hc.not_ignorable, hc.not_cased]
    rfl
  rw [lower, lower, lower, lowerAfter_eq, lowerAfter_eq, lowerAfter_eq, lowerBefore_append,
    lowerBefore, hbehind, hc.lowerLetter_eq, List.append_nil, hfront, List.singleton_append]

/-- A part without a character stands in a text on one side of it. -/
theorem infix_append_cons_iff (h : c ∉ part) :
    part <:+: a ++ c :: b ↔ part <:+: a ∨ part <:+: b := by
  constructor
  · rintro ⟨front, back, heq⟩
    rw [List.append_assoc] at heq
    rcases List.append_eq_append_iff.mp heq with ⟨between, rfl, hparts⟩ | ⟨between, rfl, hparts⟩
    · -- the part begins in front of the character, so it ends there too
      rcases List.append_eq_append_iff.mp hparts with ⟨rest, rfl, -⟩ | ⟨rest, rfl, hrest⟩
      · exact .inl ⟨front, rest, by simp⟩
      · cases rest with
        | nil => exact .inl ⟨front, [], by simp⟩
        | cons d ds =>
          obtain ⟨rfl, -⟩ := List.cons.inj hrest
          simp at h
    · cases between with
      | nil =>
        cases part with
        | nil => exact .inl (List.nil_infix)
        | cons d ds =>
          obtain ⟨rfl, -⟩ := List.cons.inj hparts
          simp at h
      | cons d ds => exact .inr ⟨ds, back, by simpa using (List.cons.inj hparts).2.symm⟩
  · rintro (⟨front, back, rfl⟩ | ⟨front, back, rfl⟩)
    · exact ⟨front, back ++ c :: b, by simp⟩
    · exact ⟨a ++ c :: front, back, by simp⟩

end Text

namespace Prompt

variable {a b t tag : Text} {c : Char}

theorem mem_inferTags_iff :
    tag ∈ inferTags t ↔ ∃ group ∈ tagHints, group.1 = tag ∧ ∃ hint ∈ group.2,
      hint <:+: Text.lower t := by
  simp only [inferTags, List.mem_map, List.mem_filter, List.any_eq_true, Text.includes_iff]
  constructor
  · rintro ⟨group, ⟨hgroup, hhint⟩, rfl⟩
    exact ⟨group, hgroup, rfl, hhint⟩
  · rintro ⟨group, hgroup, rfl, hhint⟩
    exact ⟨group, ⟨hgroup, hhint⟩, rfl⟩

/-- No hint has a slash or a blank in it. -/
theorem noSeparator_of_hint : ∀ group ∈ tagHints, ∀ hint ∈ group.2, '/' ∉ hint ∧ ' ' ∉ hint := by
  decide

/-- **What two texts hint at together is what each of them hints at**, with a slash or a blank
between them. -/
theorem mem_inferTags_append_cons (hc : c = '/' ∨ c = ' ') :
    tag ∈ inferTags (a ++ c :: b) ↔ tag ∈ inferTags a ∨ tag ∈ inferTags b := by
  have hends : Text.EndsWords c := by
    rcases hc with rfl | rfl
    · exact Text.endsWords_slash
    · exact Text.endsWords_space
  -- no hint has a slash or a blank, so it lies on one side; and neither changes the case of what is
  -- beside it
  have hhint : ∀ group ∈ tagHints, ∀ hint ∈ group.2,
      (hint <:+: Text.lower (a ++ c :: b) ↔ hint <:+: Text.lower a ∨ hint <:+: Text.lower b) := by
    intro group hgroup hint hmem
    obtain ⟨hslash, hspace⟩ := noSeparator_of_hint group hgroup hint hmem
    rw [hends.lower_append_cons,
      Text.infix_append_cons_iff (by rcases hc with rfl | rfl <;> assumption)]
  simp only [mem_inferTags_iff]
  constructor
  · rintro ⟨group, hgroup, hname, hint, hmem, hfound⟩
    rcases (hhint group hgroup hint hmem).mp hfound with hfront | hbehind
    · exact .inl ⟨group, hgroup, hname, hint, hmem, hfront⟩
    · exact .inr ⟨group, hgroup, hname, hint, hmem, hbehind⟩
  · rintro
      (⟨group, hgroup, hname, hint, hmem, hfront⟩ | ⟨group, hgroup, hname, hint, hmem, hbehind⟩)
    · exact ⟨group, hgroup, hname, hint, hmem, (hhint group hgroup hint hmem).mpr (.inl hfront)⟩
    · exact ⟨group, hgroup, hname, hint, hmem, (hhint group hgroup hint hmem).mpr (.inr hbehind)⟩

/-- Slashes hint at nothing. -/
theorem mem_inferTags_append_slashes {slashes : Text} (h : ∀ d ∈ slashes, d = '/') :
    tag ∈ inferTags (t ++ slashes) ↔ tag ∈ inferTags t := by
  induction slashes generalizing t with
  | nil => rw [List.append_nil]
  | cons d ds ih =>
    obtain ⟨rfl, hds⟩ := List.forall_mem_cons.mp h
    have hnone : tag ∉ inferTags ds := by
      have hempty := ih (t := []) hds
      rw [List.nil_append] at hempty
      exact mt hempty.mp List.not_mem_nil
    rw [mem_inferTags_append_cons (.inl rfl), or_iff_left hnone]

end Prompt

end PlainSteps
