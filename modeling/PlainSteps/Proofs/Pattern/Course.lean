import Mathlib.Data.List.Infix
import PlainSteps.Proofs.Pattern.Run

/-! # The course of a search

A search passes every place where nothing matches and stops at the first one where something does.
So where the parts of a text are known, what is found can be read off them: a front in which a
pattern matches nowhere only goes in front of what is found behind it, and all matches of a text are
a course of such steps, each behind the piece that the one before has taken up. A pattern that
begins with a word matches nowhere in a front that shows neither the word nor the beginning of it at
its end.
-/

namespace PlainSteps.Pattern

variable {a : Pattern} {previous : Option Char} {front rest t : Text} {found : List Found}

/-! ### One match -/

/-- A pattern matches at no place of a front. -/
def Passes (a : Pattern) (previous : Option Char) (front rest : Text) : Prop :=
  ∀ before ahead, front = before ++ ahead → ahead ≠ [] →
    a.matchAt ⟨lastOf previous before, ahead ++ rest⟩ = none

/-- There is no place in an empty front. -/
theorem passes_nil : a.Passes previous [] rest := fun _ _ hnil hahead =>
  absurd (List.append_eq_nil_iff.mp hnil.symm).2 hahead

theorem passes_cons_iff {c : Char} : a.Passes previous (c :: front) rest ↔
    a.matchAt ⟨previous, c :: (front ++ rest)⟩ = none ∧ a.Passes (some c) front rest := by
  constructor
  · intro h
    exact ⟨h [] (c :: front) rfl (List.cons_ne_nil c front),
      fun before ahead hfront => h (c :: before) ahead (congrArg (c :: ·) hfront)⟩
  · rintro ⟨hhere, hrest⟩ before ahead hfront hahead
    cases before with
    | nil =>
      obtain rfl : c :: front = ahead := hfront
      exact hhere
    | cons b before =>
      obtain ⟨rfl, rfl⟩ := List.cons.inj hfront
      exact hrest before ahead rfl hahead

/-- **A search passes a front in which nothing matches.** -/
theorem Passes.findFrom_append (h : a.Passes previous front rest) :
    a.findFrom previous (front ++ rest) =
    (a.findFrom (lastOf previous front) rest).map fun f =>
      { f with before := front ++ f.before } := by
  induction front generalizing previous with
  | nil =>
    show _ = (a.findFrom previous rest).map id
    rw [Option.map_id_fun, id, List.nil_append]
  | cons c cs ih =>
    obtain ⟨hhere, hrest⟩ := passes_cons_iff.mp h
    rw [List.cons_append, findFrom, hhere]
    dsimp only
    rw [ih hrest, Option.map_map]
    rfl

/-- A match at the place where the search begins is found there. -/
theorem findFrom_of_matchAt {whole : Text} {g : Captures}
    (h : a.matchAt ⟨previous, whole ++ rest⟩ = some (g, rest)) :
    a.findFrom previous (whole ++ rest) = some ⟨[], whole, g, rest⟩ := by
  cases ht : whole ++ rest with
  | nil =>
    obtain ⟨rfl, rfl⟩ := List.append_eq_nil_iff.mp ht
    rw [List.append_nil] at h
    rw [findFrom, h]
    rfl
  | cons c cs =>
    have hkept := take_piece whole rest
    rw [ht] at h hkept
    rw [findFrom, h]
    dsimp only
    rw [hkept]

/-- Behind a front in which nothing matches, a match is found. -/
theorem Passes.findFrom_of_matchAt {whole : Text} {g : Captures}
    (hpass : a.Passes previous front (whole ++ rest))
    (h : a.matchAt ⟨lastOf previous front, whole ++ rest⟩ = some (g, rest)) :
    a.findFrom previous (front ++ (whole ++ rest)) = some ⟨front, whole, g, rest⟩ := by
  rw [hpass.findFrom_append, Pattern.findFrom_of_matchAt h, Option.map_some, List.append_nil]

/-- In a front something matches at a first place, or nothing does. -/
theorem passes_or_first (a : Pattern) (previous : Option Char) (front rest : Text) :
    a.Passes previous front rest ∨
    ∃ before ahead, front = before ++ ahead ∧ ahead ≠ [] ∧
    a.Passes previous before (ahead ++ rest) ∧
      (a.matchAt ⟨lastOf previous before, ahead ++ rest⟩).isSome := by
  induction front generalizing previous with
  | nil => exact .inl passes_nil
  | cons c cs ih =>
    cases hhere : a.matchAt ⟨previous, c :: (cs ++ rest)⟩ with
    | some found =>
      exact .inr ⟨[], c :: cs, rfl, List.cons_ne_nil c cs, passes_nil,
        Option.isSome_of_eq_some hhere⟩
    | none =>
      rcases ih (some c) with hpass | ⟨before, ahead, rfl, hahead, hpass, hfirst⟩
      · exact .inl (passes_cons_iff.mpr ⟨hhere, hpass⟩)
      · rw [List.append_assoc] at hhere
        exact .inr ⟨c :: before, ahead, rfl, hahead, passes_cons_iff.mpr ⟨hhere, hpass⟩, hfirst⟩

/-! ### All matches -/

/-- All matches of a text from a place on: each is the first one behind that before it, and takes
something up. -/
inductive Course (a : Pattern) : Option Char → Text → List Found → Prop
  | done {previous : Option Char} {t : Text} (none : a.findFrom previous t = none) :
      Course a previous t []
  | next {previous : Option Char} {t : Text} {f : Found} {found : List Found}
      (first : a.findFrom previous t = some f)
      (takes : f.whole ≠ []) (behind : Course a f.whole.getLast? f.after found) :
      Course a previous t (f :: found)

theorem Course.findAllFrom_eq (h : Course a previous t found) : ∀ {fuel : Nat}, t.length < fuel →
    a.findAllFrom fuel previous t = found := by
  induction h with
  | done hnone =>
    intro fuel hfuel
    obtain ⟨fuel, rfl⟩ := Nat.exists_eq_succ_of_ne_zero (Nat.ne_zero_of_lt hfuel)
    rw [findAllFrom, hnone]
  | @next previous t f found hfirst htakes _ ih =>
    intro fuel hfuel
    obtain ⟨fuel, rfl⟩ := Nat.exists_eq_succ_of_ne_zero (Nat.ne_zero_of_lt hfuel)
    -- the piece that is taken up pays for the step
    have hshorter : f.after.length < fuel := by
      have hparts := congrArg List.length (findFrom_parts hfirst).1
      have htaken := List.length_pos_iff.mpr htakes
      rw [List.length_append, List.length_append] at hparts
      omega
    rw [findAllFrom, hfirst]
    dsimp only
    rw [if_neg (by simpa using htakes), ih hshorter]

/-- **The matches of a course are all there are.** -/
theorem Course.findAll_eq (h : Course a none t found) : a.findAll t = found :=
  h.findAllFrom_eq (Nat.lt_succ_self _)

/-- Matches with their positions, when the search for them begins at a given one. -/
def startsFrom (n : Nat) : List Found → List (Nat × Found)
  | [] => []
  | f :: rest => (n + f.before.length, f) :: startsFrom (n + f.before.length + f.whole.length) rest

theorem withStarts_eq (found : List Found) : withStarts found = startsFrom 0 found := by
  have hfold : ∀ (found : List Found) (n : Nat) (sofar : List (Nat × Found)),
      (found.foldl (fun (acc : Nat × List (Nat × Found)) (f : Found) =>
        (acc.1 + f.before.length + f.whole.length, (acc.1 + f.before.length, f) :: acc.2)) (n,
          sofar)).2.reverse =
          sofar.reverse ++ startsFrom n found := by
    intro found
    induction found with
    | nil => exact fun n sofar => (List.append_nil _).symm
    | cons f rest ih =>
      intro n sofar
      rw [List.foldl_cons, ih, List.reverse_cons, List.append_assoc]
      rfl
  exact hfold found 0 []

/-! ### Words in front of a pattern -/

/-- A front shows neither a word, in any case, nor the beginning of it at its end. -/
def Clear (word front : Text) : Prop :=
  ∀ ahead ∈ (front.map Text.fold).tails, ahead ≠ [] →
    ¬ ahead <+: word.map Text.fold ∧ ¬ word.map Text.fold <+: ahead

instance (word front : Text) : Decidable (Clear word front) :=
  inferInstanceAs (Decidable (∀ _ ∈ _, _))

/-- Whether a front is clear does not depend on its case. -/
theorem clear_congr {word front front' : Text} (h : front.map Text.fold = front'.map Text.fold) :
    Clear word front ↔ Clear word front' := by
  unfold Clear
  rw [h]

theorem Clear.append {word front front' : Text} (h : Clear word front) (h' : Clear word front') :
    Clear word (front ++ front') := by
  intro ahead hahead hne
  rw [List.map_append, List.mem_tails] at hahead
  obtain ⟨before, hparts⟩ := hahead
  rcases List.append_eq_append_iff.mp hparts with ⟨own, hown, rfl⟩ | ⟨back, -, hback⟩
  · by_cases hnil : own = []
    · subst hnil
      exact h' _ ((List.mem_tails _ _).mpr (List.suffix_refl _)) hne
    obtain ⟨hshort, hlong⟩ := h own ((List.mem_tails _ _).mpr ⟨before, hown.symm⟩) hnil
    refine ⟨fun hbegins => hshort ((List.prefix_append _ _).trans hbegins), fun hword => ?_⟩
    rcases List.prefix_or_prefix_of_prefix hword (List.prefix_append own _) with hin | hover
    · exact hlong hin
    · exact hshort hover
  · exact h' ahead ((List.mem_tails _ _).mpr ⟨back, hback.symm⟩) hne

/-- A pattern that begins with a word matches nowhere in a clear front. -/
theorem Clear.passes {word : Text} (h : Clear word front) (ps : List Pattern)
    (previous : Option Char) (rest : Text) :
    (seq (edge true :: letters word :: ps)).Passes previous front rest := by
  rintro before ahead rfl hahead
  by_contra hmatch
  obtain ⟨r, hr⟩ := Option.ne_none_iff_exists'.mp hmatch
  unfold matchAt at hr
  obtain ⟨written, behind, hrest, hwritten, -⟩ := run_edge_letters_taken hr
  have htail : ahead.map Text.fold ∈ ((before ++ ahead).map Text.fold).tails := by
    rw [List.map_append]
    exact (List.mem_tails _ _).mpr (List.suffix_append _ _)
  obtain ⟨hshort, hlong⟩ := h _ htail (by simpa using hahead)
  have hbegins : word.map Text.fold <+: ahead.map Text.fold ++ rest.map Text.fold := by
    dsimp only at hrest
    rw [← hwritten, ← List.map_append, hrest, List.map_append]
    exact List.prefix_append _ _
  rcases List.prefix_or_prefix_of_prefix hbegins (List.prefix_append _ _) with hin | hover
  · exact hlong hin
  · exact hshort hover

end PlainSteps.Pattern
