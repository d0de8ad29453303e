import PlainSteps.Pattern.Search
import PlainSteps.Proofs.Text.Case
import PlainSteps.Proofs.Text.Cutting

/-! # Running a pattern over a known text

A pattern hands the ways it can match, in order of preference, to what follows, and the first one
that succeeds is taken. Where the text ahead is known, one step of the pattern can be run at a time:
a longest run is taken if what follows succeeds behind it, and a shortest run goes on for as long as
it fails. Each lemma runs one kind of step and leaves the rest to the hypothesis about what follows.
-/

namespace PlainSteps.Pattern

variable {α : Type} {p q : Char → Bool} {previous : Option Char} {r : α}

/-- The character before a place behind a piece of text. -/
def lastOf (previous : Option Char) : Text → Option Char
  | [] => previous
  | c :: cs => lastOf (some c) cs

theorem lastOf_append (previous : Option Char) (a b : Text) :
    lastOf previous (a ++ b) = lastOf (lastOf previous a) b := by
  induction a generalizing previous with
  | nil => rfl
  | cons c cs ih => exact ih (some c)

/-- What comes next is known where a character is. -/
theorem forall_head_cons {P : Char → Prop} {c : Char} (hc : P c) (cs : Text) :
    ∀ d ∈ (c :: cs).head?, P d := by
  rintro _ ⟨⟩
  exact hc

/-! ### Runs of a class -/

section Runs

variable {k : Spot → Option α} {piece rest : Text}

/-- The longest run is tried first. -/
theorem runMany_eq_some (hpiece : ∀ c ∈ piece, p c = true) (hrest : ∀ c ∈ rest.head?, p c = false)
    (h : k ⟨lastOf previous piece, rest⟩ = some r) :
    runMany p k previous (piece ++ rest) = some r := by
  induction piece generalizing previous with
  | nil =>
    cases rest with
    | nil => exact h
    | cons c cs => simpa [runMany, hrest c rfl, lastOf] using h
  | cons c cs ih =>
    have hc : p c = true := hpiece c (.head _)
    rw [List.cons_append, runMany, if_pos hc, ih (fun d hd => hpiece d (.tail _ hd)) h]
    rfl

/-- A run can only stop before one character if that comes right behind characters of the class. -/
theorem runMany_one_eq_none {piece : Text} (hne : piece ≠ []) (hpiece : ∀ c ∈ piece, q c = false)
    (hlast : ∀ c ∈ piece.getLast?, p c = false) (rest : Text) {g : Captures}
    {k : Spot → Captures → Option α} :
    runMany p (fun s => run (one q) s g k) previous (piece ++ rest) = none := by
  induction piece generalizing previous with
  | nil => exact absurd rfl hne
  | cons c cs ih =>
    have hstop : run (one q) ⟨previous, c :: (cs ++ rest)⟩ g k = none := by
      simp [run, hpiece c (.head _)]
    rw [List.cons_append, runMany, hstop]
    -- only the last character ends the run for certain
    cases cs with
    | nil =>
      have hc : p c = false := hlast c rfl
      rw [if_neg (by simp [hc])]
    | cons d ds =>
      have hrec : runMany p (fun s => run (one q) s g k) (some c) (d :: ds ++ rest) = none :=
        ih (List.cons_ne_nil d ds) (fun e he => hpiece e (.tail _ he)) fun e he =>
          hlast e (by simpa using he)
      rw [hrec]
      split <;> rfl

/-- A shortest run passes the places behind which the rest fails. -/
theorem runFew_append (hpiece : ∀ c ∈ piece, p c = true)
    (hfail : ∀ a b, piece = a ++ b → b ≠ [] → k ⟨lastOf previous a, b ++ rest⟩ = none) :
    runFew p k previous (piece ++ rest) = runFew p k (lastOf previous piece) rest := by
  induction piece generalizing previous with
  | nil => rfl
  | cons c cs ih =>
    have hc : p c = true := hpiece c (.head _)
    have hhere : k ⟨previous, c :: (cs ++ rest)⟩ = none :=
      hfail [] (c :: cs) rfl (List.cons_ne_nil _ _)
    rw [List.cons_append, runFew, hhere, if_pos hc]
    refine ih (fun d hd => hpiece d (.tail _ hd)) fun a b hab hb => ?_
    exact hfail (c :: a) b (congrArg (c :: ·) hab) hb

theorem runFew_of_eq_some (h : k ⟨previous, rest⟩ = some r) :
    runFew p k previous rest = some r := by
  cases rest with
  | nil => exact h
  | cons c cs => rw [runFew, h]; rfl

end Runs

/-! ### Steps -/

variable {g : Captures} {k : Spot → Captures → Option α}

theorem run_seq_cons (a : Pattern) (rest : List Pattern) (s : Spot) :
    run (seq (a :: rest)) s g k = run a s g fun s' g' => run (seq rest) s' g' k := by
  cases rest <;> rfl

theorem run_group (n : Nat) (a : Pattern) (s : Spot) :
    run (group n a) s g k =
      run a s g fun s' g' => k s' ((n, s.rest.take (s.rest.length - s'.rest.length)) :: g') := rfl

/-- The piece that a group keeps. -/
theorem take_piece (piece rest : Text) :
    (piece ++ rest).take ((piece ++ rest).length - rest.length) = piece := by
  simp

theorem run_many_cons {c : Char} (hc : p c = false) (cs : Text) :
    run (many p) ⟨previous, c :: cs⟩ g k = k ⟨previous, c :: cs⟩ g := by
  simp [run, runMany, hc]

theorem run_many_append (piece : Text) {rest : Text} (hpiece : ∀ c ∈ piece, p c = true)
    (hrest : ∀ c ∈ rest.head?, p c = false) (h : k ⟨lastOf previous piece, rest⟩ g = some r) :
    run (many p) ⟨previous, piece ++ rest⟩ g k = some r :=
  runMany_eq_some hpiece hrest h

theorem run_few_append (piece : Text) {rest : Text} (hpiece : ∀ c ∈ piece, p c = true)
    (hfail : ∀ a b, piece = a ++ b → b ≠ [] → k ⟨lastOf previous a, b ++ rest⟩ g = none)
    (h : k ⟨lastOf previous piece, rest⟩ g = some r) :
    run (few p) ⟨previous, piece ++ rest⟩ g k = some r :=
  (runFew_append hpiece hfail).trans (runFew_of_eq_some h)

@[simp] theorem run_letter_self (c : Char) (cs : Text) :
    run (letter c) ⟨previous, c :: cs⟩ g k = k ⟨some c, cs⟩ g := by
  simp [letter, run]

/-- A fixed text is read in any case. -/
theorem run_letters :
    ∀ {t written : Text} {previous : Option Char}, written.map Text.fold = t.map Text.fold →
    ∀ rest : Text, run (letters t) ⟨previous, written ++ rest⟩ g k =
      k ⟨lastOf previous written, rest⟩ g
  | [], [], _, _, _ => rfl
  | c :: cs, d :: ds, previous, h, rest => by
    obtain ⟨hd, hds⟩ := List.cons.inj h
    have hletter : (Text.fold d == Text.fold c) = true := by simpa using hd
    show run (seq (letter c :: cs.map letter)) _ g k = _
    rw [run_seq_cons, letter, List.cons_append,
      run_one_cons (p := fun e => Text.fold e == Text.fold c) hletter]
    exact run_letters hds rest

/-- All characters of a class are read. -/
theorem run_oneOrMore_append {value rest : Text} (hne : value ≠ []) (hall : ∀ c ∈ value, p c = true)
    (hrest : ∀ c ∈ rest.head?, p c = false) (h : k ⟨lastOf previous value, rest⟩ g = some r) :
    run (oneOrMore p) ⟨previous, value ++ rest⟩ g k = some r := by
  obtain ⟨v, vs, rfl⟩ := List.exists_cons_of_ne_nil hne
  show run (cat (one p) (many p)) _ _ _ = _
  rw [run, List.cons_append, run_one_cons (hall v (.head _))]
  exact run_many_append _ (fun c hc => hall c (.tail _ hc)) hrest h

/-- All characters of a class are kept. -/
theorem run_group_oneOrMore_append {n : Nat} {value rest : Text} (hne : value ≠ [])
    (hall : ∀ c ∈ value, p c = true) (hrest : ∀ c ∈ rest.head?, p c = false)
    (h : k ⟨lastOf previous value, rest⟩ ((n, value) :: g) = some r) :
    run (group n (oneOrMore p)) ⟨previous, value ++ rest⟩ g k = some r := by
  rw [run_group]
  refine run_oneOrMore_append hne hall hrest ?_
  rw [take_piece]
  exact h

/-- Up to the end of the text, all characters of a class are kept. -/
theorem run_group_oneOrMore {n : Nat} {value : Text} (hne : value ≠ [])
    (hall : ∀ c ∈ value, p c = true)
    (h : k ⟨lastOf previous value, []⟩ ((n, value) :: g) = some r) :
    run (group n (oneOrMore p)) ⟨previous, value⟩ g k = some r := by
  have hend : ∀ c ∈ ([] : Text).head?, p c = false := nofun
  have hrun := run_group_oneOrMore_append hne hall hend h
  rwa [List.append_nil] at hrun

/-- Where a letter does not come next, it is not read. -/
theorem run_letter_eq_none {c : Char} {s : Spot}
    (hnext : ∀ d ∈ s.rest.head?, Text.fold d ≠ Text.fold c) :
    run (letter c) s g k = none := by
  rw [letter, run]
  cases hrest : s.rest with
  | nil => rfl
  | cons d ds =>
    have hfold : Text.fold d ≠ Text.fold c := hnext d (by rw [hrest]; rfl)
    dsimp only
    rw [if_neg (by simpa using hfold)]

/-- Where a mark does not come next, it is not read. -/
theorem run_mark_eq_none {m : Char} (hm : Text.IsMark m) {s : Spot}
    (hnext : ∀ c ∈ s.rest.head?, c ≠ m) :
    run (letter m) s g k = none :=
  run_letter_eq_none fun c hc => mt hm.fold_eq_iff.mp (hnext c hc)

/-- A piece that is not there is passed over. -/
theorem run_maybe_of_eq_none {a : Pattern} {s : Spot} (h : run a s g k = none) :
    run (maybe a) s g k = k s g := by
  rw [maybe, run, h]
  rfl

/-- The first pattern of a choice is taken where it matches. -/
theorem run_choice_cons_of_eq_some {a : Pattern} (as : List Pattern) {s : Spot}
    (h : run a s g k = some r) :
    run (choice (a :: as)) s g k = some r := by
  cases as with
  | nil => exact h
  | cons b rest =>
    show (run a s g k).orElse (fun _ => run (choice (b :: rest)) s g k) = _
    rw [h]
    rfl

/-- A choice goes on where its first pattern does not match. -/
theorem run_choice_cons_of_eq_none {a b : Pattern} (rest : List Pattern) {s : Spot}
    (h : run a s g k = none) :
    run (choice (a :: b :: rest)) s g k = run (choice (b :: rest)) s g k := by
  show (run a s g k).orElse (fun _ => run (choice (b :: rest)) s g k) = _
  rw [h]
  rfl

/-! ### What was taken -/

theorem runMany_taken {k : Spot → Option α} {t : Text} :
    ∀ {previous : Option Char}, runMany p k previous t = some r →
    ∃ piece rest, t = piece ++ rest ∧ (∀ c ∈ piece, p c = true) ∧
    k ⟨lastOf previous piece, rest⟩ = some r := by
  induction t with
  | nil => exact fun h => ⟨[], [], rfl, nofun, h⟩
  | cons c cs ih =>
    intro previous h
    rw [runMany] at h
    split at h
    · rename_i hc
      rw [Option.orElse_eq_or] at h
      rcases Option.or_eq_some_iff.mp h with hfurther | ⟨-, hhere⟩
      · obtain ⟨piece, rest, rfl, hpiece, hk⟩ := ih hfurther
        exact ⟨c :: piece, rest, rfl, by simpa [hc] using hpiece, hk⟩
      · exact ⟨[], c :: cs, rfl, nofun, hhere⟩
    · exact ⟨[], c :: cs, rfl, nofun, h⟩

/-- Where whatever follows succeeds, the longest run is taken. -/
theorem runMany_of_isSome {k : Spot → Option α} (hk : ∀ s, (k s).isSome) (t : Text) :
    ∀ previous : Option Char,
    runMany p k previous t = k ⟨lastOf previous (t.takeWhile p), t.dropWhile p⟩ := by
  induction t with
  | nil => exact fun _ => rfl
  | cons c cs ih =>
    intro previous
    rw [runMany]
    by_cases hc : p c = true
    · rw [if_pos hc, ih, Option.orElse_eq_or, Option.or_of_isSome (hk _),
        List.takeWhile_cons_of_pos hc, List.dropWhile_cons_of_pos hc]
      rfl
    · rw [if_neg hc, List.takeWhile_cons_of_neg hc, List.dropWhile_cons_of_neg hc]
      rfl

theorem runFew_taken {k : Spot → Option α} {t : Text} :
    ∀ {previous : Option Char}, runFew p k previous t = some r →
    ∃ piece rest, t = piece ++ rest ∧ (∀ c ∈ piece, p c = true) ∧
    k ⟨lastOf previous piece, rest⟩ = some r := by
  induction t with
  | nil => exact fun h => ⟨[], [], rfl, nofun, h⟩
  | cons c cs ih =>
    intro previous h
    rw [runFew, Option.orElse_eq_or] at h
    rcases Option.or_eq_some_iff.mp h with hhere | ⟨-, hfurther⟩
    · exact ⟨[], c :: cs, rfl, nofun, hhere⟩
    · split at hfurther
      · rename_i hc
        obtain ⟨piece, rest, rfl, hpiece, hk⟩ := ih hfurther
        exact ⟨c :: piece, rest, rfl, by simpa [hc] using hpiece, hk⟩
      · cases hfurther

theorem run_one_taken {s : Spot} (h : run (one p) s g k = some r) :
    ∃ c cs, s.rest = c :: cs ∧ p c = true ∧ k ⟨some c, cs⟩ g = some r := by
  rw [run] at h
  split at h
  · cases h
  · rename_i c cs hrest
    split at h
    · rename_i hc
      exact ⟨c, cs, hrest, hc, h⟩
    · cases h

/-- A mark is read as itself only. -/
theorem run_mark_taken {m : Char} (hm : Text.IsMark m) {s : Spot}
    (h : run (letter m) s g k = some r) :
    ∃ rest, s.rest = m :: rest ∧ k ⟨some m, rest⟩ g = some r := by
  obtain ⟨c, rest, hrest, hc, hk⟩ := run_one_taken h
  obtain rfl : c = m := hm.fold_eq_iff.mp (by simpa using hc)
  exact ⟨rest, hrest, hk⟩

theorem run_oneOrMore_taken {s : Spot} (h : run (oneOrMore p) s g k = some r) :
    ∃ c piece rest, s.rest = c :: piece ++ rest ∧ (∀ d ∈ c :: piece, p d = true) ∧
      k ⟨lastOf (some c) piece, rest⟩ g = some r := by
  have hone : run (one p) s g (fun s' g' => runMany p (fun t => k t g') s'.previous s'.rest) =
    some r := h
  obtain ⟨c, cs, hrest, hc, hmany⟩ := run_one_taken hone
  obtain ⟨piece, rest, rfl, hpiece, hk⟩ := runMany_taken hmany
  exact ⟨c, piece, rest, hrest, by simpa [hc] using hpiece, hk⟩

/-- Where whatever follows succeeds, no further character of the class comes behind the piece. -/
theorem run_oneOrMore_longest {s : Spot} (hk : ∀ s', (k s' g).isSome)
    (h : run (oneOrMore p) s g k = some r) :
    ∃ c piece rest, s.rest = c :: piece ++ rest ∧ (∀ d ∈ c :: piece, p d = true) ∧
    (∀ d ∈ rest.head?, p d = false) ∧
      k ⟨lastOf (some c) piece, rest⟩ g = some r := by
  have hone : run (one p) s g (fun s' g' => runMany p (fun t => k t g') s'.previous s'.rest) =
    some r := h
  obtain ⟨c, cs, hrest, hc, hmany⟩ := run_one_taken hone
  rw [runMany_of_isSome hk] at hmany
  refine ⟨c, cs.takeWhile p, cs.dropWhile p, ?_, ?_, ?_, hmany⟩
  · rw [hrest, List.cons_append, List.takeWhile_append_dropWhile]
  · exact List.forall_mem_cons.mpr ⟨hc, List.all_eq_true.mp List.all_takeWhile⟩
  · exact Text.starts_trimLeftOf

theorem run_alt_taken {a b : Pattern} {s : Spot} (h : run (alt a b) s g k = some r) :
    run a s g k = some r ∨ run b s g k = some r := by
  rw [run, Option.orElse_eq_or] at h
  exact (Option.or_eq_some_iff.mp h).imp_right And.right

/-- One of the patterns of a choice was taken. -/
theorem run_choice_taken {s : Spot} : ∀ {as : List Pattern}, run (choice as) s g k = some r →
    ∃ a ∈ as, run a s g k = some r
  | [], h => by
    obtain ⟨c, cs, -, hc, -⟩ := run_one_taken (p := fun _ => false) h
    cases hc
  | [a], h => ⟨a, .head _, h⟩
  | a :: b :: rest, h => by
    rcases run_alt_taken h with ha | hrest
    · exact ⟨a, .head _, ha⟩
    · obtain ⟨a', ha', h'⟩ := run_choice_taken hrest
      exact ⟨a', .tail _ ha', h'⟩

/-- A fixed text was read in some case. -/
theorem run_letters_taken : ∀ {t : Text} {s : Spot}, run (letters t) s g k = some r →
    ∃ written rest, s.rest = written ++ rest ∧ written.map Text.fold = t.map Text.fold ∧
      k ⟨lastOf s.previous written, rest⟩ g = some r
  | [], s, h => ⟨[], s.rest, rfl, rfl, h⟩
  | c :: cs, s, h => by
    have hseq : run (seq (letter c :: cs.map letter)) s g k = some r := h
    rw [run_seq_cons] at hseq
    obtain ⟨d, ds, hrest, hd, hseq⟩ := run_one_taken hseq
    obtain ⟨written, rest, hds, hfold, hk⟩ := run_letters_taken hseq
    dsimp only at hds
    subst hds
    exact ⟨d :: written, rest, hrest, by rw [List.map_cons, List.map_cons, hfold, eq_of_beq hd], hk⟩

theorem run_edge_taken {present : Bool} {s : Spot} (h : run (edge present) s g k = some r) :
    k s g = some r := by
  rw [run] at h
  split at h
  · exact h
  · cases h

/-- Where a word with an edge in front is read, it was written in some case. -/
theorem run_edge_letters_taken {t : Text} {ps : List Pattern} {s : Spot}
    (h : run (seq (edge true :: letters t :: ps)) s g k = some r) :
    ∃ written rest, s.rest = written ++ rest ∧ written.map Text.fold = t.map Text.fold ∧
      run (seq ps) ⟨lastOf s.previous written, rest⟩ g k = some r := by
  rw [run_seq_cons] at h
  replace h := run_edge_taken h
  rw [run_seq_cons] at h
  exact run_letters_taken h

theorem runTimes_succ_taken {eager : Bool}
    {body : Spot → Captures → (Spot → Captures → Option α) → Option α} {fuel : Nat} {s : Spot}
    (h : runTimes eager body k (fuel + 1) s g = some r) :
    (body s g fun s' g' =>
      if s'.rest.length < s.rest.length then runTimes eager body k fuel s' g'
        else k s' g') = some r ∨
      k s g = some r := by
  rw [runTimes] at h
  cases eager with
  | true =>
    rw [if_pos rfl, Option.orElse_eq_or] at h
    exact (Option.or_eq_some_iff.mp h).imp_right And.right
  | false =>
    rw [if_neg Bool.false_ne_true, Option.orElse_eq_or] at h
    exact ((Option.or_eq_some_iff.mp h).imp_right And.right).symm

/-- A condition on a place takes the empty piece. -/
theorem taken_of_ite {P : Prop} [Decidable P] {s : Spot}
    (h : (if P then k s g else none) = some r) :
    ∃ piece rest g', s.rest = piece ++ rest ∧ k ⟨lastOf s.previous piece, rest⟩ g' = some r := by
  split at h
  · exact ⟨[], s.rest, g, rfl, h⟩
  · cases h

/-- **A pattern takes a piece off the text ahead**, and hands on what is left. -/
theorem run_taken (a : Pattern) :
    ∀ {α : Type} {s : Spot} {g : Captures} {k : Spot → Captures → Option α} {r : α},
    run a s g k = some r →
      ∃ piece rest g', s.rest = piece ++ rest ∧ k ⟨lastOf s.previous piece, rest⟩ g' = some r := by
  induction a with
  | empty => exact fun h => ⟨[], _, _, rfl, h⟩
  | one p =>
    intro α s g k r h
    obtain ⟨c, cs, hrest, -, hk⟩ := run_one_taken h
    exact ⟨[c], cs, g, hrest, hk⟩
  | many p =>
    intro α s g k r h
    obtain ⟨piece, rest, hrest, -, hk⟩ := runMany_taken h
    exact ⟨piece, rest, g, hrest, hk⟩
  | few p =>
    intro α s g k r h
    obtain ⟨piece, rest, hrest, -, hk⟩ := runFew_taken h
    exact ⟨piece, rest, g, hrest, hk⟩
  | cat a b iha ihb =>
    intro α s g k r h
    obtain ⟨first, rest₁, g₁, hrest, h⟩ := iha h
    obtain ⟨second, rest, g', rfl, hk⟩ := ihb h
    exact ⟨first ++ second, rest, g', hrest.trans (List.append_assoc ..).symm,
      by rwa [lastOf_append]⟩
  | alt a b iha ihb =>
    intro α s g k r h
    exact (run_alt_taken h).elim iha ihb
  | times eager a ih =>
    intro α s g k r h
    rw [run] at h
    -- each round takes a piece of its own, however many are left
    generalize s.rest.length + 1 = fuel at h
    induction fuel generalizing s g with
    | zero => exact ⟨[], s.rest, g, rfl, h⟩
    | succ fuel ihfuel =>
      rcases runTimes_succ_taken h with h | h
      · obtain ⟨first, rest₁, g₁, hrest, h⟩ := ih h
        split at h
        · obtain ⟨second, rest, g', rfl, hk⟩ := ihfuel h
          exact ⟨first ++ second, rest, g', hrest.trans (List.append_assoc ..).symm,
            by rwa [lastOf_append]⟩
        · exact ⟨first, rest₁, g₁, hrest, h⟩
      · exact ⟨[], s.rest, g, rfl, h⟩
  | firm a ih =>
    intro α s g k r h
    obtain ⟨⟨s₁, g₁⟩, hfirst, hk⟩ := Option.bind_eq_some_iff.mp h
    obtain ⟨piece, rest, g', hrest, heq⟩ := ih hfirst
    cases heq
    exact ⟨piece, rest, g₁, hrest, hk⟩
  | group n a ih =>
    intro α s g k r h
    obtain ⟨piece, rest, g', hrest, hk⟩ := ih h
    exact ⟨piece, rest, _, hrest, hk⟩
  | edge present => exact fun h => taken_of_ite h
  | atStart => exact fun h => taken_of_ite h
  | atEnd beforeFeed => exact fun h => taken_of_ite h

/-! ### Searching -/

/-- A match at the place where the search begins is found. -/
theorem findFrom_eq_some {a : Pattern} {t rest : Text}
    (h : a.matchAt ⟨previous, t⟩ = some (g, rest)) :
    ∃ f, a.findFrom previous t = some f ∧ f.captures = g := by
  cases t with
  | nil => exact ⟨_, by rw [findFrom, h]; rfl, rfl⟩
  | cons c cs => exact ⟨_, by rw [findFrom, h], rfl⟩

theorem findFrom_isSome {a : Pattern} : ∀ {previous : Option Char} {before t : Text},
    (a.matchAt ⟨lastOf previous before, t⟩).isSome → (a.findFrom previous (before ++ t)).isSome
  | _, [], [], h => by
    rw [List.append_nil, findFrom, Option.isSome_map]
    exact h
  | _, [], c :: cs, h => by
    obtain ⟨⟨g, rest⟩, hmatch⟩ := Option.isSome_iff_exists.mp h
    rw [lastOf] at hmatch
    rw [List.nil_append, findFrom, hmatch]
    rfl
  | previous, b :: bs, t, h => by
    rw [List.cons_append, findFrom]
    split
    · rfl
    · rw [Option.isSome_map]
      exact findFrom_isSome h

/-- A pattern occurs in a text if it matches somewhere. -/
theorem occursIn_append {a : Pattern} {before t : Text}
    (h : (a.matchAt ⟨lastOf none before, t⟩).isSome) :
    a.occursIn (before ++ t) = true :=
  findFrom_isSome h

/-- A piece that is found stands between what is before it and what is after it, and is a match
there. -/
theorem findFrom_parts {a : Pattern} : ∀ {previous : Option Char} {t : Text} {f : Found},
    a.findFrom previous t = some f →
      t = f.before ++ (f.whole ++ f.after) ∧
        a.matchAt ⟨lastOf previous f.before, f.whole ++ f.after⟩ = some (f.captures, f.after)
  | previous, [], f, h => by
    rw [findFrom] at h
    obtain ⟨⟨g, rest⟩, hmatch, rfl⟩ := Option.map_eq_some_iff.mp h
    obtain ⟨piece, rest', g', hrest, heq⟩ := run_taken a hmatch
    cases heq
    obtain ⟨rfl, rfl⟩ := List.append_eq_nil_iff.mp hrest.symm
    exact ⟨rfl, hmatch⟩
  | previous, c :: cs, f, h => by
    rw [findFrom] at h
    split at h
    · rename_i g rest hmatch
      cases h
      obtain ⟨piece, rest', g', hrest, heq⟩ := run_taken a hmatch
      cases heq
      dsimp only at hrest ⊢
      rw [hrest, take_piece]
      rw [hrest] at hmatch
      exact ⟨rfl, hmatch⟩
    · obtain ⟨f', hf', rfl⟩ := Option.map_eq_some_iff.mp h
      obtain ⟨hparts, hmatch⟩ := findFrom_parts hf'
      exact ⟨congrArg (c :: ·) hparts, hmatch⟩

end PlainSteps.Pattern
