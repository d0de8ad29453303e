import PlainSteps.Proofs.Pattern.Run

/-! # A match within a piece of a text

A piece that is cut out of a text where no word goes on shows a pattern at least as little as the
whole text: whatever matches within the piece matches at the same place in the text, edges of words
included. This holds of patterns that ask neither for the ends of the text nor for the first way
something matches. Both searches are followed in step, one character after the other; the one over
the whole text may have more ways to go on, but it has those of the piece among them.
-/

namespace PlainSteps.Pattern

variable {α β : Type}

/-- Whether a pattern looks at nothing but its piece and the words around that. -/
def isLocal : Pattern → Bool
  | empty => true
  | one _ => true
  | many _ => true
  | few _ => true
  | cat a b => a.isLocal && b.isLocal
  | alt a b => a.isLocal && b.isLocal
  | times _ a => a.isLocal
  | firm _ => false
  | group _ a => a.isLocal
  | edge _ => true
  | atStart => false
  | atEnd _ => false

/-! ### Pieces -/

/-- No word goes on at a character, nor where there is none. -/
def OutsideWord (c : Option Char) : Prop := c.any Text.isWord = false

instance (c : Option Char) : Decidable (OutsideWord c) := inferInstanceAs (Decidable (_ = _))

/-- In front of a word its edge is found where no word comes before. -/
theorem run_edge_of_word {s : Spot} {g : Captures} {k : Spot → Captures → Option α}
    (hword : s.rest.head?.any Text.isWord = true) :
    run (edge true) s g k = if s.previous.any Text.isWord = true then none else k s g := by
  have hrest : s.rest.isEmpty = false := by
    cases hs : s.rest with
    | nil => simp [hs] at hword
    | cons c cs => rfl
  rw [run, Spot.isEdge, hword, hrest, Bool.and_false]
  cases s.previous.any Text.isWord <;> rfl

/-- A label begins with a letter that is one of ASCII however it is written. -/
def IsLabel (label : Text) : Prop := ∃ c rest, label = c :: rest ∧ Text.IsOwnLetter c

section Labels

variable {label written : Text} {ps : List Pattern} {g : Captures} {k : Spot →
  Captures → Option α} {r : α}

/-- However a label is written, a word begins with it. -/
theorem IsLabel.isWord_written (hlabel : IsLabel label)
    (hwritten : written.map Text.fold = label.map Text.fold) (rest : Text) :
    (written ++ rest).head?.any Text.isWord = true := by
  obtain ⟨c, cs, rfl, hc⟩ := hlabel
  cases written with
  | nil => cases hwritten
  | cons d ds => exact hc.isWord (List.cons.inj hwritten).1

/-- Where no word comes before, a label is read in any case. -/
theorem IsLabel.run_edge_letters (hlabel : IsLabel label)
    (hwritten : written.map Text.fold = label.map Text.fold) {previous : Option Char}
    (hprevious : OutsideWord previous) (rest : Text) :
    run (seq (edge true :: letters label :: ps)) ⟨previous, written ++ rest⟩ g k =
      run (seq ps) ⟨lastOf previous written, rest⟩ g k := by
  rw [run_seq_cons, run_edge_of_word (hlabel.isWord_written hwritten rest),
    if_neg (Bool.eq_false_iff.mp hprevious), run_seq_cons, run_letters hwritten]

/-- A label is read only where no word comes before. -/
theorem IsLabel.outsideWord (hlabel : IsLabel label) {s : Spot}
    (h : run (seq (edge true :: letters label :: ps)) s g k = some r) : OutsideWord s.previous := by
  obtain ⟨written, rest, hrest, hwritten, -⟩ := run_edge_letters_taken h
  have hhead : s.rest.head?.any Text.isWord = true := by
    rw [hrest]
    exact hlabel.isWord_written hwritten rest
  rw [run_seq_cons, run_edge_of_word hhead] at h
  split at h
  · cases h
  · exact Bool.eq_false_iff.mpr ‹_›

end Labels

/-- A piece of a text, cut out where no word goes on. -/
structure CutFrom (piece text : Text) : Prop where
  parts : ∃ before after, text = before ++ (piece ++ after) ∧ OutsideWord before.getLast? ∧
    OutsideWord after.head?

theorem CutFrom.refl (text : Text) : CutFrom text text := ⟨[], [], by simp, rfl, rfl⟩

theorem getLast?_append_outside {a b : Text} (ha : OutsideWord a.getLast?)
    (hb : OutsideWord b.getLast?) :
    OutsideWord (a ++ b).getLast? := by
  rw [List.getLast?_append]
  cases hlast : b.getLast? with
  | none => exact ha
  | some c =>
    rw [hlast] at hb
    exact hb

theorem head?_append_outside {a b : Text} (ha : OutsideWord a.head?) (hb : OutsideWord b.head?) :
    OutsideWord (a ++ b).head? := by
  cases a with
  | nil => exact hb
  | cons c cs => exact ha

theorem CutFrom.trans {a b c : Text} (hab : CutFrom a b) (hbc : CutFrom b c) : CutFrom a c := by
  obtain ⟨before, after, rfl, hbefore, hafter⟩ := hab.parts
  obtain ⟨before', after', rfl, hbefore', hafter'⟩ := hbc.parts
  exact ⟨before' ++ before, after ++ after', by simp only [List.append_assoc],
    getLast?_append_outside hbefore' hbefore, head?_append_outside hafter hafter'⟩

/-! ### Two searches in step -/

/-- The same place in a piece and in the text it is cut from. -/
structure Spot.Within (after : Text) (s s' : Spot) : Prop where
  rest : s'.rest = s.rest ++ after
  previous : ∀ c, s.previous = some c → s'.previous = some c
  start : s.previous = none → OutsideWord s'.previous

/-- What accepts a place in the piece has a counterpart that accepts it in the text. -/
def Carries (after : Text) (k : Spot → Captures → Option α) (k' : Spot → Captures → Option β) :
    Prop :=
  ∀ s s' g g', Spot.Within after s s' → (k s g).isSome → (k' s' g').isSome

variable {after : Text} {s s' : Spot}

theorem Spot.Within.isEdge (h : Spot.Within after s s') (hafter : OutsideWord after.head?) :
    s'.isEdge = s.isEdge := by
  have hprevious : s'.previous.any Text.isWord = s.previous.any Text.isWord := by
    cases hs : s.previous with
    | none => exact h.start hs
    | some c => rw [h.previous c hs]
  have hnext : s'.rest.head?.any Text.isWord = s.rest.head?.any Text.isWord := by
    rw [h.rest]
    cases hs : s.rest with
    | nil => exact hafter
    | cons c cs => rfl
  rw [Spot.isEdge, Spot.isEdge, hprevious, hnext]

/-- Behind or in front of a character of the piece there is one in the text. -/
theorem Spot.Within.nonempty (h : Spot.Within after s s')
    (hs : (!(s.previous.isNone && s.rest.isEmpty)) = true) :
    (!(s'.previous.isNone && s'.rest.isEmpty)) = true := by
  rw [h.rest]
  cases hprevious : s.previous with
  | none =>
    have hrest : s.rest ≠ [] := by simpa [hprevious] using hs
    simp [hrest]
  | some c => simp [h.previous c hprevious]

theorem Spot.Within.next {previous previous' : Option Char} {c : Char} {cs : Text}
    (_ : Spot.Within after ⟨previous, c :: cs⟩ ⟨previous', c :: cs ++ after⟩) :
    Spot.Within after ⟨some c, cs⟩ ⟨some c, cs ++ after⟩ := ⟨rfl, fun _ hd => hd, nofun⟩

theorem isSome_orElse_iff {x : Option α} {f : Unit → Option α} :
    (x.orElse f).isSome ↔ x.isSome ∨ (f ()).isSome := by
  simp [Option.orElse_eq_or]

section Steps

variable {p : Char → Bool} {k : Spot → Option α} {k' : Spot → Option β}

theorem runMany_isSome_here {previous : Option Char} {t : Text} (h : (k ⟨previous, t⟩).isSome) :
    (runMany p k previous t).isSome := by
  cases t with
  | nil => exact h
  | cons c cs =>
    rw [runMany]
    split
    · exact isSome_orElse_iff.mpr (.inr h)
    · exact h

theorem runFew_isSome_here {previous : Option Char} {t : Text} (h : (k ⟨previous, t⟩).isSome) :
    (runFew p k previous t).isSome := by
  cases t with
  | nil => exact h
  | cons c cs => exact isSome_orElse_iff.mpr (.inl h)

variable (hk : ∀ s s', Spot.Within after s s' → (k s).isSome → (k' s').isSome)

include hk

theorem runMany_within {rest : Text} : ∀ {previous previous' : Option Char},
    Spot.Within after ⟨previous, rest⟩ ⟨previous', rest ++ after⟩ →
      (runMany p k previous rest).isSome → (runMany p k' previous' (rest ++ after)).isSome := by
  induction rest with
  | nil => exact fun hwithin h => runMany_isSome_here (hk _ _ hwithin h)
  | cons c cs ih =>
    intro previous previous' hwithin h
    rw [runMany] at h
    split at h
    · rename_i hc
      rcases isSome_orElse_iff.mp h with hfurther | hhere
      · rw [List.cons_append, runMany, if_pos hc]
        exact isSome_orElse_iff.mpr (.inl (ih hwithin.next hfurther))
      · exact runMany_isSome_here (hk _ _ hwithin hhere)
    · exact runMany_isSome_here (hk _ _ hwithin h)

theorem runFew_within {rest : Text} : ∀ {previous previous' : Option Char},
    Spot.Within after ⟨previous, rest⟩ ⟨previous', rest ++ after⟩ →
      (runFew p k previous rest).isSome → (runFew p k' previous' (rest ++ after)).isSome := by
  induction rest with
  | nil => exact fun hwithin h => runFew_isSome_here (hk _ _ hwithin h)
  | cons c cs ih =>
    intro previous previous' hwithin h
    rcases isSome_orElse_iff.mp h with hhere | hfurther
    · exact runFew_isSome_here (hk _ _ hwithin hhere)
    · split at hfurther
      · rename_i hc
        rw [List.cons_append, runFew]
        refine isSome_orElse_iff.mpr (.inr ?_)
        rw [if_pos hc]
        exact ih hwithin.next hfurther
      · cases hfurther

end Steps

variable {k : Spot → Captures → Option α} {k' : Spot → Captures → Option β}

/-- A round of a repetition goes on, or stops where it no longer moves. -/
theorem runTimes_succ_isSome {eager : Bool}
    {body : Spot → Captures → (Spot → Captures → Option α) → Option α} {fuel : Nat} {g : Captures} :
    (runTimes eager body k (fuel + 1) s g).isSome ↔
      (body s g fun s₁ g₁ =>
        if s₁.rest.length < s.rest.length then runTimes eager body k fuel s₁ g₁
          else k s₁ g₁).isSome ∨
      (k s g).isSome := by
  rw [runTimes]
  cases eager with
  | true => exact isSome_orElse_iff
  | false => exact isSome_orElse_iff.trans or_comm

/-- A repetition over the text has at least as many rounds to spend as one over the piece. -/
theorem runTimes_carries {eager : Bool}
    {body : Spot → Captures → (Spot → Captures → Option α) → Option α}
    {body' : Spot → Captures → (Spot → Captures → Option β) → Option β}
    (hbody : ∀ {k k'}, Carries after k k' → Carries after (fun s g => body s g k)
      fun s g => body' s g k')
    (hk : Carries after k k') : ∀ {fuel fuel' : Nat}, fuel ≤ fuel' →
      Carries after (runTimes eager body k fuel) (runTimes eager body' k' fuel') := by
  intro fuel
  induction fuel with
  | zero =>
    intro fuel' _ s s' g g' hwithin h
    cases fuel' with
    | zero => exact hk s s' g g' hwithin h
    | succ fuel' => exact runTimes_succ_isSome.mpr (.inr (hk s s' g g' hwithin h))
  | succ fuel ih =>
    intro fuel' hle s s' g g' hwithin h
    obtain ⟨fuel', rfl⟩ : ∃ n, fuel' = n + 1 := ⟨fuel' - 1, by omega⟩
    refine runTimes_succ_isSome.mpr ((runTimes_succ_isSome.mp h).imp ?_ (hk s s' g g' hwithin))
    refine hbody (fun s₁ s₁' g₁ g₁' hwithin₁ h₁ => ?_) s s' g g' hwithin
    -- what is behind the piece counts on both sides alike
    have hmoved : s₁'.rest.length < s'.rest.length ↔ s₁.rest.length < s.rest.length := by
      rw [hwithin₁.rest, hwithin.rest, List.length_append, List.length_append]
      omega
    by_cases hshorter : s₁.rest.length < s.rest.length
    · rw [if_pos hshorter] at h₁
      rw [if_pos (hmoved.mpr hshorter)]
      exact ih (by omega) s₁ s₁' g₁ g₁' hwithin₁ h₁
    · rw [if_neg hshorter] at h₁
      rw [if_neg (mt hmoved.mp hshorter)]
      exact hk s₁ s₁' g₁ g₁' hwithin₁ h₁

/-- **A match that succeeds in a piece succeeds in the text.** -/
theorem run_carries {a : Pattern} (ha : a.isLocal = true) (hafter : OutsideWord after.head?) :
    ∀ {α β : Type} {k : Spot → Captures → Option α} {k' : Spot → Captures → Option β},
      Carries after k k' →
      Carries after (fun s g => run a s g k) fun s g => run a s g k' := by
  induction a with
  | empty => exact fun hk => hk
  | one p =>
    intro α β k k' hk s s' g g' hwithin h
    obtain ⟨previous, rest⟩ := s
    obtain ⟨previous', rest'⟩ := s'
    obtain rfl : rest' = rest ++ after := hwithin.rest
    cases rest with
    | nil => cases h
    | cons c cs =>
      dsimp only [run] at h ⊢
      split at h
      · rename_i hc
        rw [List.cons_append]
        dsimp only
        rw [if_pos hc]
        exact hk _ _ g g' hwithin.next h
      · cases h
  | many p =>
    intro α β k k' hk s s' g g' hwithin h
    obtain ⟨previous, rest⟩ := s
    obtain ⟨previous', rest'⟩ := s'
    obtain rfl : rest' = rest ++ after := hwithin.rest
    exact runMany_within (fun t t' ht h => hk t t' g g' ht h) hwithin h
  | few p =>
    intro α β k k' hk s s' g g' hwithin h
    obtain ⟨previous, rest⟩ := s
    obtain ⟨previous', rest'⟩ := s'
    obtain rfl : rest' = rest ++ after := hwithin.rest
    exact runFew_within (fun t t' ht h => hk t t' g g' ht h) hwithin h
  | cat a b iha ihb =>
    intro α β k k' hk
    obtain ⟨hla, hlb⟩ := Bool.and_eq_true_iff.mp ha
    exact iha hla (ihb hlb hk)
  | alt a b iha ihb =>
    intro α β k k' hk s s' g g' hwithin h
    obtain ⟨hla, hlb⟩ := Bool.and_eq_true_iff.mp ha
    exact isSome_orElse_iff.mpr ((isSome_orElse_iff.mp h).imp (iha hla hk s s' g g' hwithin)
      (ihb hlb hk s s' g g' hwithin))
  | times eager a ih =>
    intro α β k k' hk s s' g g' hwithin h
    -- the text ahead is longer than that of the piece, so there are rounds enough
    refine runTimes_carries (fun hk => ih ha hk) hk ?_ s s' g g' hwithin h
    rw [hwithin.rest, List.length_append]
    omega
  | firm a => cases ha
  | group n a ih =>
    intro α β k k' hk s s' g g' hwithin h
    exact ih ha (fun t t' _ _ ht hend => hk t t' _ _ ht hend) s s' g g' hwithin h
  | edge present =>
    intro α β k k' hk s s' g g' hwithin h
    dsimp only [run] at h ⊢
    split at h
    · rename_i hcond
      obtain ⟨hedge, hsome⟩ := Bool.and_eq_true_iff.mp hcond
      rw [hwithin.isEdge hafter, hedge, hwithin.nonempty hsome, Bool.and_self, if_pos rfl]
      exact hk s s' g g' hwithin h
    · cases h
  | atStart => cases ha
  | atEnd beforeFeed => cases ha

/-! ### Occurrences -/

theorem lastOf_eq (previous : Option Char) (t : Text) :
    lastOf previous t = t.getLast?.or previous := by
  induction t generalizing previous with
  | nil => rfl
  | cons c cs ih =>
    rw [lastOf, ih, List.getLast?_cons]
    cases cs.getLast? <;> rfl

/-- A pattern that is found matches somewhere. -/
theorem exists_matchAt_of_findFrom {a : Pattern} : ∀ {previous : Option Char} {t : Text},
    (a.findFrom previous t).isSome →
      ∃ before rest, t = before ++ rest ∧ (a.matchAt ⟨lastOf previous before, rest⟩).isSome
  | _, [], h => ⟨[], [], rfl, by simpa [findFrom, lastOf] using h⟩
  | previous, c :: cs, h => by
    rw [findFrom] at h
    split at h
    · rename_i hmatch
      exact ⟨[], c :: cs, rfl, by rw [lastOf, hmatch]; rfl⟩
    · obtain ⟨before, rest, rfl, hmatch⟩ :=
        exists_matchAt_of_findFrom ((Option.isSome_map ..).symm.trans h)
      exact ⟨c :: before, rest, rfl, hmatch⟩

/-- A place in a piece is that place in the text, where no word goes on in front of the piece. -/
theorem Spot.within_lastOf {previous : Option Char} (hprevious : OutsideWord previous)
    (front rest : Text) :
    Spot.Within after ⟨lastOf none front, rest⟩ ⟨lastOf previous front, rest ++ after⟩ := by
  rw [lastOf_eq, lastOf_eq, Option.or_none]
  refine ⟨rfl, fun c hc => Option.or_eq_some_iff.mpr (.inl hc), fun hnone => ?_⟩
  dsimp only at hnone ⊢
  rwa [hnone]

/-- Where a pattern matches within a piece it matches in the text. -/
theorem matchAt_isSome_within {a : Pattern} (ha : a.isLocal = true)
    (hafter : OutsideWord after.head?) (hwithin : Spot.Within after s s')
    (h : (a.matchAt s).isSome) : (a.matchAt s').isSome := by
  have hcarries : Carries after (fun s g => some (g, s.rest)) (fun s g => some (g, s.rest)) :=
    fun _ _ _ _ _ _ => rfl
  exact run_carries ha hafter hcarries s s' [] [] hwithin h

/-- **What occurs in a piece occurs in the text it is cut from.** -/
theorem occursIn_of_cutFrom {a : Pattern} (ha : a.isLocal = true) {piece text : Text}
    (hcut : CutFrom piece text) (h : a.occursIn piece = true) : a.occursIn text = true := by
  obtain ⟨before, after, rfl, hbefore, hafter⟩ := hcut.parts
  obtain ⟨skipped, rest, rfl, hmatch⟩ := exists_matchAt_of_findFrom h
  have hprevious : OutsideWord (lastOf none before) := by rwa [lastOf_eq, Option.or_none]
  have hwithin : Spot.Within after _ _ := Spot.within_lastOf hprevious skipped rest
  rw [← lastOf_append] at hwithin
  rw [List.append_assoc, ← List.append_assoc before]
  exact occursIn_append (matchAt_isSome_within ha hafter hwithin hmatch)

end PlainSteps.Pattern
