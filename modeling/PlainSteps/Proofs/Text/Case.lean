import PlainSteps.Text.Character

/-! # Case and ASCII

Reading ignores the case of letters, and some letters beyond ASCII equal an ASCII letter that way.
These letters of ASCII are i, k and s; the tables show it run by run. So a mark of ASCII, such as a
comma or a colon, is equal to no other character, and any other letter of ASCII only to its capital.
-/

namespace PlainSteps.Text

/-- The visible characters of ASCII that are no letters. -/
def IsMark (m : Char) : Prop :=
  32 ≤ m.toNat ∧ m.toNat < 128 ∧ ¬ (65 ≤ m.toNat ∧ m.toNat ≤ 90) ∧ ¬ (97 ≤ m.toNat ∧ m.toNat ≤ 122)

instance (m : Char) : Decidable (IsMark m) := inferInstanceAs (Decidable (_ ∧ _ ∧ _ ∧ _))

/-- A code point that is none stands for the least one. -/
theorem toNat_ofNat (n : Nat) : (Char.ofNat n).toNat = n ∨ (Char.ofNat n).toNat = 0 := by
  unfold Char.ofNat
  by_cases hvalid : n.isValidChar
  · rw [dif_pos hvalid]
    exact .inl rfl
  · rw [dif_neg hvalid]
    exact .inr rfl

theorem toNat_ofNat_of_lt {n : Nat} (h : n < 128) : (Char.ofNat n).toNat = n := by
  have hvalid : n.isValidChar := .inl (by omega)
  unfold Char.ofNat
  rw [dif_pos hvalid]
  rfl

/-- The code points of i, k and s, the letters of ASCII that equal a letter beyond ASCII up to
case. -/
def likened : List Nat := [0x69, 0x6b, 0x73]

/-- The distance to lower case is none, or that of the run around the code point. -/
theorem lowerDistance_eq (n : Nat) : ∀ runs : List (Nat × Nat × Nat × Int),
    lowerDistance n runs = 0 ∨
      ∃ run ∈ runs, run.1 ≤ n ∧ n ≤ run.2.1 ∧ lowerDistance n runs = run.2.2.2
  | [] => .inl rfl
  | (first, last, step, distance) :: rest => by
    unfold lowerDistance
    split
    · exact .inl rfl
    · rename_i hfirst
      split
      · rename_i hrun
        have hlast : n ≤ last := of_decide_eq_true (Bool.and_eq_true_iff.mp hrun).1
        exact .inr ⟨_, .head _, by omega, hlast, rfl⟩
      · rcases lowerDistance_eq n rest with hzero | ⟨run, hrun, hbounds⟩
        · exact .inl hzero
        · exact .inr ⟨run, .tail _ hrun, hbounds⟩

/-- No run leads back into ASCII, except to one of three letters. -/
theorem lowerRuns_beyond : ∀ run ∈ lowerRuns,
    128 ≤ (run.1 : Int) + run.2.2.2 ∨ run.1 = run.2.1 ∧ (run.1 + run.2.2.2).toNat ∈ likened := by
  decide +kernel

theorem twins_beyond : ∀ twin ∈ twins, 128 ≤ twin.2 ∨ twin.2 ∈ likened := by decide

/-- Beyond ASCII a character is its own lower case, or a run around it tells how far that is
away. -/
theorem toNat_lowerChar {c : Char} (h : 128 ≤ c.toNat) :
    (lowerChar c).toNat = c.toNat ∨
      (∃ run ∈ lowerRuns, run.1 ≤ c.toNat ∧ c.toNat ≤ run.2.1 ∧
        (lowerChar c).toNat = (c.toNat + run.2.2.2 : Int).toNat) ∨
      (lowerChar c).toNat = 0 := by
  unfold lowerChar
  dsimp only
  rw [if_neg (by omega)]
  rcases toNat_ofNat (c.toNat + lowerDistance c.toNat lowerRuns).toNat with heq | hzero
  · rw [heq]
    rcases lowerDistance_eq c.toNat lowerRuns with hnone | ⟨run, hrun, hfirst, hlast, hdistance⟩
    · left
      rw [hnone]
      omega
    · exact .inr (.inl ⟨run, hrun, hfirst, hlast, by rw [hdistance]⟩)
  · exact .inr (.inr hzero)

/-- What is not ASCII becomes one of three letters if it becomes ASCII. -/
theorem lowerChar_beyond {c : Char} (h : 128 ≤ c.toNat) :
    128 ≤ (lowerChar c).toNat ∨ (lowerChar c).toNat ∈ likened ∨ (lowerChar c).toNat = 0 := by
  rcases toNat_lowerChar h with hsame | ⟨run, hrun, hfirst, hlast, hcode⟩ | hzero
  · exact .inl (hsame ▸ h)
  · rw [hcode]
    rcases lowerRuns_beyond run hrun with hbeyond | ⟨hsingle, hletter⟩
    · left
      omega
    · have hown : c.toNat = run.1 := by omega
      rw [hown]
      exact .inr (.inl hletter)
  · exact .inr (.inr hzero)

theorem fold_beyond {c : Char} (h : 128 ≤ c.toNat) :
    128 ≤ (fold c).toNat ∨ (fold c).toNat ∈ likened ∨ (fold c).toNat = 0 := by
  unfold fold
  dsimp only
  split
  · exact lowerChar_beyond h
  · split
    · rename_i z n hfind
      rcases toNat_ofNat n with heq | hzero
      · rw [heq]
        rcases twins_beyond _ (List.mem_of_find?_eq_some hfind) with hbeyond | hletter
        · exact .inl hbeyond
        · exact .inr (.inl hletter)
      · exact .inr (.inr hzero)
    · left
      omega

/-- In ASCII only capitals are folded to another character. -/
theorem fold_ascii {c : Char} (h : c.toNat < 128) :
    fold c = if 65 ≤ c.toNat ∧ c.toNat ≤ 90 then Char.ofNat (c.toNat + 32) else c := by
  unfold fold lowerChar
  dsimp only
  rw [if_pos h]
  simp only [Bool.and_eq_true, decide_eq_true_eq]
  by_cases hupper : 65 ≤ c.toNat ∧ c.toNat ≤ 90
  · rw [if_pos hupper, toNat_ofNat_of_lt (by omega), if_pos (by omega)]
  · rw [if_neg hupper, if_pos h]

theorem IsMark.fold_eq {m : Char} (hm : IsMark m) : fold m = m := by
  rw [fold_ascii hm.2.1, if_neg hm.2.2.1]

/-- **Only a mark itself equals a mark up to case.** -/
theorem IsMark.fold_eq_iff {m : Char} (hm : IsMark m) {c : Char} : fold c = fold m ↔ c = m := by
  rw [hm.fold_eq]
  obtain ⟨hvisible, hascii, hnotUpper, hnotLower⟩ := hm
  constructor
  · intro heq
    by_cases hc : c.toNat < 128
    · rw [fold_ascii hc] at heq
      split at heq
      · have hcode := congrArg Char.toNat heq
        rw [toNat_ofNat_of_lt (by omega)] at hcode
        omega
      · exact heq
    · have hcode : (fold c).toNat = m.toNat := congrArg Char.toNat heq
      have hbeyond := fold_beyond (c := c) (by omega)
      rw [hcode] at hbeyond
      simp only [likened, List.mem_cons, List.not_mem_nil, or_false] at hbeyond
      omega
  · rintro rfl
    rw [fold_ascii hascii, if_neg hnotUpper]

/-- Marks are written in one way. -/
theorem eq_of_map_fold {marks written : List Char} (hmarks : ∀ m ∈ marks, IsMark m)
    (h : written.map fold = marks.map fold) : written = marks := by
  induction marks generalizing written with
  | nil => exact List.map_eq_nil_iff.mp h
  | cons m ms ih =>
    obtain ⟨c, cs, rfl, hc, hcs⟩ := List.map_eq_cons_iff.mp h
    obtain ⟨hm, hms⟩ := List.forall_mem_cons.mp hmarks
    rw [hm.fold_eq_iff.mp hc, ih hms hcs]

/-- A letter of ASCII that no letter beyond ASCII equals up to case. -/
def IsOwnLetter (d : Char) : Prop := 97 ≤ d.toNat ∧ d.toNat ≤ 122 ∧ d.toNat ∉ likened

instance (d : Char) : Decidable (IsOwnLetter d) := inferInstanceAs (Decidable (_ ∧ _ ∧ _))

/-- **Only the letter itself and its capital equal it up to case.** -/
theorem IsOwnLetter.of_fold_eq {c d : Char} (hd : IsOwnLetter d) (h : fold c = fold d) :
    c = d ∨ c.toNat + 32 = d.toNat := by
  obtain ⟨hfirst, hlast, hown⟩ := hd
  have hself : fold d = d := by rw [fold_ascii (by omega), if_neg (by omega)]
  rw [hself] at h
  by_cases hc : c.toNat < 128
  · rw [fold_ascii hc] at h
    split at h
    · right
      rw [← h, toNat_ofNat_of_lt (by omega)]
    · exact .inl h
  · have hcode : (fold c).toNat = d.toNat := congrArg Char.toNat h
    have hbeyond := fold_beyond (c := c) (by omega)
    rw [hcode] at hbeyond
    rcases hbeyond with hbeyond | hlikened | hzero
    · omega
    · exact absurd hlikened hown
    · omega

theorem isWord_of_letter {c : Char}
    (h : 97 ≤ c.toNat ∧ c.toNat ≤ 122 ∨ 65 ≤ c.toNat ∧ c.toNat ≤ 90) :
    isWord c = true := by
  have hcode : c.toNat ∈ List.range' 97 26 ++ List.range' 65 26 := by
    simp only [List.mem_append, List.mem_range'_1]
    omega
  have hall : ∀ n ∈ List.range' 97 26 ++ List.range' 65 26, isWord (Char.ofNat n) = true :=
    by decide
  rw [← Char.ofNat_toNat c]
  exact hall _ hcode

/-- A word that begins like another up to case begins with a character of a word. -/
theorem IsOwnLetter.isWord {c d : Char} (hd : IsOwnLetter d) (h : fold c = fold d) :
    Text.isWord c = true := by
  obtain ⟨hfirst, hlast, -⟩ := id hd
  apply isWord_of_letter
  rcases hd.of_fold_eq h with rfl | hcapital
  · exact .inl ⟨hfirst, hlast⟩
  · omega

/-- The letters beyond ASCII that become one of ASCII are characters of a word, and no letter
becomes one that is then taken for one of ASCII. -/
theorem lowerRuns_word : ∀ run ∈ lowerRuns,
    (128 ≤ (run.1 : Int) + run.2.2.2 ∨ run.1 = run.2.1 ∧ inRanges run.1 wordRanges = true) ∧
      ∀ twin ∈ twins, twin.2 < 128 →
        (twin.1 : Int) < run.1 + run.2.2.2 ∨ run.2.1 + run.2.2.2 < (twin.1 : Int) := by
  decide +kernel

theorem twins_word : ∀ twin ∈ twins, twin.2 < 128 → inRanges twin.1 wordRanges = true :=
  by decide +kernel

/-- **What equals a letter of ASCII up to case is a character of a word.** -/
theorem isWord_of_fold {c d : Char} (hd : 97 ≤ d.toNat ∧ d.toNat ≤ 122) (h : fold c = d) :
    isWord c = true := by
  by_cases hc : c.toNat < 128
  · rw [fold_ascii hc] at h
    refine isWord_of_letter ?_
    split at h
    · rename_i hupper
      exact .inr hupper
    · rw [h]
      exact .inl hd
  · have hbeyond : isWord c = inRanges c.toNat wordRanges := by
      unfold isWord
      exact if_neg hc
    have hlower := toNat_lowerChar (Nat.le_of_not_lt hc)
    rw [hbeyond]
    unfold fold at h
    dsimp only at h
    split at h
    · -- the lower case is ASCII already
      rw [h] at hlower
      rcases hlower with hsame | ⟨run, hrun, hfirst, hlast, hcode⟩ | hzero
      · omega
      · rcases (lowerRuns_word run hrun).1 with hfar | ⟨hsingle, hword⟩
        · omega
        · rwa [show c.toNat = run.1 by omega]
      · omega
    · split at h
      · -- the lower case is the twin of a letter of ASCII
        rename_i z n hfind
        have htwin := List.mem_of_find?_eq_some hfind
        have hz : z = (lowerChar c).toNat := by simpa using List.find?_some hfind
        have hn : n < 128 := by
          have hcode := congrArg Char.toNat h
          rcases toNat_ofNat n with heq | hzero <;> omega
        rcases hlower with hsame | ⟨run, hrun, hfirst, hlast, hcode⟩ | hzero
        · rw [← hsame, ← hz]
          exact twins_word _ htwin hn
        · rcases (lowerRuns_word run hrun).2 _ htwin hn with hbefore | hbehind
          · omega
          · omega
        · omega
      · have hcode := congrArg Char.toNat h
        omega

end PlainSteps.Text
