import PlainSteps.Json.Printer
import PlainSteps.Proofs.Json.Standard

/-! # What is printed denotes what was printed

An escape of a character has the four digits of its code, or of each half of it, and the other
characters stand for themselves, so a printed string is read character by character. The layout adds
white space between the parts only, and what follows a number is a comma, a bracket behind white
space or the end. So a value without fractions, whose objects have distinct names, is denoted by the
text that is printed for it (`denotes_pretty_iff`), and all of that text is ASCII
(`isAscii_pretty`).
-/

namespace PlainSteps

namespace Text

/-- All characters are ASCII. -/
def IsAscii (t : Text) : Prop := ∀ c ∈ t, c.toNat < 128

instance (t : Text) : Decidable (IsAscii t) := List.decidableBAll (fun c : Char => c.toNat < 128) t

theorem isAscii_append {a b : Text} : IsAscii (a ++ b) ↔ IsAscii a ∧ IsAscii b :=
  List.forall_mem_append

theorem isAscii_cons {c : Char} {t : Text} : IsAscii (c :: t) ↔ c.toNat < 128 ∧ IsAscii t :=
  List.forall_mem_cons

theorem isAscii_ofNat (n : Nat) : IsAscii (ofNat n) := fun _ hc =>
  Nat.lt_of_le_of_lt (toNat_of_isDigit (isDigit_of_mem_ofNat hc)).2 (by decide)

/-! ### Hexadecimal digits -/

theorem hex_succ {width : Nat} (hwidth : 0 < width) (n : Nat) :
    hex (width + 1) n = hex width (n / 16) ++ [Nat.digitChar (n % 16)] := by
  unfold hex
  dsimp only
  by_cases hn : n < 16
  · obtain ⟨less, rfl⟩ : ∃ less, width = less + 1 := ⟨width - 1, by omega⟩
    rw [Nat.div_eq_of_lt hn, Nat.mod_eq_of_lt hn, Nat.toDigits_of_lt_base hn, Nat.toDigits_zero]
    simp [List.replicate_succ']
  · rw [Nat.toDigits_of_base_le (by decide) (by omega)]
    simp

theorem hex_one {n : Nat} (h : n < 16) : hex 1 n = [Nat.digitChar n] := by
  rw [hex, Nat.toDigits_of_lt_base h]
  rfl

theorem hex_four {n : Nat} (h : n < 0x10000) : hex 4 n =
    [Nat.digitChar (n / 16 / 16 / 16), Nat.digitChar (n / 16 / 16 % 16),
      Nat.digitChar (n / 16 % 16), Nat.digitChar (n % 16)] := by
  rw [hex_succ (by decide), hex_succ (by decide), hex_succ (by decide), hex_one (by omega)]
  rfl

end Text

namespace Json

variable {c : Char} {rest t : Text} {x : Json} {P : Int → Prop}

/-! ### Strings -/

theorem hexValue?_digitChar :
    ∀ d < 16, hexValue? (Nat.digitChar d) = some d ∧ (Nat.digitChar d).toNat < 128 := by
  decide

/-- The digits of a code unit, with its value. -/
theorem exists_unitEscape_eq {n : Nat} (h : n < 0x10000) :
    ∃ a b d e, unitEscape n = ['\\', 'u', a, b, d, e] ∧ hex4? a b d e = some n ∧
      Text.IsAscii ['\\', 'u', a, b, d, e] := by
  have hdigit : ∀ m, hexValue? (Nat.digitChar (m % 16)) = some (m % 16) ∧
      (Nat.digitChar (m % 16)).toNat < 128 :=
    fun m => hexValue?_digitChar _ (Nat.mod_lt _ (by decide))
  have hfirst := hexValue?_digitChar (n / 16 / 16 / 16) (by omega)
  refine ⟨_, _, _, _, by rw [unitEscape, Text.hex_four h]; rfl, ?_, ?_⟩
  · rw [hex4?, hfirst.1, (hdigit _).1, (hdigit _).1, (hdigit _).1]
    show some _ = some _
    congr 1
    omega
  · simp only [Text.isAscii_cons]
    exact ⟨by decide, by decide, hfirst.2, (hdigit _).2, (hdigit _).2, (hdigit _).2,
      List.forall_mem_nil _⟩

/-- What is written for a character: a letter that names it, the character itself, its code, or the
halves of its code. -/
theorem writeChar_cases (c : Char) :
    (∃ letter, writeChar c = ['\\', letter] ∧ escaped? letter = some c) ∨
      (writeChar c = [c] ∧ 32 ≤ c.toNat ∧ c.toNat < 127 ∧ c ≠ '"' ∧ c ≠ '\\') ∨
      (writeChar c = unitEscape c.toNat ∧ c.toNat < 0x10000) ∨
      (writeChar c = unitEscape (0xd800 + (c.toNat - 0x10000) / 0x400) ++
        unitEscape (0xdc00 + (c.toNat - 0x10000) % 0x400) ∧ 0x10000 ≤ c.toNat) := by
  -- in the order of the definition: named letters, characters that stand for themselves, codes
  unfold writeChar
  dsimp only
  split
  · rename_i h
    exact .inl ⟨_, rfl, eq_of_beq h ▸ rfl⟩
  rename_i hquote
  split
  · rename_i h
    exact .inl ⟨_, rfl, eq_of_beq h ▸ rfl⟩
  rename_i hbackslash
  split
  · rename_i h
    exact .inl ⟨_, rfl, eq_of_beq h ▸ rfl⟩
  split
  · rename_i h
    exact .inl ⟨_, rfl, eq_of_beq h ▸ rfl⟩
  split
  · rename_i h
    exact .inl ⟨_, rfl, eq_of_beq h ▸ rfl⟩
  split
  · rename_i h
    obtain rfl : c = '\x0c' := Char.toNat_inj.mp (eq_of_beq h)
    exact .inl ⟨_, rfl, rfl⟩
  split
  · rename_i h
    obtain rfl : c = '\x08' := Char.toNat_inj.mp (eq_of_beq h)
    exact .inl ⟨_, rfl, rfl⟩
  split
  · rename_i h
    simp only [Bool.and_eq_true, decide_eq_true_eq] at h
    exact .inr (.inl ⟨rfl, h.1, h.2, by simpa using hquote, by simpa using hbackslash⟩)
  split
  · rename_i h
    exact .inr (.inr (.inl ⟨rfl, h⟩))
  · rename_i h
    exact .inr (.inr (.inr ⟨rfl, by omega⟩))

/-- **A character is read back from what is written for it.** -/
theorem takesLetter_writeChar (c : Char) (rest : Text) :
    TakesLetter (writeChar c ++ rest) c rest := by
  obtain ⟨letter, hwritten, hname⟩ | ⟨hwritten, hvisible, -, hquote,
    hbackslash⟩ | ⟨hwritten, hbound⟩ | ⟨hwritten, hbeyond⟩ := writeChar_cases c
  · rw [hwritten]
    exact .named hname
  · rw [hwritten]
    exact .plain hvisible hquote hbackslash
  · obtain ⟨a, b, d, e, hescape, hcode, -⟩ := exists_unitEscape_eq hbound
    rw [hwritten, hescape]
    exact .unit hcode
  · have hlast := toNat_scalar c
    obtain ⟨a, b, d, e, hhigh, hhighCode, -⟩ :=
      exists_unitEscape_eq (n := 0xd800 + (c.toNat - 0x10000) / 0x400) (by omega)
    obtain ⟨f, g, i, j, hlow, hlowCode, -⟩ :=
      exists_unitEscape_eq (n := 0xdc00 + (c.toNat - 0x10000) % 0x400) (by omega)
    rw [hwritten, hhigh, hlow]
    exact .pair (n := c.toNat - 0x10000) (by omega) hhighCode hlowCode

theorem toNat_lt_of_escaped? {letter : Char} (h : escaped? letter = some c) :
    letter.toNat < 128 := by
  unfold escaped? at h
  split at h
  all_goals first
    | decide
    | cases h

theorem isAscii_unitEscape {n : Nat} (h : n < 0x10000) : Text.IsAscii (unitEscape n) := by
  obtain ⟨a, b, d, e, hescape, -, hascii⟩ := exists_unitEscape_eq h
  rw [hescape]
  exact hascii

theorem isAscii_writeChar (c : Char) : Text.IsAscii (writeChar c) := by
  obtain ⟨letter, hwritten, hname⟩ | ⟨hwritten, -, hascii, -⟩ | ⟨hwritten, hbound⟩ | ⟨hwritten,
    -⟩ := writeChar_cases c
  · rw [hwritten]
    exact Text.isAscii_cons.mpr
      ⟨by decide, List.forall_mem_singleton.mpr (toNat_lt_of_escaped? hname)⟩
  · rw [hwritten]
    exact List.forall_mem_singleton.mpr (by omega)
  · rw [hwritten]
    exact isAscii_unitEscape hbound
  · have hlast := toNat_scalar c
    rw [hwritten]
    exact Text.isAscii_append.mpr ⟨isAscii_unitEscape (by omega), isAscii_unitEscape (by omega)⟩

theorem takesString_written (s rest : Text) :
    TakesString (s.flatMap writeChar ++ '"' :: rest) s rest := by
  induction s with
  | nil => exact .close
  | cons c cs ih =>
    rw [List.flatMap_cons, List.append_assoc]
    exact .letter (takesLetter_writeChar c _) ih

theorem writeString_append (s rest : Text) :
    writeString s ++ rest = '"' :: (s.flatMap writeChar ++ '"' :: rest) := by
  rw [writeString, List.append_assoc, List.singleton_append, List.cons_append]

theorem isAscii_writeString (s : Text) : Text.IsAscii (writeString s) := by
  refine Text.isAscii_append.mpr ⟨Text.isAscii_cons.mpr ⟨by decide, fun c hc => ?_⟩, by decide⟩
  obtain ⟨d, -, hd⟩ := List.mem_flatMap.mp hc
  exact isAscii_writeChar d c hd

/-! ### Numbers and gaps -/

theorem takesNumber_ofInt (i : Int) (h : EndsNumber rest) :
    TakesNumber (Text.ofInt i ++ rest) i rest := by
  unfold Text.ofInt
  split
  · have hnegative : i = -(i.natAbs : Int) := by omega
    conv => arg 2; rw [hnegative]
    exact .negative rfl h
  · have hnatural : i = (i.natAbs : Int) := by omega
    conv => arg 2; rw [hnatural]
    exact .natural rfl h

theorem isAscii_ofInt (i : Int) : Text.IsAscii (Text.ofInt i) := by
  unfold Text.ofInt
  split
  · exact Text.isAscii_cons.mpr ⟨by decide, Text.isAscii_ofNat _⟩
  · exact Text.isAscii_ofNat _

theorem takesGap_newLine (level : Nat) (rest : Text) : TakesGap (newLine level ++ rest) rest := by
  refine ⟨newLine level, List.forall_mem_cons.mpr ⟨rfl, fun c hc => ?_⟩, rfl⟩
  rw [List.eq_of_mem_replicate hc]
  rfl

theorem takesGap_none (t : Text) : TakesGap t t := ⟨[], List.forall_mem_nil _, rfl⟩

theorem takesGap_blank (t : Text) : TakesGap (' ' :: t) t :=
  ⟨[' '], List.forall_mem_singleton.mpr rfl, rfl⟩

theorem isAscii_newLine (level : Nat) : Text.IsAscii (newLine level) := by
  refine Text.isAscii_cons.mpr ⟨by decide, fun c hc => ?_⟩
  rw [List.eq_of_mem_replicate hc]
  decide

theorem endsNumber_cons (h : c.isDigit = false ∧ c ≠ '.' ∧ c ≠ 'e' ∧ c ≠ 'E') :
    EndsNumber (c :: t) := fun d hd => by
  obtain rfl := Option.some.inj hd
  exact h

/-! ### Values -/

/-- Whether a value is read back at every level, in front of what can follow it. -/
def IsReadBack (x : Json) : Prop :=
  ∀ level rest, EndsNumber rest → TakesValue (indented level x ++ rest) x rest

theorem endsNumber_indentedItems (level : Nat) (xs : List Json) (rest : Text) :
    EndsNumber (indentedItems level xs ++ rest) := by
  cases xs with
  | nil => exact endsNumber_cons (by decide)
  | cons x xs => exact endsNumber_cons (by decide)

theorem endsNumber_indentedMembers (level : Nat) (ms : Members) (rest : Text) :
    EndsNumber (indentedMembers level ms ++ rest) := by
  cases ms with
  | nil => exact endsNumber_cons (by decide)
  | cons m ms => exact endsNumber_cons (by decide)

theorem takesItems_indented {level : Nat} {xs : List Json} (hx : IsReadBack x)
    (hxs : ∀ y ∈ xs, IsReadBack y) (rest : Text) :
    TakesItems (indented (level + 1) x ++ (indentedItems level xs ++ rest)) (x :: xs) rest := by
  induction xs generalizing x with
  | nil =>
    refine .last (hx _ _ (endsNumber_indentedItems level [] rest)) ?_
    rw [indentedItems, List.append_assoc]
    exact takesGap_newLine level _
  | cons y ys ih =>
    obtain ⟨hy, hys⟩ := List.forall_mem_cons.mp hxs
    refine .item (hx _ _ (endsNumber_indentedItems level (y :: ys) rest))
      (takesGap_none _) ?_ (ih hy hys)
    show TakesGap (newLine (level + 1) ++ indented (level + 1) y ++
      indentedItems level ys ++ rest) _
    rw [List.append_assoc, List.append_assoc]
    exact takesGap_newLine (level + 1) _

theorem takesMembers_indented {level : Nat} {key : Text} {ms : Members} (hx : IsReadBack x)
    (hms : ∀ m ∈ ms, IsReadBack m.2) (rest : Text) :
    TakesMembers (writeString key ++
      (": ".toList ++ (indented (level + 1) x ++ (indentedMembers level ms ++ rest))))
      ((key, x) :: ms) rest := by
  induction ms generalizing key x with
  | nil =>
    rw [writeString_append]
    refine .last (takesString_written key _) (takesGap_none _) (takesGap_blank _)
      (hx _ _ (endsNumber_indentedMembers level [] rest)) ?_
    rw [indentedMembers, List.append_assoc]
    exact takesGap_newLine level _
  | cons m ms ih =>
    obtain ⟨hm, hms⟩ := List.forall_mem_cons.mp hms
    rw [writeString_append]
    refine .member (takesString_written key _) (takesGap_none _) (takesGap_blank _)
      (hx _ _ (endsNumber_indentedMembers level (m :: ms) rest)) (takesGap_none _) ?_ (ih hm hms)
    show TakesGap (newLine (level + 1) ++ writeString m.1 ++ ": ".toList ++
      indented (level + 1) m.2 ++ indentedMembers level ms ++ rest) _
    rw [List.append_assoc, List.append_assoc, List.append_assoc, List.append_assoc]
    exact takesGap_newLine (level + 1) _

theorem Exact.isReadBack (h : Exact P x) : IsReadBack x := by
  induction h with
  | null => exact fun _ _ _ => .null
  | bool b => cases b <;> exact fun _ _ _ => by constructor
  | @int i _ => exact fun _ _ hends => .number (takesNumber_ofInt i hends)
  | str s =>
    intro level rest _
    rw [show indented level (.str s) = writeString s from rfl, writeString_append]
    exact .string (takesString_written s rest)
  | @arr xs _ ih =>
    intro level rest _
    -- without items nothing is written between the brackets, not even a line end
    cases xs with
    | nil => exact .emptyList (takesGap_none _)
    | cons x xs =>
      obtain ⟨hx, hxs⟩ := List.forall_mem_cons.mp ih
      have hitems :
          TakesItems (indented (level + 1) x ++ (indentedItems level xs ++ rest)) (x :: xs) rest :=
        takesItems_indented hx hxs rest
      have hgap :=
        takesGap_newLine (level + 1) (indented (level + 1) x ++ (indentedItems level xs ++ rest))
      rw [← List.append_assoc, ← List.append_assoc] at hgap
      exact .list hgap hitems
  | @obj ms _ distinct ih =>
    intro level rest _
    cases ms with
    | nil => exact .emptyObject (takesGap_none _)
    | cons m ms =>
      obtain ⟨hm, hms⟩ := List.forall_mem_cons.mp ih
      have hgap :=
        takesGap_newLine (level + 1) (writeString m.1 ++
        (": ".toList ++ (indented (level + 1) m.2 ++ (indentedMembers level ms ++ rest))))
      rw [← List.append_assoc, ← List.append_assoc, ← List.append_assoc, ← List.append_assoc]
        at hgap
      exact .object hgap (takesMembers_indented hm hms rest) distinct

/-- **A printed value is denoted by its text**, and nothing else is. -/
theorem denotes_pretty_iff (h : Exact P x) {y : Json} : Denotes x.pretty y ↔ y = x := by
  have hwritten : Denotes x.pretty x := by
    have hvalue := h.isReadBack 0 [] fun _ hc => by cases hc
    rw [List.append_nil] at hvalue
    exact ⟨_, _, takesGap_none _, hvalue, takesGap_none _⟩
  refine ⟨fun hy => hy.unique hwritten, ?_⟩
  rintro rfl
  exact hwritten

theorem isAscii_indentedItems {level : Nat} {xs : List Json}
    (h : ∀ x ∈ xs, ∀ level, Text.IsAscii (indented level x)) :
    Text.IsAscii (indentedItems level xs) := by
  induction xs with
  | nil => exact Text.isAscii_append.mpr ⟨isAscii_newLine level, by decide⟩
  | cons x xs ih =>
    obtain ⟨hx, hxs⟩ := List.forall_mem_cons.mp h
    simp only [indentedItems, List.cons_append, Text.isAscii_cons, Text.isAscii_append]
    exact ⟨by decide, ⟨isAscii_newLine _, hx _⟩, ih hxs⟩

theorem isAscii_indentedMembers {level : Nat} {ms : Members}
    (h : ∀ m ∈ ms, ∀ level, Text.IsAscii (indented level m.2)) :
    Text.IsAscii (indentedMembers level ms) := by
  induction ms with
  | nil => exact Text.isAscii_append.mpr ⟨isAscii_newLine level, by decide⟩
  | cons m ms ih =>
    obtain ⟨hm, hms⟩ := List.forall_mem_cons.mp h
    simp only [indentedMembers, List.cons_append, Text.isAscii_cons, Text.isAscii_append]
    exact ⟨by decide, ⟨⟨⟨isAscii_newLine _, isAscii_writeString _⟩, by decide⟩, hm _⟩, ih hms⟩

/-- **All that is printed is ASCII.** -/
theorem Exact.isAscii_pretty (h : Exact P x) : Text.IsAscii x.pretty := by
  have hlevels : ∀ level, Text.IsAscii (indented level x) := by
    induction h with
    | null => exact fun _ => show Text.IsAscii "null".toList by decide
    | bool b =>
      cases b with
      | true => exact fun _ => show Text.IsAscii "true".toList by decide
      | false => exact fun _ => show Text.IsAscii "false".toList by decide
    | @int i _ => exact fun _ => isAscii_ofInt i
    | str s => exact fun _ => isAscii_writeString s
    | @arr xs _ ih =>
      intro level
      cases xs with
      | nil => exact show Text.IsAscii "[]".toList by decide
      | cons x xs =>
        obtain ⟨hx, hxs⟩ := List.forall_mem_cons.mp ih
        simp only [indented, List.cons_append, Text.isAscii_cons, Text.isAscii_append]
        exact ⟨by decide, ⟨isAscii_newLine _, hx _⟩, isAscii_indentedItems hxs⟩
    | @obj ms _ _ ih =>
      intro level
      cases ms with
      | nil => exact show Text.IsAscii "\x7b\x7d".toList by decide
      | cons m ms =>
        obtain ⟨hm, hms⟩ := List.forall_mem_cons.mp ih
        simp only [indented, List.cons_append, Text.isAscii_cons, Text.isAscii_append]
        exact ⟨by decide, ⟨⟨⟨isAscii_newLine _, isAscii_writeString _⟩, by decide⟩, hm _⟩,
          isAscii_indentedMembers hms⟩
  exact hlevels 0

end Json

end PlainSteps
