import PlainSteps.Proofs.Json.Members
import PlainSteps.Proofs.Json.Reading
import PlainSteps.Proofs.Json.Standard

/-! # What denotes a value is read as that value

The reader converts whole numbers up to a number of digits. Apart from this it takes all that the
grammar derives, and comes to the value that is denoted (`read_of_denotes`): at each part it reads
what the derivation reads there, and the length of the text is fuel enough, since a text gets
shorter at every bracket and every comma.
-/

namespace PlainSteps.Json

variable {t u rest s : Text} {c : Char} {x : Json}

/-- A whole number has no more digits than are converted. -/
def IsConverted (i : Int) : Prop := (Text.ofNat i.natAbs).length ≤ Numeral.maxDigits

instance (i : Int) : Decidable (IsConverted i) := inferInstanceAs (Decidable (_ ≤ _))

/-! ### Strings -/

theorem TakesString.ne_nil (h : TakesString t s rest) : t ≠ [] := by
  cases h with
  | close => exact List.cons_ne_nil _ _
  | letter first _ => cases first <;> exact List.cons_ne_nil _ _

theorem unitChar_toNat (c : Char) : unitChar c.toNat = c := by
  have hscalar := toNat_scalar c
  rw [unitChar, if_neg (by simp only [Bool.and_eq_true, decide_eq_true_eq]; omega),
    Char.ofNat_toNat]

/-- The code of a character is not the first half of a pair. -/
theorem not_isHigh_toNat (c : Char) : (0xd800 ≤ c.toNat && c.toNat ≤ 0xdbff) = false := by
  have hscalar := toNat_scalar c
  simp only [Bool.and_eq_false_iff, decide_eq_false_iff_not]
  omega

theorem pairChar?_halves {n : Nat} (h : c.toNat = 0x10000 + n) :
    pairChar? (0xd800 + n / 0x400) (0xdc00 + n % 0x400) = some c := by
  have hscalar := toNat_scalar c
  have hcode : 0x10000 + (0xd800 + n / 0x400 - 0xd800) * 0x400 + (0xdc00 + n % 0x400 - 0xdc00) =
    c.toNat := by omega
  rw [pairChar?, if_pos (by simp only [Bool.and_eq_true, decide_eq_true_eq]; omega),
    hcode, Char.ofNat_toNat]

/-- A character is read, if the string goes on behind it. -/
theorem string_of_takesLetter {opening : Nat} (h : TakesLetter t c u) (hu : u ≠ []) :
    string opening t = push c (string opening u) := by
  cases h with
  | plain visible noQuote noBackslash =>
    rw [string, if_neg (by omega)]
    all_goals simp [noQuote, noBackslash]
  | @named letter _ _ name =>
    have hletter : letter ≠ 'u' := by
      rintro rfl
      cases name
    rw [string, name]
    all_goals simp [hletter]
  | unit code =>
    obtain ⟨x, v, rfl⟩ := List.exists_cons_of_ne_nil hu
    -- behind a unit the reader looks for the second half of a pair, but only if the unit is a first
    -- one
    by_cases hescape : ∃ e f g i w, x = '\\' ∧ v = 'u' :: e :: f :: g :: i :: w
    · obtain ⟨e, f, g, i, w, rfl, rfl⟩ := hescape
      rw [string, code]
      dsimp only
      rw [not_isHigh_toNat, Bool.false_and, if_neg (by decide), unitChar_toNat]
    · rw [string, code]
      · dsimp only
        rw [unitChar_toNat]
      · exact fun e f g i w hx hv => hescape ⟨e, f, g, i, w, hx, hv⟩
  | @pair a b d e f g i j _ n _ beyond high low =>
    have hscalar := toNat_scalar c
    have hhigh : (decide (0xd800 ≤ 0xd800 + n / 0x400) && decide (0xd800 + n / 0x400 ≤ 0xdbff) &&
        !u.isEmpty) = true := by
      simp only [Bool.and_eq_true, decide_eq_true_eq, Bool.not_eq_true', List.isEmpty_eq_false_iff]
      exact ⟨⟨by omega, by omega⟩, hu⟩
    rw [string, high]
    dsimp only
    rw [if_pos hhigh, low]
    dsimp only
    rw [pairChar?_halves beyond]

theorem string_of_takesString {opening : Nat} (h : TakesString t s rest) :
    string opening t = .ok (s, rest) := by
  induction h with
  | close => rw [string]
  | letter first further ih =>
    rw [string_of_takesLetter first further.ne_nil, ih]
    rfl

theorem TakesString.length_le (h : TakesString t s rest) : rest.length ≤ t.length := by
  have hleaves := string_leaves 0 t
  rw [string_of_takesString h] at hleaves
  exact hleaves.length_le

/-! ### Numbers and words -/

/-- No number but zero begins with a zero. -/
theorem ofNat_ne_zero_cons {n : Nat} {ds : Text} (hn : 0 < n) : Text.ofNat n ≠ '0' :: ds := by
  induction n using Nat.strongRecOn generalizing ds with
  | ind n ih =>
    unfold Text.ofNat
    by_cases hsmall : n < 10
    · rw [Nat.toDigits_of_lt_base hsmall]
      intro h
      have hdigit : ∀ d < 10, 0 < d → Nat.digitChar d ≠ '0' := by decide
      exact hdigit n hsmall hn (List.cons.inj h).1
    · rw [Nat.toDigits_of_base_le (by decide) (by omega)]
      obtain ⟨d, es, hes⟩ := List.exists_cons_of_ne_nil (Text.ofNat_ne_nil (n / 10))
      have hfirst : d ≠ '0' := by
        rintro rfl
        exact ih (n / 10) (by omega) (by omega) hes
      rw [show Nat.toDigits 10 (n / 10) = d :: es from hes]
      exact fun h => hfirst (List.cons.inj h).1

theorem wholeDigits_ofNat_append (n : Nat) (h : EndsNumber rest) :
    wholeDigits (Text.ofNat n ++ rest) = Text.ofNat n := by
  rcases Nat.eq_zero_or_pos n with rfl | hn
  · rfl
  · obtain ⟨d, ds, hds⟩ := List.exists_cons_of_ne_nil (Text.ofNat_ne_nil n)
    have hfirst : d ≠ '0' := by
      rintro rfl
      exact ofNat_ne_zero_cons hn hds
    have htake := takeWhile_ofNat_append n h
    rw [hds, List.cons_append] at htake ⊢
    rw [wholeDigits, htake]
    · simp
    · exact fun es hes => hfirst (List.cons.inj hes).1

theorem pointDigits_of_endsNumber (h : EndsNumber rest) : pointDigits rest = [] := by
  unfold pointDigits
  split
  · exact absurd rfl (h '.' rfl).2.1
  · rfl

theorem exponentDigits_of_endsNumber (h : EndsNumber rest) : exponentDigits rest = [] := by
  unfold exponentDigits
  split
  · rename_i c cs
    obtain ⟨-, -, hlower, hupper⟩ := h c rfl
    rw [if_neg (by simp [hlower, hupper])]
  · rfl

theorem ofDigits_ofNat (n : Nat) :
    Numeral.ofDigits ((Text.ofNat n).filterMap Numeral.asciiValue?) = n := by
  have hvalues : (Text.ofNat n).filterMap Numeral.asciiValue? = (Text.ofNat n).map fun c =>
      c.toNat - 48 := by
    rw [← List.filterMap_eq_map]
    refine List.filterMap_congr fun c hc => ?_
    rw [Numeral.asciiValue?, if_pos (Text.isDigit_of_mem_ofNat hc)]
    rfl
  rw [hvalues, Numeral.ofDigits_map, Text.ofNat, Nat.ofDigitChars_ten_toDigits]

theorem number_of_takesNumber {i : Int} (h : TakesNumber t i rest) (hdigits : IsConverted i) :
    number t = .ok (.int i, rest) := by
  -- no digits begin with a sign, so the two ways to write a number exclude each other
  have hdigit : ∀ {n : Nat} {u : Text}, '-' :: u ≠ Text.ofNat n ++ rest := by
    intro n u hu
    obtain ⟨d, ds, hds, hdigit⟩ := exists_ofNat_eq_cons n
    rw [hds] at hu
    rw [← (List.cons.inj hu).1] at hdigit
    cases hdigit
  unfold number
  dsimp only
  split
  · cases h with
    | natural parts _ => exact absurd parts hdigit
    | @negative _ n parts ends =>
      rw [IsConverted, Int.natAbs_neg, Int.natAbs_natCast] at hdigits
      rw [List.length_singleton, List.drop_one, parts, List.cons_append, List.tail_cons,
        wholeDigits_ofNat_append n ends, List.drop_left, pointDigits_of_endsNumber ends,
        List.length_nil, List.drop_zero, exponentDigits_of_endsNumber ends]
      simp [Text.ofNat_ne_nil, Nat.not_lt.mpr hdigits, ofDigits_ofNat]
  · rename_i hsign
    cases h with
    | @natural _ n parts ends =>
      rw [IsConverted, Int.natAbs_natCast] at hdigits
      rw [List.length_nil, List.drop_zero, parts, wholeDigits_ofNat_append n ends, List.drop_left,
        pointDigits_of_endsNumber ends, List.length_nil, List.drop_zero,
          exponentDigits_of_endsNumber ends]
      simp [Text.ofNat_ne_nil, Nat.not_lt.mpr hdigits, ofDigits_ofNat]
    | negative parts _ => exact absurd parts (hsign _)

/-- No word begins like a number. -/
theorem find?_words_of_takesNumber {i : Int} (h : TakesNumber t i rest) :
    (words.find? fun w => Text.startsWith w.1 t) = none := by
  cases h with
  | @natural _ n parts _ =>
    obtain ⟨d, ds, hds, hdigit⟩ := exists_ofNat_eq_cons n
    have hne : ∀ c : Char, c.isDigit = false → c ≠ d := by
      rintro c hc rfl
      rw [hc] at hdigit
      cases hdigit
    rw [parts, hds]
    simp [words, Text.startsWith, hne]
  | @negative _ n parts _ =>
    obtain ⟨d, ds, hds, hdigit⟩ := exists_ofNat_eq_cons n
    have hne : 'I' ≠ d := by
      rintro rfl
      cases hdigit
    rw [parts, hds]
    simp [words, Text.startsWith, hne]

theorem scalar_of_takesNumber {i : Int} (h : TakesNumber t i rest) (hdigits : IsConverted i) :
    scalar t = .ok (.int i, rest) := by
  rw [scalar, find?_words_of_takesNumber h]
  exact number_of_takesNumber h hdigits

/-! ### Values -/

theorem value_suffix {fuel : Nat} (h : value fuel t = .ok (x, rest)) : rest <:+ t := by
  have hleaves := (value_leaves fuel).1 t
  rw [h] at hleaves
  exact hleaves

/-- What is left behind a gap is not longer. -/
theorem TakesGap.length_le {t v : Text} (h : TakesGap t v) : v.length ≤ t.length := by
  obtain ⟨gap, -, rfl⟩ := h
  exact (List.suffix_append gap v).length_le

/-! The reader goes by the mark that comes next: at the beginning of a value, and behind an item or
a member. -/

section Mark

variable {fuel : Nat} {key v z : Text}

theorem value_of_takesNumber {i : Int} (h : TakesNumber t i rest) (hdigits : IsConverted i) :
    value (fuel + 1) t = .ok (.int i, rest) := by
  rw [value, scalar_of_takesNumber h hdigits]
  -- no number begins with the mark of another value
  all_goals
    rintro w rfl
    exact absurd h (not_takesNumber (by decide))

theorem value_of_quote (hstring : string (t.length + 1) t = .ok (s, rest)) :
    value (fuel + 1) ('"' :: t) = .ok (.str s, rest) := by
  rw [value, List.length_cons, hstring]
  rfl

theorem value_of_emptyList (hmark : skipGap t = ']' :: rest) :
    value (fuel + 1) ('[' :: t) = .ok (.arr [], rest) := by
  rw [value, hmark]
  rfl

theorem value_of_list {xs : List Json} (hgap : skipGap t = u) (hmark : ∀ w, u ≠ ']' :: w) (hitems :
    items fuel u = .ok (xs, rest)) : value (fuel + 1) ('[' :: t) = .ok (.arr xs, rest) := by
  rw [value, hgap]
  split
  · exact absurd rfl (hmark _)
  · rw [hitems]
    rfl

theorem value_of_emptyObject (hmark : skipGap t = '\x7d' :: rest) :
    value (fuel + 1) ('\x7b' :: t) = .ok (.obj [], rest) := by
  rw [value, hmark]
  rfl

theorem value_of_object {ms : Members} (hgap : skipGap t = u) (hmark : ∀ w, u ≠ '\x7d' :: w)
    (hmembers : members fuel u = .ok (ms, rest)) (hdistinct : (ms.map Prod.fst).Nodup) :
    value (fuel + 1) ('\x7b' :: t) = .ok (.obj ms, rest) := by
  rw [value, hgap]
  split
  · exact absurd rfl (hmark _)
  · rw [hmembers]
    show Except.ok (obj (settle ms), rest) = _
    rw [settle_of_nodup hdistinct]

theorem items_of_bracket (hvalue : value fuel t = .ok (x, u)) (hmark : skipGap u = ']' :: rest) :
    items (fuel + 1) t = .ok ([x], rest) := by
  rw [items, hvalue]
  simp only [Bind.bind, Except.bind, hmark]
  rfl

theorem items_of_comma {xs : List Json} (hvalue : value fuel t = .ok (x, u))
    (hmark : skipGap u = ',' :: v) (hfurther : items fuel (skipGap v) = .ok (xs, rest)) :
    items (fuel + 1) t = .ok (x :: xs, rest) := by
  rw [items, hvalue]
  simp only [Bind.bind, Except.bind, hmark, hfurther]
  rfl

theorem members_of_brace (hname : string (t.length + 1) t = .ok (key, u))
    (hcolon : skipGap u = ':' :: v) (hvalue : value fuel (skipGap v) = .ok (x, z))
    (hmark : skipGap z = '\x7d' :: rest) :
    members (fuel + 1) ('"' :: t) = .ok ([(key, x)], rest) := by
  rw [members, List.length_cons, hname]
  simp only [Bind.bind, Except.bind, hcolon, hvalue, hmark]
  rfl

theorem members_of_comma {ms : Members} {z' : Text} (hname : string (t.length + 1) t = .ok (key, u))
    (hcolon : skipGap u = ':' :: v) (hvalue : value fuel (skipGap v) = .ok (x, z))
    (hmark : skipGap z = ',' :: z') (hfurther : members fuel (skipGap z') = .ok (ms, rest)) :
    members (fuel + 1) ('"' :: t) = .ok ((key, x) :: ms, rest) := by
  rw [members, List.length_cons, hname]
  simp only [Bind.bind, Except.bind, hcolon, hvalue, hmark, hfurther]
  rfl

end Mark

mutual

/-- Twice the length of a text is enough fuel: one unit for each bracket or comma, and one for the
part behind it. -/
theorem TakesValue.value_eq {t rest : Text} {x : Json} : TakesValue t x rest → Exact IsConverted x →
    ∀ fuel, 2 * t.length < fuel → value fuel t = .ok (x, rest)
  | _, _, 0, hfuel => absurd hfuel (Nat.not_lt_zero _)
  | .null, _, fuel + 1, _ => rfl
  | .true, _, fuel + 1, _ => rfl
  | .false, _, fuel + 1, _ => rfl
  | .number written, .int digits, _ + 1, _ => value_of_takesNumber written digits
  | .string written, _, _ + 1, _ => value_of_quote (string_of_takesString written)
  | .emptyList gap, _, _ + 1, _ => value_of_emptyList (gap.skipGap_eq (solid_cons rfl))
  | .list gap items, .arr hitems, fuel + 1, hfuel => by
    have hlength := gap.length_le
    rw [List.length_cons] at hfuel
    exact value_of_list (gap.skipGap_eq items.solid)
      (fun w hw => not_takesItems_bracket (hw ▸ items))
      (TakesItems.items_eq items hitems fuel (by omega))
  | .emptyObject gap, _, _ + 1, _ => value_of_emptyObject (gap.skipGap_eq (solid_cons rfl))
  | .object gap members distinct, .obj hvalues _, fuel + 1, hfuel => by
    have hlength := gap.length_le
    rw [List.length_cons] at hfuel
    exact value_of_object (gap.skipGap_eq members.solid)
      (fun w hw => not_takesMembers_brace (hw ▸ members))
      (TakesMembers.members_eq members hvalues fuel (by omega)) distinct

theorem TakesItems.items_eq {t rest : Text} {xs : List Json} :
    TakesItems t xs rest → (∀ x ∈ xs, Exact IsConverted x) →
    ∀ fuel, 2 * t.length + 1 < fuel → items fuel t = .ok (xs, rest)
  | _, _, 0, hfuel => absurd hfuel (Nat.not_lt_zero _)
  | .last item gap, hitems, fuel + 1, hfuel =>
    items_of_bracket (TakesValue.value_eq item (hitems _ (.head _)) fuel (by omega))
      (gap.skipGap_eq (solid_cons rfl))
  | .item item before after further, hitems, fuel + 1, hfuel => by
    have hvalue := TakesValue.value_eq item (hitems _ (.head _)) fuel (by omega)
    have hitem := (value_suffix hvalue).length_le
    have hbefore := before.length_le
    have hafter := after.length_le
    rw [List.length_cons] at hbefore
    refine items_of_comma hvalue (before.skipGap_eq (solid_cons rfl)) ?_
    rw [after.skipGap_eq further.solid]
    exact TakesItems.items_eq further (fun y hy => hitems y (.tail _ hy)) fuel (by omega)

theorem TakesMembers.members_eq {t rest : Text} {ms : Members} : TakesMembers t ms rest →
    (∀ m ∈ ms, Exact IsConverted m.2) → ∀ fuel, 2 * t.length + 1 < fuel →
    members fuel t = .ok (ms, rest)
  | _, _, 0, hfuel => absurd hfuel (Nat.not_lt_zero _)
  | .last name colon gap value brace, hvalues, fuel + 1, hfuel => by
    have hname := name.length_le
    have hcolon := colon.length_le
    have hgap := gap.length_le
    rw [List.length_cons] at hfuel hcolon
    refine members_of_brace (string_of_takesString name) (colon.skipGap_eq (solid_cons rfl)) ?_
      (brace.skipGap_eq (solid_cons rfl))
    rw [gap.skipGap_eq value.solid]
    exact TakesValue.value_eq value (hvalues _ (.head _)) fuel (by omega)
  | .member name colon gap value before after further, hvalues, fuel + 1, hfuel => by
    have hname := name.length_le
    have hcolon := colon.length_le
    have hgap := gap.length_le
    have hbefore := before.length_le
    have hafter := after.length_le
    rw [List.length_cons] at hfuel hcolon hbefore
    have hvalue := TakesValue.value_eq value (hvalues _ (.head _)) fuel (by omega)
    have hmember := (value_suffix hvalue).length_le
    refine members_of_comma (string_of_takesString name) (colon.skipGap_eq (solid_cons rfl)) ?_
      (before.skipGap_eq (solid_cons rfl)) ?_
    · rw [gap.skipGap_eq value.solid]
      exact hvalue
    · rw [after.skipGap_eq further.solid]
      exact TakesMembers.members_eq further (fun m hm => hvalues m (.tail _ hm)) fuel (by omega)

end

/-- **What denotes a value is read as that value**, if its numbers are converted. -/
theorem read_of_denotes (h : Denotes t x) (hx : Exact IsConverted x) : read t = .ok x := by
  obtain ⟨v, rest, hgap, hvalue, hend⟩ := h
  have hlength := hgap.length_le
  have hread := hvalue.value_eq hx (2 * t.length + 2) (by omega)
  have hmark : ∀ w, t ≠ '\ufeff' :: w := by
    rintro w rfl
    obtain ⟨gap, hblank, hparts⟩ := hgap
    obtain ⟨c, cs, rfl, hopens⟩ := hvalue.opens
    cases gap with
    | nil =>
      obtain rfl := (List.cons.inj hparts).1
      revert hopens
      decide
    | cons d ds =>
      obtain rfl := (List.cons.inj hparts).1
      exact absurd (hblank _ (.head _)) (by decide)
  have hdocument : readDocument t = .ok x := by
    unfold readDocument
    split
    · exact absurd rfl (hmark _)
    · rw [hgap.skipGap_eq hvalue.solid, hread]
      simp only [Bind.bind, Except.bind, hend.skipGap_eq fun _ hc => by cases hc]
      rfl
  rw [read, hdocument]

end PlainSteps.Json
