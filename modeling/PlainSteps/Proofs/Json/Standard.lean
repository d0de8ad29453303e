import PlainSteps.Json.Reader
import PlainSteps.Proofs.Number.Digits

/-! # What a text of JSON denotes

The grammar of JSON, from left to right: a text begins with a value, and something follows it. White
space may stand between the parts, a character of a string may stand for itself or be written as an
escape, beyond the first plane as a pair of them, and a number is written in decimal digits without
zeros in front. Fractions are left out, since nothing that is saved has one, and so are objects with
a name that comes twice, which readers take in different ways.

The grammar is not a reader, but it leaves no choice: behind white space comes a part that does not
begin with any, a number ends where no digit follows, and the first character of every other part
tells what it is. So a text denotes one value at most (`Denotes.unique`).
-/

namespace PlainSteps.Json

variable {t t' u rest rest' s s' : Text} {c d : Char} {x y : Json}

/-! ### Characters, numbers and gaps -/

/-- A text begins with white space, or with none. -/
def TakesGap (t rest : Text) : Prop := ∃ gap, (∀ c ∈ gap, isGap c = true) ∧ t = gap ++ rest

/-- A text begins with a character of a string. -/
inductive TakesLetter : Text → Char → Text → Prop
  | plain {c : Char} {rest : Text} (visible : 0x20 ≤ c.toNat) (noQuote : c ≠ '"')
      (noBackslash : c ≠ '\\') :
      TakesLetter (c :: rest) c rest
  /-- A letter behind a backslash names a character. -/
  | named {letter c : Char} {rest : Text} (name : escaped? letter = some c) :
      TakesLetter ('\\' :: letter :: rest) c rest
  /-- The code of the character in hexadecimal digits. -/
  | unit {a b d e c : Char} {rest : Text} (code : hex4? a b d e = some c.toNat) :
      TakesLetter ('\\' :: 'u' :: a :: b :: d :: e :: rest) c rest
  /-- The two halves of a code beyond the first plane. -/
  | pair {a b d e f g i j c : Char} {n : Nat} {rest : Text} (beyond : c.toNat = 0x10000 + n)
      (high : hex4? a b d e = some (0xd800 + n / 0x400))
      (low : hex4? f g i j = some (0xdc00 + n % 0x400)) :
      TakesLetter ('\\' :: 'u' :: a :: b :: d :: e :: '\\' :: 'u' :: f :: g ::
        i :: j :: rest) c rest

/-- A text begins with a string, its opening quote left out. -/
inductive TakesString : Text → Text → Text → Prop
  | close {rest : Text} : TakesString ('"' :: rest) [] rest
  | letter {t u rest cs : Text} {c : Char} (first : TakesLetter t c u)
      (further : TakesString u cs rest) :
      TakesString t (c :: cs) rest

/-- A text that does not go on with the number in front of it. -/
def EndsNumber (rest : Text) : Prop :=
  ∀ c ∈ rest.head?, c.isDigit = false ∧ c ≠ '.' ∧ c ≠ 'e' ∧ c ≠ 'E'

/-- A text begins with a whole number. -/
inductive TakesNumber : Text → Int → Text → Prop
  | natural {t rest : Text} {n : Nat} (parts : t = Text.ofNat n ++ rest) (ends : EndsNumber rest) :
      TakesNumber t n rest
  | negative {t rest : Text} {n : Nat} (parts : t = '-' :: Text.ofNat n ++ rest)
      (ends : EndsNumber rest) :
      TakesNumber t (-n) rest

/-! ### Values -/

mutual

/-- A text begins with a value. -/
inductive TakesValue : Text → Json → Text → Prop
  | null {rest : Text} : TakesValue ('n' :: 'u' :: 'l' :: 'l' :: rest) .null rest
  | true {rest : Text} : TakesValue ('t' :: 'r' :: 'u' :: 'e' :: rest) (.bool .true) rest
  | false {rest : Text} : TakesValue ('f' :: 'a' :: 'l' :: 's' :: 'e' :: rest) (.bool .false) rest
  | number {t rest : Text} {i : Int} (written : TakesNumber t i rest) : TakesValue t (.int i) rest
  | string {t s rest : Text} (written : TakesString t s rest) : TakesValue ('"' :: t) (.str s) rest
  | emptyList {t rest : Text} (gap : TakesGap t (']' :: rest)) :
      TakesValue ('[' :: t) (.arr []) rest
  | list {t u rest : Text} {xs : List Json} (gap : TakesGap t u) (items : TakesItems u xs rest) :
      TakesValue ('[' :: t) (.arr xs) rest
  | emptyObject {t rest : Text} (gap : TakesGap t ('\x7d' :: rest)) :
      TakesValue ('\x7b' :: t) (.obj []) rest
  | object {t u rest : Text} {ms : Members} (gap : TakesGap t u) (members : TakesMembers u ms rest)
      (distinct : (ms.map Prod.fst).Nodup) : TakesValue ('\x7b' :: t) (.obj ms) rest

/-- A text begins with the items of a list and its closing bracket. -/
inductive TakesItems : Text → List Json → Text → Prop
  | last {t u rest : Text} {x : Json} (item : TakesValue t x u) (gap : TakesGap u (']' :: rest)) :
      TakesItems t [x] rest
  | item {t u v w rest : Text} {x : Json} {xs : List Json} (item : TakesValue t x u)
      (before : TakesGap u (',' :: v))
      (after : TakesGap v w) (further : TakesItems w xs rest) : TakesItems t (x :: xs) rest

/-- A text begins with the members of an object and its closing brace. -/
inductive TakesMembers : Text → Members → Text → Prop
  | last {t u v w rest key : Text} {x : Json} (name : TakesString t key u)
      (colon : TakesGap u (':' :: v)) (gap : TakesGap v w) {z : Text} (value : TakesValue w x z)
      (brace : TakesGap z ('\x7d' :: rest)) :
      TakesMembers ('"' :: t) [(key, x)] rest
  | member {t u v w z z' z'' rest key : Text} {x : Json} {ms : Members} (name : TakesString t key u)
      (colon : TakesGap u (':' :: v)) (gap : TakesGap v w) (value : TakesValue w x z)
      (before : TakesGap z (',' :: z'))
      (after : TakesGap z' z'') (further : TakesMembers z'' ms rest) :
      TakesMembers ('"' :: t) ((key, x) :: ms) rest

end

/-- A whole text is written for a value, with white space around it or none. -/
def Denotes (t : Text) (x : Json) : Prop :=
  ∃ u rest, TakesGap t u ∧ TakesValue u x rest ∧ TakesGap rest []

/-- A value without fractions, whose whole numbers have a property and whose objects have distinct
names. -/
inductive Exact (P : Int → Prop) : Json → Prop
  | null : Exact P .null
  | bool (b : Bool) : Exact P (.bool b)
  | int {i : Int} (number : P i) : Exact P (.int i)
  | str (s : Text) : Exact P (.str s)
  | arr {xs : List Json} (items : ∀ x ∈ xs, Exact P x) : Exact P (.arr xs)
  | obj {ms : Members} (values : ∀ m ∈ ms, Exact P m.2) (distinct : (ms.map Prod.fst).Nodup) :
      Exact P (.obj ms)

/-! ### One reading at most -/

/-- A text that does not begin with white space. -/
def Solid (t : Text) : Prop := ∀ c ∈ t.head?, isGap c = false

/-- Behind white space comes what is left when all of it is skipped. -/
theorem TakesGap.skipGap_eq (h : TakesGap t rest) (hsolid : Solid rest) : skipGap t = rest := by
  obtain ⟨gap, hgap, rfl⟩ := h
  rw [skipGap, List.dropWhile_append_of_pos hgap]
  cases rest with
  | nil => rfl
  | cons c cs => rw [List.dropWhile_cons_of_neg (by simpa using hsolid c rfl)]

theorem TakesGap.unique (h : TakesGap t rest) (h' : TakesGap t rest') (hsolid : Solid rest)
    (hsolid' : Solid rest') :
    rest = rest' :=
  (h.skipGap_eq hsolid).symm.trans (h'.skipGap_eq hsolid')

theorem solid_cons (h : isGap c = false) : Solid (c :: t) := fun d hd => by
  obtain rfl := Option.some.inj hd
  exact h

/-- A code point lies below the last plane's end and is no half of a pair. -/
theorem toNat_scalar (c : Char) : c.toNat < 0x110000 ∧ (c.toNat < 0xd800 ∨ 0xdfff < c.toNat) := by
  have hvalid := c.valid
  unfold UInt32.isValidChar Nat.isValidChar at hvalid
  unfold Char.toNat
  omega

theorem TakesLetter.unique (h : TakesLetter t c rest) (h' : TakesLetter t d rest') :
    c = d ∧ rest = rest' := by
  -- a unit is no first half of a pair: no character has such a code point
  have hcode : ∀ {n : Nat} {z z' : Char}, z'.toNat = 0x10000 + n →
      z.toNat ≠ 0xd800 + n / 0x400 := by
    intro n z z' hz' heq
    have hz := toNat_scalar z
    have hlast := toNat_scalar z'
    omega
  cases h with
  | plain visible noQuote noBackslash =>
    cases h' with
    | plain _ _ _ => exact ⟨rfl, rfl⟩
    | named _ => exact absurd rfl noBackslash
    | unit _ => exact absurd rfl noBackslash
    | pair _ _ _ => exact absurd rfl noBackslash
  | named name =>
    cases h' with
    | plain _ _ noBackslash => exact absurd rfl noBackslash
    | named name' =>
      rw [name] at name'
      exact ⟨Option.some.inj name', rfl⟩
    | unit _ => cases name
    | pair _ _ _ => cases name
  | unit code =>
    cases h' with
    | plain _ _ noBackslash => exact absurd rfl noBackslash
    | named name' => cases name'
    | unit code' =>
      rw [code] at code'
      exact ⟨Char.toNat_inj.mp (Option.some.inj code'), rfl⟩
    | pair beyond high _ =>
      rw [code] at high
      exact absurd (Option.some.inj high) (hcode beyond)
  | pair beyond high low =>
    cases h' with
    | plain _ _ noBackslash => exact absurd rfl noBackslash
    | named name' => cases name'
    | unit code =>
      rw [code] at high
      exact absurd (Option.some.inj high) (hcode beyond)
    | pair beyond' high' low' =>
      rw [high] at high'
      rw [low] at low'
      have hhigh := Option.some.inj high'
      have hlow := Option.some.inj low'
      exact ⟨Char.toNat_inj.mp (by omega), rfl⟩

/-- A quote that stands for itself ends the string. -/
theorem not_takesLetter_quote : ¬ TakesLetter ('"' :: t) c rest := by
  intro h
  cases h with
  | plain _ noQuote _ => exact noQuote rfl

theorem TakesString.unique (h : TakesString t s rest) (h' : TakesString t s' rest') :
    s = s' ∧ rest = rest' := by
  induction h generalizing s' with
  | close =>
    cases h' with
    | close => exact ⟨rfl, rfl⟩
    | letter first' _ => exact absurd first' not_takesLetter_quote
  | letter first _ ih =>
    cases h' with
    | close => exact absurd first not_takesLetter_quote
    | letter first' further' =>
      obtain ⟨rfl, rfl⟩ := first.unique first'
      obtain ⟨rfl, rfl⟩ := ih further'
      exact ⟨rfl, rfl⟩

/-- The digits of a number are all that come. -/
theorem takeWhile_ofNat_append (n : Nat) (h : EndsNumber rest) :
    (Text.ofNat n ++ rest).takeWhile Char.isDigit = Text.ofNat n := by
  rw [List.takeWhile_append_of_pos fun c hc => Text.isDigit_of_mem_ofNat hc]
  cases rest with
  | nil => exact List.append_nil _
  | cons c cs => rw [List.takeWhile_cons_of_neg (by simp [(h c rfl).1]), List.append_nil]

theorem ofNat_append_inj {n n' : Nat} (hends : EndsNumber rest) (hends' : EndsNumber rest')
    (h : Text.ofNat n ++ rest = Text.ofNat n' ++ rest') : n = n' ∧ rest = rest' := by
  have hdigits : Text.ofNat n = Text.ofNat n' := by
    rw [← takeWhile_ofNat_append n hends, h, takeWhile_ofNat_append n' hends']
  rw [hdigits] at h
  refine ⟨?_, List.append_cancel_left h⟩
  have hvalue := congrArg (Nat.ofDigitChars 10 · 0) hdigits
  simpa only [Text.ofNat, Nat.ofDigitChars_ten_toDigits] using hvalue

theorem exists_ofNat_eq_cons (n : Nat) : ∃ c cs, Text.ofNat n = c :: cs ∧ c.isDigit = true := by
  obtain ⟨c, cs, hcs⟩ := List.exists_cons_of_ne_nil (Text.ofNat_ne_nil n)
  exact ⟨c, cs, hcs, Text.isDigit_of_mem_ofNat (n := n) (hcs ▸ .head _)⟩

theorem TakesNumber.unique {i j : Int} (h : TakesNumber t i rest) (h' : TakesNumber t j rest') :
    i = j ∧ rest = rest' := by
  have hsign : ∀ {n n' : Nat} {z z' : Text}, Text.ofNat n ++ z ≠ '-' :: Text.ofNat n' ++ z' := by
    intro n n' z z' heq
    obtain ⟨c, cs, hcs, hdigit⟩ := exists_ofNat_eq_cons n
    rw [hcs] at heq
    rw [(List.cons.inj heq).1] at hdigit
    cases hdigit
  cases h with
  | natural parts ends =>
    cases h' with
    | natural parts' ends' =>
      obtain ⟨rfl, rfl⟩ := ofNat_append_inj ends ends' (parts.symm.trans parts')
      exact ⟨rfl, rfl⟩
    | negative parts' _ => exact absurd (parts.symm.trans parts') hsign
  | negative parts ends =>
    cases h' with
    | natural parts' _ => exact absurd (parts'.symm.trans parts) hsign
    | negative parts' ends' =>
      obtain ⟨rfl, rfl⟩ := ofNat_append_inj ends ends' (List.cons.inj (parts.symm.trans parts')).2
      exact ⟨rfl, rfl⟩

/-- The characters with which values begin. -/
def Opens (c : Char) : Prop := c ∈ ['n', 't', 'f', '"', '[', '\x7b', '-'] ∨ c.isDigit = true

instance (c : Char) : Decidable (Opens c) := inferInstanceAs (Decidable (_ ∨ _))

theorem Opens.not_isGap (h : Opens c) : isGap c = false := by
  by_contra hgap
  rw [Bool.not_eq_false, isGap] at hgap
  have hcases : c = ' ' ∨ c = '\t' ∨ c = '\n' ∨ c = '\r' := by simpa [or_assoc] using hgap
  rcases hcases with rfl | rfl | rfl | rfl <;> revert h <;> decide

theorem TakesNumber.opens {i : Int} (h : TakesNumber t i rest) :
    ∃ c cs, t = c :: cs ∧ (c = '-' ∨ c.isDigit = true) := by
  cases h with
  | natural parts _ =>
    obtain ⟨c, cs, hcs, hdigit⟩ := exists_ofNat_eq_cons _
    exact ⟨c, cs ++ rest, by rw [parts, hcs, List.cons_append], .inr hdigit⟩
  | negative parts _ => exact ⟨'-', _, parts, .inl rfl⟩

theorem TakesValue.opens (h : TakesValue t x rest) : ∃ c cs, t = c :: cs ∧ Opens c := by
  cases h with
  | number written =>
    obtain ⟨c, cs, rfl, rfl | hdigit⟩ := written.opens
    · exact ⟨_, _, rfl, by decide⟩
    · exact ⟨_, _, rfl, .inr hdigit⟩
  | _ => exact ⟨_, _, rfl, by decide⟩

theorem TakesValue.solid (h : TakesValue t x rest) : Solid t := by
  obtain ⟨c, cs, rfl, hopens⟩ := h.opens
  exact solid_cons hopens.not_isGap

theorem TakesItems.opens {xs : List Json} (h : TakesItems t xs rest) :
    ∃ c cs, t = c :: cs ∧ Opens c := by
  cases h with
  | last item _ => exact item.opens
  | item item _ _ _ => exact item.opens

theorem TakesItems.solid {xs : List Json} (h : TakesItems t xs rest) : Solid t := by
  obtain ⟨c, cs, rfl, hopens⟩ := h.opens
  exact solid_cons hopens.not_isGap

theorem TakesMembers.opens {ms : Members} (h : TakesMembers t ms rest) : ∃ cs, t = '"' :: cs := by
  cases h with
  | last _ _ _ _ _ => exact ⟨_, rfl⟩
  | member _ _ _ _ _ _ _ => exact ⟨_, rfl⟩

theorem TakesMembers.solid {ms : Members} (h : TakesMembers t ms rest) : Solid t := by
  obtain ⟨cs, rfl⟩ := h.opens
  exact solid_cons rfl

/-- A number begins with none of the other marks. -/
theorem not_takesNumber {i : Int} (h : c ≠ '-' ∧ c.isDigit = false) :
    ¬ TakesNumber (c :: t) i rest := by
  intro hnumber
  obtain ⟨d, ds, heq, hopens⟩ := hnumber.opens
  obtain rfl := (List.cons.inj heq).1
  rcases hopens with rfl | hdigit
  · exact h.1 rfl
  · rw [h.2] at hdigit
    cases hdigit

theorem not_takesItems_bracket {xs : List Json} : ¬ TakesItems (']' :: t) xs rest := by
  intro h
  obtain ⟨c, cs, heq, hopens⟩ := h.opens
  obtain rfl := (List.cons.inj heq).1
  revert hopens
  decide

theorem not_takesMembers_brace {ms : Members} : ¬ TakesMembers ('\x7d' :: t) ms rest := by
  intro h
  obtain ⟨cs, heq⟩ := h.opens
  exact absurd (List.cons.inj heq).1 (by decide)

/-- Two marks behind white space are the same. -/
theorem TakesGap.unique_cons (h : TakesGap t (c :: rest)) (h' : TakesGap t (d :: rest'))
    (hc : isGap c = false) (hd : isGap d = false) : c = d ∧ rest = rest' :=
  List.cons.inj (h.unique h' (solid_cons hc) (solid_cons hd))

/-- The name of a member is read in one way, and so is the place where its value begins. -/
theorem TakesString.unique_colon {u u' v v' w w' key key' : Text} (name : TakesString t key u)
    (name' : TakesString t key' u') (colon : TakesGap u (':' :: v))
    (colon' : TakesGap u' (':' :: v')) (gap : TakesGap v w) (gap' : TakesGap v' w')
    (hsolid : Solid w) (hsolid' : Solid w') : key = key' ∧ w = w' := by
  obtain ⟨rfl, rfl⟩ := name.unique name'
  obtain ⟨-, rfl⟩ := colon.unique_cons colon' rfl rfl
  exact ⟨rfl, gap.unique gap' hsolid hsolid'⟩

mutual

theorem TakesValue.unique {t rest rest' : Text} {x y : Json} :
    TakesValue t x rest → TakesValue t y rest' → x = y ∧ rest = rest'
  -- the first mark tells the ways apart, but that a number does not begin with it has to be said
  | .null, h' => by
    cases h' with
    | null => exact ⟨rfl, rfl⟩
    | number written' => exact absurd written' (not_takesNumber (by decide))
  | .true, h' => by
    cases h' with
    | true => exact ⟨rfl, rfl⟩
    | number written' => exact absurd written' (not_takesNumber (by decide))
  | .false, h' => by
    cases h' with
    | false => exact ⟨rfl, rfl⟩
    | number written' => exact absurd written' (not_takesNumber (by decide))
  | .number written, h' => by
    cases h' with
    | number written' =>
      obtain ⟨rfl, rfl⟩ := written.unique written'
      exact ⟨rfl, rfl⟩
    | _ => exact absurd written (not_takesNumber (by decide))
  | .string written, h' => by
    cases h' with
    | number written' => exact absurd written' (not_takesNumber (by decide))
    | string written' =>
      obtain ⟨rfl, rfl⟩ := written.unique written'
      exact ⟨rfl, rfl⟩
  | .emptyList gap, h' => by
    cases h' with
    | number written' => exact absurd written' (not_takesNumber (by decide))
    | emptyList gap' => exact ⟨rfl, (gap.unique_cons gap' rfl rfl).2⟩
    | list gap' items' =>
      rw [← gap.unique gap' (solid_cons rfl) items'.solid] at items'
      exact absurd items' not_takesItems_bracket
  | .list gap items, h' => by
    cases h' with
    | number written' => exact absurd written' (not_takesNumber (by decide))
    | emptyList gap' =>
      rw [gap.unique gap' items.solid (solid_cons rfl)] at items
      exact absurd items not_takesItems_bracket
    | list gap' items' =>
      obtain rfl := gap.unique gap' items.solid items'.solid
      obtain ⟨rfl, rfl⟩ := TakesItems.unique items items'
      exact ⟨rfl, rfl⟩
  | .emptyObject gap, h' => by
    cases h' with
    | number written' => exact absurd written' (not_takesNumber (by decide))
    | emptyObject gap' => exact ⟨rfl, (gap.unique_cons gap' rfl rfl).2⟩
    | object gap' members' _ =>
      rw [← gap.unique gap' (solid_cons rfl) members'.solid] at members'
      exact absurd members' not_takesMembers_brace
  | .object gap members _, h' => by
    cases h' with
    | number written' => exact absurd written' (not_takesNumber (by decide))
    | emptyObject gap' =>
      rw [gap.unique gap' members.solid (solid_cons rfl)] at members
      exact absurd members not_takesMembers_brace
    | object gap' members' _ =>
      obtain rfl := gap.unique gap' members.solid members'.solid
      obtain ⟨rfl, rfl⟩ := TakesMembers.unique members members'
      exact ⟨rfl, rfl⟩

theorem TakesItems.unique {t rest rest' : Text} {xs ys : List Json} :
    TakesItems t xs rest → TakesItems t ys rest' → xs = ys ∧ rest = rest'
  | .last item gap, h' => by
    cases h' with
    | last item' gap' =>
      obtain ⟨rfl, rfl⟩ := TakesValue.unique item item'
      exact ⟨rfl, (gap.unique_cons gap' rfl rfl).2⟩
    | item item' before' _ _ =>
      obtain ⟨rfl, rfl⟩ := TakesValue.unique item item'
      exact absurd (gap.unique_cons before' rfl rfl).1 (by decide)
  | .item item before after further, h' => by
    cases h' with
    | last item' gap' =>
      obtain ⟨rfl, rfl⟩ := TakesValue.unique item item'
      exact absurd (before.unique_cons gap' rfl rfl).1 (by decide)
    | item item' before' after' further' =>
      obtain ⟨rfl, rfl⟩ := TakesValue.unique item item'
      obtain ⟨-, rfl⟩ := before.unique_cons before' rfl rfl
      obtain rfl := after.unique after' further.solid further'.solid
      obtain ⟨rfl, rfl⟩ := TakesItems.unique further further'
      exact ⟨rfl, rfl⟩

theorem TakesMembers.unique {t rest rest' : Text} {ms ms' : Members} :
    TakesMembers t ms rest → TakesMembers t ms' rest' → ms = ms' ∧ rest = rest'
  | .last name colon gap value brace, h' => by
    cases h' with
    | last name' colon' gap' value' brace' =>
      obtain ⟨rfl, rfl⟩ := name.unique_colon name' colon colon' gap gap' value.solid value'.solid
      obtain ⟨rfl, rfl⟩ := TakesValue.unique value value'
      exact ⟨rfl, (brace.unique_cons brace' rfl rfl).2⟩
    | member name' colon' gap' value' before' _ _ =>
      obtain ⟨rfl, rfl⟩ := name.unique_colon name' colon colon' gap gap' value.solid value'.solid
      obtain ⟨rfl, rfl⟩ := TakesValue.unique value value'
      exact absurd (brace.unique_cons before' rfl rfl).1 (by decide)
  | .member name colon gap value before after further, h' => by
    cases h' with
    | last name' colon' gap' value' brace' =>
      obtain ⟨rfl, rfl⟩ := name.unique_colon name' colon colon' gap gap' value.solid value'.solid
      obtain ⟨rfl, rfl⟩ := TakesValue.unique value value'
      exact absurd (before.unique_cons brace' rfl rfl).1 (by decide)
    | member name' colon' gap' value' before' after' further' =>
      obtain ⟨rfl, rfl⟩ := name.unique_colon name' colon colon' gap gap' value.solid value'.solid
      obtain ⟨rfl, rfl⟩ := TakesValue.unique value value'
      obtain ⟨-, rfl⟩ := before.unique_cons before' rfl rfl
      obtain rfl := after.unique after' further.solid further'.solid
      obtain ⟨rfl, rfl⟩ := TakesMembers.unique further further'
      exact ⟨rfl, rfl⟩

end

/-- **A text denotes one value at most.** -/
theorem Denotes.unique (h : Denotes t x) (h' : Denotes t y) : x = y := by
  obtain ⟨u, rest, hgap, hvalue, -⟩ := h
  obtain ⟨u', rest', hgap', hvalue', -⟩ := h'
  obtain rfl := hgap.unique hgap' hvalue.solid hvalue'.solid
  exact (hvalue.unique hvalue').1

end PlainSteps.Json
