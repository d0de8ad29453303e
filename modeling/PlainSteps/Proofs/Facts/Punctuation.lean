import PlainSteps.Facts.Address
import PlainSteps.Proofs.Facts.Credentials
import PlainSteps.Proofs.Pattern.Pieces
import PlainSteps.Proofs.Text.Trimming

/-! # Values that are nothing but punctuation

An address goes on up to a blank, a quote or an angle bracket, and a bare credential up to a blank,
a comma, a semicolon or a quote. Either takes the punctuation of its sentence along, which is
trimmed off afterwards. The patterns ask for at least one character, but they ask before trimming,
so that a value of nothing but punctuation is found and nothing is left of it: of an address its
scheme alone, in which no address is found (`urls_scheme`), and of a credential the empty text. Any
other address is left as one that is found as it stands, and a credential is empty in no other way
than by empty quotes or by the configuration.
-/

namespace PlainSteps.Facts

open Pattern

/-! ### Addresses -/

/-- What an address begins with, its letters in any case. -/
structure IsScheme (scheme : Text) : Prop where
  parts : ∃ word secure, scheme = word ++ (secure ++ "://".toList) ∧
    word.map Text.fold = "http".toList ∧
    (secure = [] ∨ secure.map Text.fold = "s".toList)

/-- An address as it is found, with the punctuation behind it. -/
structure IsAddress (scheme body : Text) : Prop where
  scheme : IsScheme scheme
  ne_nil : body ≠ []
  inner : ∀ c ∈ body, endsAddress c = false

section Addresses

variable {scheme body rest text u : Text} {previous : Option Char}

theorem slash_not_mem {word : Text} (h : '/' ∉ word.map Text.fold) : '/' ∉ word := fun hin => by
  have hmark : Text.IsMark '/' := by decide
  refine h ?_
  rw [← hmark.fold_eq]
  exact List.mem_map_of_mem hin

theorem IsScheme.count_slash (h : IsScheme scheme) : scheme.count '/' = 2 := by
  obtain ⟨word, secure, rfl, hword, hsecure⟩ := h.parts
  have hfront : '/' ∉ word := slash_not_mem (by rw [hword]; decide)
  have hletter : '/' ∉ secure := by
    rcases hsecure with rfl | hsecure
    · exact List.not_mem_nil
    · exact slash_not_mem (by rw [hsecure]; decide)
  rw [List.count_append, List.count_append, List.count_eq_zero_of_not_mem hfront,
    List.count_eq_zero_of_not_mem hletter]
  rfl

theorem IsScheme.getLast? (h : IsScheme scheme) : scheme.getLast? = some '/' := by
  obtain ⟨word, secure, rfl, -⟩ := h.parts
  rw [List.getLast?_append, List.getLast?_append]
  rfl

/-- An address is read as a whole where a character comes behind it that ends it. -/
theorem IsAddress.matchAt (h : IsAddress scheme body)
    (hrest : ∀ c ∈ rest.head?, endsAddress c = true) :
    address.matchAt ⟨previous, scheme ++ (body ++ rest)⟩ = some ([], rest) := by
  obtain ⟨word, secure, rfl, hword, hsecure⟩ := h.scheme.parts
  -- behind the word of the scheme and its last letter
  have hbehind : ∀ previous, run (seq [letters "://", oneOrMore fun c => !endsAddress c])
      ⟨previous, "://".toList ++ (body ++ rest)⟩ [] (fun s g => some (g, s.rest)) =
        some ([], rest) := by
    intro previous
    rw [run_seq_cons, run_letters rfl]
    exact run_oneOrMore_append h.ne_nil (fun c hc => by simp [h.inner c hc])
      (fun c hc => by simp [hrest c hc]) rfl
  rw [Pattern.matchAt, address, run_seq_cons, List.append_assoc, run_letters hword, run_seq_cons,
    List.append_assoc]
  rcases hsecure with rfl | hsecure
  · -- the mark behind the word is no letter
    have hcolon : Text.fold ':' ≠ Text.fold 's' := by decide
    have hnext : ∀ c ∈ ("://".toList ++ (body ++ rest)).head?, Text.fold c ≠ Text.fold 's' := by
      rintro _ ⟨⟩
      exact hcolon
    exact (run_maybe_of_eq_none (run_letter_eq_none hnext)).trans (hbehind _)
  · obtain ⟨s, rfl, hs⟩ := List.map_eq_singleton_iff.mp hsecure
    have hletter : (Text.fold s == Text.fold 's') = true := by
      rw [hs]
      decide
    rw [maybe, run, letter, List.singleton_append,
      run_one_cons (p := fun c => Text.fold c == Text.fold 's') hletter, hbehind]
    rfl

theorem isMark_of_mem_schemeMarks : ∀ m ∈ "://".toList, Text.IsMark m := by
  intro m hm
  have hwhich : m = ':' ∨ m = '/' := by simpa using hm
  rcases hwhich with rfl | rfl
  all_goals decide

/-- What is read as an address is one. -/
theorem address_taken {m : Captures × Text} (h : address.matchAt ⟨previous, text⟩ = some m) :
    ∃ scheme body, IsAddress scheme body ∧ text = scheme ++ (body ++ m.2) := by
  rw [Pattern.matchAt, address, run_seq_cons] at h
  obtain ⟨word, rest₁, hrest₁, hword, h⟩ := run_letters_taken h
  rw [run_seq_cons] at h
  obtain ⟨secure, rest₂, previous₂, hrest₂, hsecure, h⟩ : ∃ secure rest₂ previous₂,
    rest₁ = secure ++ rest₂ ∧
      (secure = [] ∨ secure.map Text.fold = "s".toList) ∧
      run (seq [letters "://", oneOrMore fun c => !endsAddress c]) ⟨previous₂, rest₂⟩ []
        (fun s g => some (g, s.rest)) = some m := by
    rcases run_alt_taken h with h | h
    · obtain ⟨s, rest₂, hrest₂, hs, h⟩ := run_one_taken h
      exact ⟨[s], rest₂, _, hrest₂, .inr (by rw [List.map_singleton, eq_of_beq hs]; rfl), h⟩
    · exact ⟨[], rest₁, _, rfl, .inl rfl, h⟩
  rw [run_seq_cons] at h
  obtain ⟨marks, rest₃, hrest₃, hmarks, h⟩ := run_letters_taken h
  obtain ⟨c, cs, rest, hrest, hinner, heq⟩ := run_oneOrMore_taken h
  cases heq
  obtain rfl : marks = "://".toList := Text.eq_of_map_fold isMark_of_mem_schemeMarks hmarks
  dsimp only at hrest₁ hrest₂ hrest₃ hrest ⊢
  refine ⟨word ++ (secure ++ "://".toList), c :: cs,
    ⟨⟨word, secure, rfl, hword, hsecure⟩, List.cons_ne_nil c cs,
      fun d hd => by simpa using hinner d hd⟩, ?_⟩
  rw [hrest₁, hrest₂, hrest₃, hrest]
  simp only [List.append_assoc]

theorem address_takesUp : address.TakesUp := by
  rintro previous whole after g h rfl
  obtain ⟨scheme, body, haddress, hparts⟩ := address_taken h
  have hlengths := congrArg List.length hparts
  have hbody := List.length_pos_iff.mpr haddress.ne_nil
  simp only [List.length_append, List.length_nil] at hlengths
  omega

/-- The addresses of a text are pieces of it without their punctuation. -/
theorem mem_urls (h : u ∈ urls text) :
    ∃ scheme body, IsAddress scheme body ∧ scheme ++ body <:+: text ∧
    u = Text.trimRightOf isTrailing (scheme ++ body) := by
  obtain ⟨f, hf, rfl⟩ := List.mem_map.mp h
  obtain ⟨front, htext, hmatch⟩ := (address_takesUp.course_findAll text).matchAt_of_mem hf
  obtain ⟨scheme, body, haddress, hparts⟩ := address_taken hmatch
  obtain hwhole : f.whole = scheme ++ body := by
    rw [← List.append_assoc] at hparts
    exact List.append_cancel_right hparts
  refine ⟨scheme, body, haddress, ⟨front, f.after, ?_⟩, by rw [hwhole]⟩
  rw [htext, hwhole, List.append_assoc]

/-- The address of a step is one of those in its text, and only when there is none the start of the
application. -/
theorem url_mem_urls (config : Config) (text : Text) :
    url config text ∈ urls text ∨ address.occursIn text = false ∧
    url config text = config.baseUrl := by
  have hcourse := address_takesUp.course_findAll text
  unfold url urls
  generalize address.findAll text = found at hcourse
  cases hcourse with
  | done hnone => exact .inr ⟨by rw [occursIn, find?, hnone]; rfl, rfl⟩
  | next _ _ _ => exact .inl (.head _)

/-- Where only punctuation comes behind the scheme, the scheme is left. -/
theorem IsScheme.trimRightOf_append (h : IsScheme scheme)
    (hbody : ∀ c ∈ body, isTrailing c = true) :
    Text.trimRightOf isTrailing (scheme ++ body) = scheme := by
  rw [Text.trimRightOf_append, if_pos (Text.trimRightOf_eq_nil_iff.mpr hbody)]
  refine Text.trimRightOf_eq_self ?_
  rw [h.getLast?]
  rintro _ ⟨⟩
  decide

/-- In a scheme alone no address is found: both its slashes would be those of the scheme of the
address, and then the last of them is the end. -/
theorem urls_scheme (h : IsScheme scheme) : urls scheme = [] := by
  have hnone : address.findFrom none scheme = none := by
    by_contra hsome
    obtain ⟨f, hf⟩ := Option.ne_none_iff_exists'.mp hsome
    obtain ⟨hparts, hmatch⟩ := findFrom_parts hf
    obtain ⟨scheme', body, haddress, hpiece⟩ := address_taken hmatch
    dsimp only at hpiece
    rw [hpiece] at hparts
    have hslashes := congrArg (List.count '/') hparts
    rw [h.count_slash, List.count_append, List.count_append, haddress.scheme.count_slash]
      at hslashes
    have hnot : '/' ∉ body ++ f.after := List.count_eq_zero.mp (by omega)
    have hbehind : body ++ f.after ≠ [] := by simp [haddress.ne_nil]
    have hlast := h.getLast?
    rw [hparts, List.getLast?_append_of_ne_nil _ (by simp [hbehind]),
      List.getLast?_append_of_ne_nil _ hbehind] at hlast
    exact hnot (List.mem_of_getLast? hlast)
  unfold urls
  rw [(Course.done hnone).findAll_eq]
  rfl

/-- An address without punctuation at its end is its own only address. -/
theorem IsAddress.urls_eq (h : IsAddress scheme body)
    (hends : ∀ c ∈ body.getLast?, isTrailing c = false) :
    urls (scheme ++ body) = [scheme ++ body] := by
  have hmatch : address.matchAt ⟨none, scheme ++ (body ++ [])⟩ = some ([], []) := h.matchAt nofun
  rw [← List.append_assoc] at hmatch
  have hfirst := findFrom_of_matchAt hmatch
  rw [List.append_nil] at hfirst
  have hcourse : Course address none (scheme ++ body) [⟨[], scheme ++ body, [], []⟩] := by
    refine .next hfirst (by simp [h.ne_nil]) (.done ?_)
    rw [findFrom, address_takesUp.matchAt_nil]
    rfl
  unfold urls
  rw [hcourse.findAll_eq, List.map_singleton]
  rw [Text.trimRightOf_eq_self]
  rwa [List.getLast?_append_of_ne_nil _ h.ne_nil]

/-- Where something else comes behind the scheme, an address is left. -/
theorem IsAddress.urls_trimRightOf (h : IsAddress scheme body)
    (hbody : ∃ c ∈ body, isTrailing c = false) :
    urls (Text.trimRightOf isTrailing (scheme ++ body)) =
    [Text.trimRightOf isTrailing (scheme ++ body)] := by
  have hleft : Text.trimRightOf isTrailing body ≠ [] := by
    obtain ⟨c, hc, hother⟩ := hbody
    exact fun hnil => by simp [Text.trimRightOf_eq_nil_iff.mp hnil c hc] at hother
  have hkept : IsAddress scheme (Text.trimRightOf isTrailing body) :=
    ⟨h.scheme, hleft, fun c hc => h.inner c ((List.rdropWhile_prefix isTrailing body).subset hc)⟩
  rw [Text.trimRightOf_append, if_neg hleft]
  exact hkept.urls_eq Text.ends_trimRightOf

end Addresses

/-! ### Credentials -/

/-- A label in front of quotes with nothing between them. -/
def QuotesNothing (label t : Text) : Prop :=
  ∃ opening quote rest, t = opening ++ quote :: quote :: rest ∧ Opens label opening ∧
    (quote = '"' ∨ quote = '\x27')

/-- A label in front of a bare value that only has marks which end a sentence. -/
def GivesMarks (label t : Text) : Prop :=
  ∃ opening value rest, t = opening ++ (value ++ rest) ∧ Opens label opening ∧ value ≠ [] ∧
    (∀ c ∈ value, isClosing c = true) ∧ ∀ c ∈ rest.head?, isBare c = false

section Labels

variable {label t v text : Text}

theorem isBare_of_isClosing {c : Char} (h : isClosing c = true) : isBare c = true := by
  simp only [isClosing, Bool.or_eq_true, beq_iff_eq] at h
  rcases h with ((rfl | rfl) | rfl) | rfl
  all_goals decide

/-- **A label gives the empty value by empty quotes or by marks, and in no other way.** -/
theorem reads_nil_iff : Reads label t [] ↔ QuotesNothing label t ∨ GivesMarks label t := by
  constructor
  · intro h
    generalize hv : ([] : Text) = v at h
    cases h with
    | @quoted opening v quote hopens hmark _ rest =>
      subst hv
      exact .inl ⟨opening, quote, rest, rfl, hopens, hmark⟩
    | @bare opening value rest hopens hne _ hends =>
      exact .inr ⟨opening, value, rest, rfl, hopens, hne,
        Text.trimRightOf_eq_nil_iff.mp hv.symm, hends⟩
  · rintro (⟨opening, quote, rest, rfl, hopens, hmark⟩ | ⟨opening, value, rest, rfl, hopens,
      hne, hmarks, hends⟩)
    · exact .quoted hopens hmark List.not_mem_nil rest
    · have hreads := Reads.bare hopens hne (fun c hc => isBare_of_isClosing (hmarks c hc)) hends
      rwa [Text.trimRightOf_eq_nil_iff.mpr hmarks] at hreads

/-- Where no text is left, a label gives nothing. -/
theorem not_reads_nil : ¬ Reads label [] v := fun h => by
  obtain ⟨opening, after, hnil, hopens⟩ := h.opens
  obtain ⟨word, blanks, mark, gap, rfl, -⟩ := hopens.parts
  simp at hnil

theorem labelledValue?_of_firstReads (hlabel : IsLabel label) (h : FirstReads label text [] v) :
    labelledValue? label text = some v := by
  have hstart : OutsideWord none := rfl
  have hvalue := h.valueFrom?_eq hlabel hstart
  rwa [List.append_nil] at hvalue

theorem labelledValue?_of_not_reads (hlabel : IsLabel label)
    (h : ∀ v, ¬ FirstReads label text [] v) :
    labelledValue? label text = none := by
  have hstart : OutsideWord none := rfl
  have hpass := passes_of_no_reads hlabel hstart h
  have hend : (labelled label).matchAt ⟨lastOf none text, []⟩ = none := by
    by_contra hsome
    obtain ⟨m, hm⟩ := Option.ne_none_iff_exists'.mp hsome
    exact not_reads_nil ((labelled_matchAt_iff hlabel).mp ⟨m, hm, rfl⟩).2
  have hvalue := valueFrom?_append hpass
  rw [List.append_nil] at hvalue
  rw [labelledValue?_eq, hvalue, valueFrom?, findFrom, hend]
  rfl

/-- A field is empty when its label gives the empty value first, or gives none and the default is
empty. -/
theorem labelledValue?_getD_eq_nil_iff (hlabel : IsLabel label) (default : Text) :
    (labelledValue? label text).getD default = [] ↔
      FirstReads label text [] [] ∨ (∀ v, ¬ FirstReads label text [] v) ∧ default = [] := by
  by_cases hreads : ∃ v, FirstReads label text [] v
  · obtain ⟨v, hv⟩ := hreads
    have hvalue := labelledValue?_of_firstReads hlabel hv
    rw [hvalue, Option.getD_some, or_iff_left fun hnone => hnone.1 v hv]
    constructor
    · rintro rfl
      exact hv
    · intro hnil
      exact Option.some.inj (hvalue.symm.trans (labelledValue?_of_firstReads hlabel hnil))
  · rw [not_exists] at hreads
    rw [labelledValue?_of_not_reads hlabel hreads, Option.getD_none, or_iff_right (hreads []),
      and_iff_right hreads]

end Labels

/-- **What trimming punctuation leaves of a value.** An address that has anything but punctuation
behind its scheme is left as one that is found as it stands, and of any other its scheme is left, in
which none is found; the address of a step is one of these, and the start of the application only
where there is none. A credential is empty just when its label gives the empty value at the first
place where it gives one, which takes empty quotes or a bare value of nothing but marks, or when the
label gives no value and the default is empty. -/
theorem trimmed_values (config : Config) (text : Text) :
    (∀ u ∈ urls text, ∃ scheme body, IsAddress scheme body ∧ scheme ++ body <:+: text ∧
      u = Text.trimRightOf isTrailing (scheme ++ body) ∧
      ((∃ c ∈ body, isTrailing c = false) → urls u = [u]) ∧
      ((∀ c ∈ body, isTrailing c = true) → u = scheme ∧ urls u = [])) ∧
    (url config text ∈ urls text ∨ address.occursIn text = false ∧
      url config text = config.baseUrl) ∧
    ((credentials config text).username = [] ↔ FirstReads "username" text [] [] ∨
      (∀ v, ¬ FirstReads "username" text [] v) ∧ config.credentials.username = []) ∧
    ((credentials config text).password = [] ↔ FirstReads "password" text [] [] ∨
      (∀ v, ¬ FirstReads "password" text [] v) ∧ config.credentials.password = []) ∧
    ∀ label t, Reads label t [] ↔ QuotesNothing label t ∨ GivesMarks label t := by
  refine ⟨fun u hu => ?_, url_mem_urls config text,
    labelledValue?_getD_eq_nil_iff isLabel_username _,
      labelledValue?_getD_eq_nil_iff isLabel_password _, fun label t => reads_nil_iff⟩
  obtain ⟨scheme, body, haddress, hpiece, rfl⟩ := mem_urls hu
  refine ⟨scheme, body, haddress, hpiece, rfl, haddress.urls_trimRightOf, fun hbody => ?_⟩
  rw [haddress.scheme.trimRightOf_append hbody]
  exact ⟨rfl, urls_scheme haddress.scheme⟩

/-- The end of a sentence is no part of its address, and empty quotes make an empty user name. -/
theorem trimmed_values_sentence :
    (∃ scheme body, IsAddress scheme body ∧
      "https://example.com/a".toList = Text.trimRightOf isTrailing (scheme ++ body)) ∧
    FirstReads "username" "Go to https://example.com/a). Username: \"\", password: x" [] [] := by
  have hurl : "https://example.com/a".toList ∈
      urls "Go to https://example.com/a). Username: \"\", password: x" := by
    decide +kernel
  have hempty :
      (credentials Config.shipped
        "Go to https://example.com/a). Username: \"\", password: x").username = [] := by
    decide +kernel
  have hdefault : Config.shipped.credentials.username ≠ [] := by decide +kernel
  obtain ⟨haddresses, -, husername, -⟩ :=
    trimmed_values Config.shipped "Go to https://example.com/a). Username: \"\", password: x"
  obtain ⟨scheme, body, haddress, -, hkept, -⟩ := haddresses _ hurl
  refine ⟨⟨scheme, body, haddress, hkept⟩, (husername.mp hempty).resolve_right fun hnone => ?_⟩
  exact hdefault hnone.2

/-- An ellipsis behind a scheme or a label, without any quotes, leaves no address and no user
name. -/
theorem ellipsis_erased :
    urls "Open https://..." = ["https://".toList] ∧ urls "https://" = [] ∧
      url Config.shipped "Open https://..." ≠ Config.shipped.baseUrl ∧
      credentials Config.shipped "Login with username: ... and password: x" = ⟨"", "x"⟩ ∧
      Config.shipped.credentials.username ≠ "".toList := by
  decide +kernel

end PlainSteps.Facts
