import Mathlib.Data.List.Permutation
import PlainSteps.Prompt
import PlainSteps.Proofs.Text.Lower
import PlainSteps.Proofs.Text.Trimming

/-! # The head of a prompt

The lines in front of a body may give its title and its tags, one field on each line, with blank
lines among them. A line of a field is told from others by its lower case and read from its own
text. Both begin with the mark of the field, since nothing behind the mark changes the lower case of
the mark itself. So every line of a field gives just its value, blank lines give nothing, and the
first other line ends the head for good: what follows it is the body, whatever it looks like
(`parse_headed`).
-/

namespace PlainSteps.Prompt

/-! ### Fields -/

/-- The title of a prompt, as a line can give it. -/
structure Title where
  text : Text
  ne_nil : text ≠ []
  trimmed : Text.trim text = text

/-- The tags of a prompt, as a line can give them. -/
structure TagList where
  tags : List Text
  ne_nil : tags ≠ []
  tag_ne_nil : ∀ tag ∈ tags, tag ≠ []
  tag_trimmed : ∀ tag ∈ tags, Text.trim tag = tag
  tag_comma : ∀ tag ∈ tags, ',' ∉ tag

/-- A field of the head. -/
inductive Field where
  | title (t : Title)
  | tags (ts : TagList)

namespace Field

/-- How the line of a field begins. -/
def mark : Field → Text
  | title _ => "Title:"
  | tags _ => "Tags:"

/-- What a line of a field says behind its mark. -/
def value : Field → Text
  | title t => t.text
  | tags ts => Text.joinWith [','] ts.tags

/-- The line of a field. -/
def line (f : Field) : Text := f.mark ++ ' ' :: f.value

/-- What a head is with a field. -/
def give (h : Head) : Field → Head
  | title t => { h with title := t.text }
  | tags ts => { h with tags := ts.tags }

variable (f : Field)

theorem exists_end_value : ∃ c ∈ f.value.getLast?, Text.isBlank c = false := by
  cases f with
  | title t => exact Text.exists_end_of_trimOf t.ne_nil t.trimmed
  | tags ts =>
    have hlast : ts.tags.getLast ts.ne_nil ∈ ts.tags := List.getLast_mem ts.ne_nil
    rw [value, Text.getLast?_joinWith ts.tag_ne_nil, List.getLast?_eq_some_getLast ts.ne_nil]
    exact Text.exists_end_of_trimOf (ts.tag_ne_nil _ hlast) (ts.tag_trimmed _ hlast)

/-- The line of a field begins with its mark and ends with its value, so nothing of it is
trimmed. -/
theorem trim_line : Text.trim f.line = f.line := by
  refine Text.trimOf_eq_self ?_ ?_
  · cases f with
    | title t => rintro c ⟨⟩; decide
    | tags ts => rintro c ⟨⟩; decide
  · obtain ⟨d, hd, hblank⟩ := f.exists_end_value
    intro c hc
    rw [line, List.getLast?_append, List.getLast?_cons, Option.mem_def.mp hd] at hc
    cases hc
    exact hblank

/-- The lower case of a line begins with that of its mark. -/
theorem lower_line : ∃ rest, Text.lower f.line = Text.lower f.mark ++ rest := by
  have hsigma : 'Σ' ∉ f.mark := by
    cases f with
    | title t => exact (by decide : 'Σ' ∉ "Title:".toList)
    | tags ts => exact (by decide : 'Σ' ∉ "Tags:".toList)
  obtain ⟨rest, hrest⟩ := Text.lower_prefix_append hsigma (' ' :: f.value)
  exact ⟨rest, hrest.symm⟩

end Field

/-- The tags of a list are read back from it. -/
theorem TagList.tagsOf_value (ts : TagList) :
    tagsOf (' ' :: Text.joinWith [','] ts.tags) = ts.tags := by
  obtain ⟨first, rest, htags⟩ := List.exists_cons_of_ne_nil ts.ne_nil
  have hsplit : Text.splitOn ',' (' ' :: Text.joinWith [','] ts.tags) = (' ' :: first) :: rest := by
    have hown : Text.splitWhere (· == ',') (Text.joinWith [','] ts.tags) = first :: rest :=
      (Text.splitOn_joinWith ts.ne_nil ts.tag_comma).trans htags
    rw [Text.splitOn, Text.splitWhere, hown]
    rfl
  have hfirst : Text.trim (' ' :: first) = Text.trim first := rfl
  have htrim : ts.tags.map Text.trim = ts.tags :=
    (List.map_congr_left ts.tag_trimmed).trans (List.map_id _)
  rw [tagsOf, hsplit, List.map_cons, hfirst, ← List.map_cons, ← htags, htrim]
  exact List.filter_eq_self.mpr fun tag htag => by simpa using ts.tag_ne_nil tag htag

/-! ### Reading a head -/

section Reading

variable {h : Head} {line : Text} (rest : List Text)

theorem readHead_blank (hblank : Text.trim line = []) :
    readHead h (line :: rest) = readHead h rest := by
  rw [readHead, hblank]
  rfl

/-- **The line of a field gives its value.** -/
theorem readHead_field (f : Field) : readHead h (f.line :: rest) = readHead (f.give h) rest := by
  obtain ⟨behind, hlower⟩ := f.lower_line
  rw [readHead, f.trim_line, hlower]
  cases f with
  | title t =>
    have hvalue : Text.trim (' ' :: t.text) = t.text := t.trimmed
    show readHead { h with title := Text.trim (' ' :: t.text) } rest = _
    rw [hvalue]
    rfl
  | tags ts =>
    show readHead { h with tags := tagsOf (' ' :: Text.joinWith [','] ts.tags) } rest = _
    rw [ts.tagsOf_value]
    rfl

/-- A line with which a body can begin: not a blank one, and none that gives a title or tags. -/
structure OpensBody (line : Text) : Prop where
  not_blank : Text.trim line ≠ []
  no_title : Text.startsWith "title:" (Text.lower (Text.trim line)) = false
  no_tags : Text.startsWith "tags:" (Text.lower (Text.trim line)) = false

/-- Once there is a title, a heading is no part of the head. -/
theorem readHead_body (hopens : OpensBody line) (htitle : h.title ≠ []) :
    readHead h (line :: rest) = { h with body := line :: rest } := by
  rw [readHead, if_neg (by simpa using hopens.not_blank), hopens.no_title, hopens.no_tags]
  simp [htitle]

end Reading

/-! ### Heads -/

/-- The lines of fields in order, with blank lines in front of them, between them and behind
them. -/
inductive Headed : List Field → List Text → Prop
  | nil : Headed [] []
  | field {fields : List Field} {lines : List Text} (f : Field) (rest : Headed fields lines) :
      Headed (f :: fields) (f.line :: lines)
  | blank {fields : List Field} {line : Text} {lines : List Text} (blank : Text.trim line = [])
      (rest : Headed fields lines) : Headed fields (line :: lines)

theorem Headed.readHead_append {fields : List Field} {head : List Text} (hhead : Headed fields head)
    (h : Head) (rest : List Text) :
    readHead h (head ++ rest) = readHead (fields.foldl Field.give h) rest := by
  induction hhead generalizing h with
  | nil => rfl
  | field f _ ih => rw [List.cons_append, readHead_field, ih, List.foldl_cons]
  | blank hblank _ ih => rw [List.cons_append, readHead_blank _ hblank, ih]

/-- **A title and tags are read back, and the body behind them is kept.** Whatever the order of the
two, and whatever blank lines stand among them, a prompt has that title, those tags in their order,
and for its body all lines behind the head, joined by line feeds and trimmed, also those that look
like a field or a heading. It does not matter how the lines are ended. -/
theorem parse_headed (title : Title) (tags : TagList) {fields : List Field}
    (hfields : fields.Perm [.title title, .tags tags]) {head : List Text}
    (hhead : Headed fields head) (file : Text) :
    (∀ text first rest, Text.lines text = head ++ first :: rest → OpensBody first →
      parse text file = ⟨file, title.text, tags.tags,
        Text.trim (Text.joinWith ['\n'] (first :: rest))⟩) ∧
    ∀ body first rest, (∀ line ∈ head, Text.IsOneLine line) → Text.lines body = first :: rest →
      OpensBody first →
      parse (Text.joinWith ['\n'] (head ++ [body])) file =
        ⟨file, title.text, tags.tags, Text.trim (Text.joinWith ['\n'] (Text.lines body))⟩ := by
  have hgiven : fields.foldl Field.give {} = { title := title.text, tags := tags.tags } := by
    rcases List.perm_pair.mp hfields with rfl | rfl
    · rfl
    · rfl
  have hparse : ∀ text first rest, Text.lines text = head ++ first :: rest → OpensBody first →
      parse text file = ⟨file, title.text, tags.tags,
        Text.trim (Text.joinWith ['\n'] (first :: rest))⟩ := by
    intro text first rest hlines hopens
    have hread : readHead {} (Text.lines text) = ⟨title.text, tags.tags, first :: rest⟩ := by
      rw [hlines, hhead.readHead_append, hgiven]
      exact readHead_body rest hopens title.ne_nil
    rw [parse, hread]
    simp [title.ne_nil, tags.ne_nil]
  refine ⟨hparse, fun body first rest hone hlines hopens => ?_⟩
  rw [hlines]
  refine hparse _ first rest ?_ hopens
  rw [Text.lines_joinWith_append hone, hlines]

/-- A title that begins like a heading. -/
def loginTitle : Title := ⟨"# Log in: again", by decide, by decide⟩

/-- Two tags, one of them with a blank. -/
def loginTags : TagList :=
  ⟨["smoke".toList, "log in".toList], by decide, by decide, by decide, by decide⟩

/-- A head that gives the tags first, among blank lines. -/
def loginHead : List Text :=
  [[], "\t".toList, Field.line (.tags loginTags), " ".toList, Field.line (.title loginTitle), []]

/-- With the tags first, and behind the head a heading and another title. -/
theorem parse_headed_login :
    OpensBody "# Steps" ∧
    parse ("\n\t\nTags: smoke,log in\r\n \nTitle: # Log in: again\n\n".toList ++
        "# Steps\nTitle: none\n\n1. Open it\n") "p.txt" =
      ⟨"p.txt", "# Log in: again", ["smoke", "log in"], "# Steps\nTitle: none\n\n1. Open it"⟩ ∧
    parse (Text.joinWith ['\n'] (loginHead ++ ["# Steps\r\nTags: none".toList])) "p.txt" =
      ⟨"p.txt", "# Log in: again", ["smoke", "log in"], "# Steps\nTags: none"⟩ := by
  have hopens : OpensBody "# Steps" := ⟨by decide, by decide, by decide⟩
  have hhead : Headed [.tags loginTags, .title loginTitle] loginHead :=
    .blank rfl (.blank rfl (.field _ (.blank rfl (.field _ (.blank rfl .nil)))))
  obtain ⟨hlines, hbody⟩ := parse_headed loginTitle loginTags (List.Perm.swap _ _ _) hhead "p.txt"
  have hplain : loginHead.all (·.all (!Text.isLineBreak ·)) = true := by decide
  have hone : ∀ line ∈ loginHead, Text.IsOneLine line :=
    fun line hline => Text.isOneLine_of_all (List.all_eq_true.mp hplain line hline)
  exact ⟨hopens, hlines _ _ ["Title: none".toList, [], "1. Open it".toList] rfl hopens,
    hbody _ _ ["Tags: none".toList] hone rfl hopens⟩

end PlainSteps.Prompt
