import PlainSteps.CommandLine.Compile
import PlainSteps.Proofs.Browser.Playing
import PlainSteps.Proofs.Compilation.Blocks
import PlainSteps.Proofs.Json.Completeness
import PlainSteps.Proofs.Json.Printing

/-! # What a saved compilation keeps

A compilation is saved with the file, the title and the tags of its prompt, its steps and its
actions. Each record has its names once, an action leaves out the fields that it does not have, and
no number is a fraction, so the content denotes the record and nothing else. A strict decoder takes
the record apart: a field that is absent is none, and a field that is there has to be of its type.
So whoever reads the content by the standard gets all of this back, and two compilations have the
same content just when they agree in it. Of the body nothing is saved but its steps.
-/

namespace PlainSteps

/-! ### Looking up members that may be absent -/

namespace Json

variable {key name : Text} {v : Option Json} {ms : Members} {P : Int → Prop}

theorem lookup?_nil : lookup? key ([] : Members) = none := rfl

theorem lookup?_cons_self {x : Json} : lookup? key ((key, x) :: ms) = some x := by simp [lookup?]

theorem lookup?_cons_of_ne {x : Json} (h : name ≠ key) :
    lookup? key ((name, x) :: ms) = lookup? key ms := by
  simp [lookup?, h]

theorem lookup?_member_self : lookup? key (Action.member key v ++ ms) = v.or (lookup? key ms) := by
  cases v with
  | none => rfl
  | some x => exact lookup?_cons_self

theorem lookup?_member_of_ne (h : name ≠ key) :
    lookup? key (Action.member name v ++ ms) = lookup? key ms := by
  cases v with
  | none => rfl
  | some x => exact lookup?_cons_of_ne h

/-- The text that a value is. -/
def text? : Json → Option Text
  | str t => some t
  | _ => none

/-- The whole number that a value is. -/
def whole? : Json → Option Int
  | int i => some i
  | _ => none

theorem text?_str (t : Text) : text? (.str t) = some t := rfl

theorem whole?_int (i : Int) : whole? (.int i) = some i := rfl

/-- What is read from a member that may be absent; one that is there has to be read. -/
def optionalAt? {α : Type} (read : Json → Option α) (key : Text) (x : Json) : Option (Option α) :=
  match x.get? key with
  | none => some none
  | some y => (read y).map some

/-- What is read from the items of a member. -/
def eachAt? {α : Type} (read : Json → Option α) (key : Text) (x : Json) : Option (List α) :=
  (x.itemsAt? key).bind (·.mapM read)

/-- Written items are read again one by one. -/
theorem mapM_map_eq_some {α : Type} {write : α → Json} {read : Json → Option α}
    (h : ∀ a, read (write a) = some a) (as : List α) : (as.map write).mapM read = some as := by
  induction as with
  | nil => rfl
  | cons a as ih => simp [List.mapM_cons, h a, ih]

theorem optionalAt?_of_map {α : Type} {write : α → Json} {read : Json → Option α} {x : Json}
    {v : Option α} (hread : ∀ a, read (write a) = some a) (h : x.get? key = v.map write) :
    x.optionalAt? read key = some v := by
  rw [optionalAt?, h]
  cases v with
  | none => rfl
  | some a =>
    show (read (write a)).map some = _
    rw [hread a]
    rfl

theorem eachAt?_of_map {α : Type} {write : α → Json} {read : Json → Option α} {x : Json}
    {as : List α} (hread : ∀ a, read (write a) = some a)
    (h : x.get? key = some (.arr (as.map write))) :
    x.eachAt? read key = some as := by
  rw [eachAt?, itemsAt?, h]
  exact mapM_map_eq_some hread as

theorem exact_member (h : ∀ x ∈ v, Exact P x) : ∀ m ∈ Action.member name v, Exact P m.2 := by
  cases v with
  | none => exact List.forall_mem_nil _
  | some x => exact List.forall_mem_singleton.mpr (h x rfl)

theorem member_names_sublist (name : Text) (v : Option Json) :
    ((Action.member name v).map Prod.fst).Sublist [name] := by
  cases v with
  | none => exact List.nil_sublist _
  | some x => exact List.Sublist.refl _

/-- A reader obeys the standard on the values that it accepts: where a text denotes one of them, it
comes to that. -/
def Obeys (accepts : Json → Prop) (read : Text → Option Json) : Prop :=
  ∀ t x, Denotes t x → accepts x → read t = some x

/-- The project's own reader is one, as far as it converts numbers. -/
theorem obeys_read : Obeys (Exact IsConverted) fun t => (read t).toOption := by
  intro t x hdenotes hexact
  show (read t).toOption = some x
  rw [read_of_denotes hdenotes hexact]
  rfl

end Json

open Json

/-! ### Actions and steps -/

variable {P : Int → Prop}

/-- The kind that a word names. -/
def ActionKind.ofWord? (word : Text) : Option ActionKind := all.find? (·.word == word)

theorem ActionKind.ofWord?_word (k : ActionKind) : ofWord? k.word = some k := by cases k <;> rfl

/-- The action that a record is saved for. -/
def Action.ofSaved? (x : Json) : Option Action := do
  return {
    kind := ← (x.textAt? "kind").bind ActionKind.ofWord?
    target := ← x.optionalAt? text? "target"
    value := ← x.optionalAt? text? "value"
    condition := ← x.optionalAt? text? "condition"
    timeout := ← x.optionalAt? whole? "timeoutMs"
    description := ← x.textAt? "description" }

/-- Each field of an action stands under its own name, or nothing does. -/
theorem Action.get?_toJson (a : Action) :
    a.toJson.get? "kind" = some (.str a.kind.word) ∧ a.toJson.get? "target" = a.target.map .str ∧
      a.toJson.get? "value" = a.value.map .str ∧ a.toJson.get? "condition" = a.condition.map .str ∧
      a.toJson.get? "timeoutMs" = a.timeout.map .int ∧
        a.toJson.get? "description" = some (.str a.description) := by
  simp only [toJson, Json.get?, List.cons_append, List.append_assoc]
  simp (disch := decide) only [lookup?_cons_self, lookup?_cons_of_ne, lookup?_member_self,
    lookup?_member_of_ne, lookup?_nil, Option.or_none, true_and]

theorem Action.ofSaved?_toJson (a : Action) : ofSaved? a.toJson = some a := by
  obtain ⟨hkind, htarget, hvalue, hcondition, htimeout, hdescription⟩ := a.get?_toJson
  simp only [ofSaved?, textAt?, hkind, hdescription, optionalAt?_of_map text?_str htarget,
    optionalAt?_of_map text?_str hvalue, optionalAt?_of_map text?_str hcondition,
      optionalAt?_of_map whole?_int htimeout,
    Option.bind_some, ActionKind.ofWord?_word]
  rfl

theorem Action.exact_toJson {a : Action} (h : ∀ i ∈ a.timeout, P i) : Exact P a.toJson := by
  have htext : ∀ {v : Option Text}, ∀ x ∈ v.map Json.str, Exact P x := by
    intro v x hx
    obtain ⟨t, -, rfl⟩ := Option.mem_map.mp hx
    exact .str t
  have htimeout : ∀ x ∈ a.timeout.map Json.int, Exact P x := by
    intro x hx
    obtain ⟨i, hi, rfl⟩ := Option.mem_map.mp hx
    exact .int (h i hi)
  refine .obj ?_ ?_
  · simp only [List.forall_mem_append, List.forall_mem_cons]
    exact ⟨⟨⟨⟨⟨.str _, exact_member htext⟩, exact_member htext⟩, exact_member htext⟩,
      exact_member htimeout⟩, .str _, List.forall_mem_nil _⟩
  · have hnames : ["kind".toList, "target", "value", "condition", "timeoutMs",
      "description"].Nodup := by decide
    refine hnames.sublist ?_
    simp only [List.map_append, List.map_cons]
    exact (((((member_names_sublist "target" _).cons_cons _).append
      (member_names_sublist "value" _)).append
      (member_names_sublist "condition" _)).append
        (member_names_sublist "timeoutMs" _)).append (.refl _)

/-- The step that a record is saved for. -/
def StepUnit.ofSaved? (x : Json) : Option StepUnit := do
  return { index := ← (x.intAt? "index").bind Int.toNat?, text := ← x.textAt? "text" }

theorem StepUnit.ofSaved?_toJson (u : StepUnit) : ofSaved? u.toJson = some u := by
  have hindex : u.toJson.intAt? "index" = some (u.index : Int) := by
    simp only [intAt?, toJson, record, Json.get?, List.map_cons, lookup?_cons_self, nat]
  have htext : u.toJson.textAt? "text" = some u.text := by
    simp (disch := decide) only [textAt?, toJson, record, Json.get?, List.map_cons,
      lookup?_cons_self, lookup?_cons_of_ne]
  rw [ofSaved?, hindex, htext]
  rfl

namespace Compilation

/-- What is saved of a compilation. -/
structure Saved where
  file : Text
  title : Text
  tags : List Text
  units : List StepUnit
  sequence : Sequence
  deriving DecidableEq, Repr

/-- All of a compilation but its body. -/
def saved (c : Compilation) : Saved :=
  ⟨c.prompt.file, c.prompt.title, c.prompt.tags, c.units, c.sequence⟩

/-- What a record is saved for. -/
def Saved.ofJson? (x : Json) : Option Saved := do
  return {
    file := ← x.textAt? "file"
    title := ← x.textAt? "title"
    tags := ← x.eachAt? text? "tags"
    units := ← x.eachAt? StepUnit.ofSaved? "steps"
    sequence := ⟨← x.eachAt? Action.ofSaved? "actions"⟩ }

/-- Each part stands under its own name. -/
theorem get?_toJson (c : Compilation) :
    c.toJson.get? "file" = some (.str c.prompt.file) ∧
    c.toJson.get? "title" = some (.str c.prompt.title) ∧
      c.toJson.get? "tags" = some (.arr (c.prompt.tags.map .str)) ∧
      c.toJson.get? "steps" = some (.arr (c.units.map StepUnit.toJson)) ∧
      c.toJson.get? "actions" = some (.arr (c.sequence.actions.map Action.toJson)) := by
  simp only [toJson, record, Json.get?, List.map_cons, List.map_nil, strs, Sequence.toJson]
  simp (disch := decide) only [lookup?_cons_self, lookup?_cons_of_ne, true_and]

/-- The numbers of a saved compilation are those of its steps and its timeouts. -/
theorem exact_toJson {c : Compilation} (hunits : ∀ u ∈ c.units, P u.index)
    (htimeouts : ∀ a ∈ c.sequence.actions, ∀ i ∈ a.timeout, P i) : Exact P c.toJson := by
  have htags : Exact P (.arr (c.prompt.tags.map .str)) := .arr fun x hx => by
    obtain ⟨t, -, rfl⟩ := List.mem_map.mp hx
    exact .str t
  have hsteps : Exact P (.arr (c.units.map StepUnit.toJson)) := .arr fun x hx => by
    obtain ⟨u, hu, rfl⟩ := List.mem_map.mp hx
    refine .obj (by simpa using ⟨.int (hunits u hu), .str u.text⟩) ?_
    simp only [List.map_cons, List.map_nil]
    decide
  have hactions : Exact P (.arr (c.sequence.actions.map Action.toJson)) := .arr fun x hx => by
    obtain ⟨a, ha, rfl⟩ := List.mem_map.mp hx
    exact Action.exact_toJson (htimeouts a ha)
  refine .obj ?_ ?_
  · exact List.forall_mem_cons.mpr
      ⟨.str _,
        List.forall_mem_cons.mpr ⟨.str _, List.forall_mem_cons.mpr
          ⟨htags, List.forall_mem_cons.mpr ⟨hsteps, List.forall_mem_singleton.mpr hactions⟩⟩⟩⟩
  · simp only [List.map_cons, List.map_nil]
    decide

/-- **A saved compilation is taken apart into what was saved.** -/
theorem ofJson?_toJson (c : Compilation) : Saved.ofJson? c.toJson = some c.saved := by
  obtain ⟨hfile, htitle, htags, hunits, hactions⟩ := c.get?_toJson
  simp only [Saved.ofJson?, textAt?, hfile, htitle, eachAt?_of_map text?_str htags,
    eachAt?_of_map StepUnit.ofSaved?_toJson hunits, eachAt?_of_map Action.ofSaved?_toJson hactions]
  rfl

/-! ### The content of the file -/

theorem exact (c : Compilation) : Exact (fun _ => True) c.toJson :=
  exact_toJson (fun _ _ => trivial) fun _ _ _ _ => trivial

/-- Contents are the same just when what is saved is. -/
theorem pretty_toJson_inj {c c' : Compilation} :
    c'.toJson.pretty = c.toJson.pretty ↔ c'.saved = c.saved := by
  constructor
  · intro h
    have hjson : c'.toJson = c.toJson := by
      rw [← denotes_pretty_iff c.exact, ← h]
      exact (denotes_pretty_iff c'.exact).mpr rfl
    have hsaved := c'.ofJson?_toJson
    rw [hjson, ofJson?_toJson] at hsaved
    exact (Option.some.inj hsaved).symm
  · intro h
    have hparts : ∀ c : Compilation, c.toJson =
        Json.record [("file", .str c.saved.file), ("title", .str c.saved.title),
        ("tags", Json.strs c.saved.tags), ("steps", .arr (c.saved.units.map StepUnit.toJson)),
          ("actions", c.saved.sequence.toJson)] := fun _ => rfl
    rw [hparts c', h, ← hparts c]

open Script in
/-- Saving makes the directory and writes one file. -/
theorem save_plays_iff {σ : Type} {h : Host σ} {c : Compilation} {directory file : Text}
    {now : Moment} {st st' : σ} {calls : List Request} :
    (c.save directory now).run.Plays h st (.ok file) st' calls ↔
      file = path directory now ∧
      calls = [.makeDirectory directory, .writeText file c.toJson.pretty] ∧
        ∃ st₁, h.answer (.makeDirectory directory) st = (.ok (), st₁) ∧
          h.answer (.writeText file c.toJson.pretty) st₁ = (.ok (), st') := by
  -- behind the two requests only a line is told
  have htold : ∀ {st₂ : σ} {own : List Request} {line target : Text},
      (ExceptT.run (ExceptT.lift (tell line) >>=
        fun _ => (pure target : ExceptT Fault Script Text))).Plays h st₂
        (.ok file) st' own ↔ file = target ∧ st' = st₂ ∧ own = [] := by
    intro st₂ own line target
    rw [run_lift_bind, plays_tell_bind_iff, plays_run_pure_iff, Except.ok.injEq]
  unfold save
  dsimp only
  constructor
  · intro hsave
    obtain ⟨_, st₁, _, _, hmake, hlater, rfl⟩ := plays_run_bind_ok_iff.mp hsave
    obtain ⟨hmade, rfl⟩ := plays_request_iff.mp hmake
    obtain ⟨_, st₂, _, _, hwrite, hlast, rfl⟩ := plays_run_bind_ok_iff.mp hlater
    obtain ⟨hwritten, rfl⟩ := plays_request_iff.mp hwrite
    obtain ⟨rfl, rfl, rfl⟩ := htold.mp hlast
    exact ⟨rfl, rfl, st₁, hmade, hwritten⟩
  · rintro ⟨rfl, rfl, st₁, hmade, hwritten⟩
    exact plays_run_bind_ok_iff.mpr ⟨(), st₁, [_], [_], plays_request_iff.mpr ⟨hmade, rfl⟩,
      plays_run_bind_ok_iff.mpr ⟨(), st', [_], [], plays_request_iff.mpr ⟨hwritten, rfl⟩,
        htold.mpr ⟨rfl, rfl, rfl⟩, rfl⟩, rfl⟩

/-- **A saved compilation loses nothing but what its body says beside its steps.** Saving writes one
file, and its content is ASCII and denotes the record of the compilation alone. So whatever reader
obeys the standard, what it reads is taken apart into the file, the title and the tags of the
prompt, its steps and its actions, with all their fields; and compilations that differ in any of
these never have the same content. -/
theorem saved_faithfully (c : Compilation) :
    (∀ {σ : Type} (h : Host σ) (directory file : Text) (now : Moment) (st st' : σ)
      (calls : List Request), (c.save directory now).run.Plays h st (.ok file) st' calls ↔
        file = path directory now ∧
        calls = [.makeDirectory directory, .writeText file c.toJson.pretty] ∧
          ∃ st₁, h.answer (.makeDirectory directory) st = (.ok (), st₁) ∧
            h.answer (.writeText file c.toJson.pretty) st₁ = (.ok (), st')) ∧
      Text.IsAscii c.toJson.pretty ∧
      (∀ x, Denotes c.toJson.pretty x ↔ x = c.toJson) ∧
      (∀ (accepts : Json → Prop) (read : Text → Option Json), Obeys accepts read →
        accepts c.toJson →
        (read c.toJson.pretty).bind Saved.ofJson? = some c.saved) ∧
      ∀ c' : Compilation, c'.toJson.pretty = c.toJson.pretty ↔ c'.saved = c.saved := by
  have hdenotes : ∀ x, Denotes c.toJson.pretty x ↔ x = c.toJson :=
    fun _ => denotes_pretty_iff c.exact
  refine ⟨fun _ _ _ _ _ _ _ => save_plays_iff, c.exact.isAscii_pretty, hdenotes, ?_,
    fun _ => pretty_toJson_inj⟩
  intro accepts read hobeys haccepts
  rw [hobeys _ _ ((hdenotes _).mpr rfl) haccepts]
  exact c.ofJson?_toJson

/-- A compilation with quotes, a backslash, a control character and a character beyond the first
plane. -/
def marked : Compilation where
  prompt := {
    file := "a\x01😀.txt", title := "\"A\\B\" 😀", tags := ["x", "é"]
    body := "1. Wait 2 s\n2. Say \"😀\"" }
  units := [⟨1, "Wait 2 s"⟩, ⟨2, "Say \"😀\""⟩]
  sequence := ⟨[.wait 2000 "Step 1: Wait 2000ms", .wait 1000 "Step 2: unclassified step"]⟩

/-- All of it comes back through the project's reader. -/
theorem saved_faithfully_marked :
    (Compiler.bare.compilePrompt "Title: \"A\\B\" 😀\nTags: x, é\n1. Wait 2 s\n2. Say \"😀\""
      marked.prompt.file).result =
        .ok marked ∧
      (Json.read marked.toJson.pretty).toOption.bind Saved.ofJson? = some marked.saved := by
  have hcompile :
    (Compiler.bare.compilePrompt "Title: \"A\\B\" 😀\nTags: x, é\n1. Wait 2 s\n2. Say \"😀\""
      marked.prompt.file).result = .ok marked := eq_ok_of_toOption (by decide +kernel)
  have hexact : Exact IsConverted marked.toJson := exact_toJson (by decide) (by decide)
  have hread := (saved_faithfully marked).2.2.2.1 _ _ obeys_read hexact
  exact ⟨hcompile, hread⟩

/-- A compilation of one step with a note beside it. -/
def noted (note : Text) : Compilation where
  prompt := { title := "Untitled prompt", body := "1. Wait 2 s\n".toList ++ note }
  units := [⟨1, "Wait 2 s"⟩]
  sequence := ⟨[.wait 2000 "Step 1: Wait 2000ms"]⟩

/-- Two prompts with different notes beside the same step are saved with the same content. -/
theorem saved_without_notes :
    (Compiler.bare.compilePrompt "1. Wait 2 s\nfirst note" []).result = .ok (noted "first note") ∧
      (Compiler.bare.compilePrompt "1. Wait 2 s\nsecond note" []).result =
        .ok (noted "second note") ∧
      (noted "first note").prompt ≠ (noted "second note").prompt ∧
      (noted "first note").toJson.pretty = (noted "second note").toJson.pretty :=
  ⟨eq_ok_of_toOption (by decide +kernel), eq_ok_of_toOption (by decide +kernel), by decide,
    pretty_toJson_inj.mpr rfl⟩

end Compilation

end PlainSteps
