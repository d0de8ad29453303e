import PlainSteps.Proofs.Trying
import PlainSteps.Generator

/-! # Every action says which step it belongs to

The description of an action begins with the number of its step, or, in the login of a dataset row,
with that number and the position of the row. The templates write the label themselves; clauses are
generated under the number of the step they come from, so the label survives every split. The
induction is on the splits that are left, and one lemma for each template is all it needs.
-/

namespace PlainSteps

/-- A description that begins with the number of a step, or with that and the position of a row. -/
def Labelled (number : Int) (description : Text) : Prop :=
  ("Step ".toList ++ Text.ofInt number ++ [':']) <+: description ∨
    ∃ r : Nat, 1 ≤ r ∧ ("Step ".toList ++ Text.ofInt number ++ '.' :: Text.ofNat r ++ [':']) <+:
      description

/-- Actions that all belong to one step. -/
def AllLabelled (number : Int) (actions : List Action) : Prop :=
  ∀ a ∈ actions, Labelled number a.description

namespace AllLabelled

variable {number : Int} {actions others : List Action} {a : Action}

@[simp] theorem nil : AllLabelled number [] := by simp [AllLabelled]

@[simp] theorem cons_iff :
    AllLabelled number (a :: actions) ↔ Labelled number a.description ∧
    AllLabelled number actions := by
  simp [AllLabelled]

@[simp] theorem append_iff :
    AllLabelled number (actions ++ others) ↔ AllLabelled number actions ∧
    AllLabelled number others := by
  simp only [AllLabelled, List.mem_append]
  exact ⟨fun h => ⟨fun a ha => h a (.inl ha), fun a ha => h a (.inr ha)⟩,
    fun h a ha => ha.elim (h.1 a) (h.2 a)⟩

end AllLabelled

theorem toList_colon_blank : ": ".toList = [':', ' '] := rfl

theorem labelled_step (number : Int) (what : Text) :
    Labelled number (Generator.step number what) := by
  refine .inl ⟨' ' :: what, ?_⟩
  unfold Generator.step
  rw [toList_colon_blank]
  simp only [List.append_assoc, List.cons_append, List.nil_append]

/-! ### Dataset rows -/

namespace Expansion

/-- A description that begins with the label of a row. -/
def Under (label description : Text) : Prop :=
  ("Step ".toList ++ label ++ ": ".toList) <+: description

@[simp] theorem under_step (label what : Text) : Under label (step label what) := ⟨what, rfl⟩

theorem Under.labelled {number : Int} {r : Nat} {description : Text} (hr : 1 ≤ r)
    (h : Under (rowLabel number r) description) : Labelled number description := by
  obtain ⟨what, rfl⟩ := h
  refine .inr ⟨r, hr, ' ' :: what, ?_⟩
  unfold rowLabel
  rw [toList_colon_blank]
  simp only [List.append_assoc, List.cons_append, List.nil_append]

theorem outcome_under (label expected : Text) (logout : Bool) :
    ∀ a ∈ outcome label expected logout, Under label a.description := by
  unfold outcome
  split
  · cases logout <;> simp [Action.assert, Action.click, Action.wait]
  · split <;> simp [Action.assert]

/-- Every action for a row is described under the label of the row. -/
theorem rowActions_under (config : Config) (row : Row) (label : Text) (logout : Bool) :
    ∀ a ∈ rowActions config row label logout, Under label a.description := by
  unfold rowActions
  rw [List.forall_mem_append]
  refine ⟨?_, outcome_under label _ logout⟩
  simp [Action.navigate, Action.fill, Action.click, Action.wait]

theorem rowActions_labelled {number : Int} {r : Nat} (hr : 1 ≤ r) (config : Config) (row : Row)
    (logout : Bool) :
    AllLabelled number (rowActions config row (rowLabel number r) logout) :=
  fun a ha => (rowActions_under config row _ logout a ha).labelled hr

theorem actionsOf_labelled (config : Config) (number : Int) (logout : Bool) (rows : List Row) :
    ∀ {position : Nat}, 1 ≤ position →
    AllLabelled number (actionsOf config number logout position rows) := by
  induction rows with
  | nil => intro position _; simp [actionsOf]
  | cons row rest ih =>
    intro position hpos
    cases rest with
    | nil => exact rowActions_labelled hpos config row logout
    | cons next rest =>
      rw [actionsOf, AllLabelled.append_iff, AllLabelled.cons_iff]
      · exact ⟨rowActions_labelled hpos config row logout,
          (under_step _ _).labelled hpos, ih (by omega)⟩
      · exact List.cons_ne_nil _ _

theorem expand_value (config : Config) (source : DataSource) (text : Text) (number : Int) :
    (expand config source text number).value =
      actionsOf config number (logoutWords.occursIn text) 1
        (usableRows config (Dataset.resolve source text).value) := by
  unfold expand
  rw [Told.value_bind]
  split <;> rfl

theorem rowActions_ne_nil (config : Config) (row : Row) (label : Text) (logout : Bool) :
    rowActions config row label logout ≠ [] := by simp [rowActions]

theorem actionsOf_ne_nil (config : Config) (number : Int) (logout : Bool) (position : Nat)
    {rows : List Row} (h : rows ≠ []) : actionsOf config number logout position rows ≠ [] := by
  cases rows with
  | nil => exact absurd rfl h
  | cons row rest =>
    cases rest with
    | nil => exact rowActions_ne_nil _ _ _ _
    | cons next rest => simp [actionsOf]

theorem usableRows_ne_nil (config : Config) (dataset : Dataset) :
    usableRows config dataset ≠ [] := by
  unfold usableRows
  split
  · exact List.cons_ne_nil _ _
  · rename_i h
    simpa using h

theorem expand_ne_nil (config : Config) (source : DataSource) (text : Text) (number : Int) :
    (expand config source text number).value ≠ [] := by
  rw [expand_value]
  exact actionsOf_ne_nil _ _ _ _ (usableRows_ne_nil _ _)

theorem expand_labelled (config : Config) (source : DataSource) (text : Text) (number : Int) :
    AllLabelled number (expand config source text number).value := by
  rw [expand_value]
  exact actionsOf_labelled config number _ _ (Nat.le_refl 1)

end Expansion

/-! ### Templates -/

namespace Generator

theorem navigation_labelled (config : Config) (number : Int) (f : Findings) :
    AllLabelled number (navigation config number f) := by
  simp [navigation, Action.navigate, labelled_step]

theorem login_labelled (config : Config) (number : Int) (f : Findings) :
    AllLabelled number (login config number f) := by
  simp [login, Action.fill, Action.click, Action.wait, labelled_step]

theorem form_labelled (number : Int) (f : Findings) : AllLabelled number (form number f) := by
  intro a ha
  obtain ⟨⟨element, value, label⟩, -, rfl⟩ := List.mem_map.mp ha
  exact labelled_step number _

theorem click_labelled (config : Config) (number : Int) (f : Findings) :
    AllLabelled number (click config number f) := by
  simp only [click, AllLabelled.cons_iff]
  refine ⟨labelled_step number _, ?_⟩
  split <;> simp [Action.wait, labelled_step]

theorem verification_labelled (number : Int) (f : Findings) :
    AllLabelled number (verification number f) := by
  simp [verification, Action.assert, labelled_step]

theorem wait_labelled {number : Int} {f : Findings} {actions : List Action}
    (h : wait number f = .ok actions) : AllLabelled number actions := by
  unfold wait at h
  obtain ⟨ms, -, rfl⟩ := map_eq_ok_iff.mp h
  simp [Action.wait, labelled_step]

/-! ### Texts -/

variable {g : Generator} {number : Int} {actions : List Action}

/-- A template is labelled, provided the actions of the clauses are. -/
theorem fillIn_labelled {text : Text} {r : Reading}
    {ofClauses : List Text → Trying GenerationError (List Action)}
    (hc : ∀ ts as, (ofClauses ts).result = .ok as → AllLabelled number as)
    (h : (g.fillIn number text r ofClauses).result = .ok actions) : AllLabelled number actions := by
  unfold fillIn at h
  split at h
  · rw [Trying.result_lift] at h
    cases h
    exact Expansion.expand_labelled _ _ _ _
  · cases h; exact navigation_labelled _ _ _
  · cases h; exact login_labelled _ _ _
  · cases h; exact form_labelled _ _
  · cases h; exact click_labelled _ _ _
  · cases h; exact verification_labelled _ _
  · exact wait_labelled h
  · exact hc _ _ h
  · cases h; exact AllLabelled.nil

theorem each_labelled {f : Text → Trying GenerationError (List Action)}
    (hf : ∀ t as, (f t).result = .ok as → AllLabelled number as) :
    ∀ (ts : List Text) (as : List Action), (each f ts).result = .ok as → AllLabelled number as
  | [], as, h => by cases h; exact AllLabelled.nil
  | t :: rest, as, h => by
    simp only [each, Trying.result_bind, bind_eq_ok_iff] at h
    obtain ⟨first, hfirst, others, hothers, hsum⟩ := h
    cases hsum
    exact AllLabelled.append_iff.mpr ⟨hf t first hfirst, each_labelled hf rest others hothers⟩

theorem generateWithin_labelled (left : Nat) :
    ∀ (depth : Int) (text : Text) (actions : List Action),
    (g.generateWithin number left depth text).result = .ok actions →
    AllLabelled number actions := by
  induction left with
  | zero =>
    intro depth text actions h
    rw [generateWithin, Trying.result_bind, bind_eq_ok_iff] at h
    obtain ⟨r, -, h⟩ := h
    exact fillIn_labelled (fun _ _ hs => by cases hs; exact AllLabelled.nil) h
  | succ left ih =>
    intro depth text actions h
    rw [generateWithin, Trying.result_bind, bind_eq_ok_iff] at h
    obtain ⟨r, -, h⟩ := h
    exact fillIn_labelled (each_labelled (ih (depth + 1))) h

theorem generate_labelled {depth : Int} {text : Text}
    (h : (g.generate number depth text).result = .ok actions) : AllLabelled number actions :=
  generateWithin_labelled _ depth text actions h

end Generator

end PlainSteps
