import PlainSteps.Proofs.Compilation.Passages
import PlainSteps.Proofs.Facts.Target

/-! # The vocabulary of compiled actions

A configuration is closed if it declares every element that its own rules and the templates name.
Over such a configuration no text leads to an action that is malformed or that speaks of an unknown
element: each has just the fields of its kind, and acts on a declared element. The one name from
outside is the target of a click that no rule knows, which is looked for as a text. Each passage
keeps to this, by the facts of its text.
-/

namespace PlainSteps

/-! ### Closed configurations -/

namespace Config

/-- Whether an element is declared. -/
def Declares (config : Config) (element : Text) : Prop := element ∈ config.elements.map (·.1)

instance (config : Config) (element : Text) : Decidable (config.Declares element) :=
  inferInstanceAs (Decidable (_ ∈ _))

/-- A configuration that declares all elements that its rules name, and those that the templates
name by themselves. -/
structure Closed (config : Config) : Prop where
  formFields : ∀ field ∈ config.formFields, config.Declares field.2
  clickTargets : ∀ rule ∈ config.clickTargets, config.Declares rule.element
  verificationTargets : ∀ rule ∈ config.verificationTargets, config.Declares rule.element
  username : config.Declares "username input field"
  password : config.Declares "password input field"
  loginButton : config.Declares "login button"
  dashboard : config.Declares "dashboard page"
  error : config.Declares "error message"
  userMenu : config.Declares "user dropdown menu"
  logoutButton : config.Declares "logout button"
  content : config.Declares "page content"

theorem shipped_closed : shipped.Closed := by
  constructor
  all_goals decide

/-- The conditions that a check of an element may have. -/
inductive Admits (config : Config) (element : Text) : Text → Prop
  | ruled {rule : KeywordRule} (declared : rule ∈ config.verificationTargets)
      (names : rule.element = element) :
      Admits config element rule.condition
  | visible : Admits config element "visible"
  | hidden : Admits config element "hidden"
  | contains {t : Text} (nonempty : t ≠ []) : Admits config element ("contains:".toList ++ t)

end Config

/-! ### Well-formed actions -/

/-- Which of a target, a value, a condition and a timeout an action of a kind has. -/
def ActionKind.fields : ActionKind → Bool × Bool × Bool × Bool
  | .navigate => (true, false, false, false)
  | .fill => (true, true, false, false)
  | .click => (true, false, false, false)
  | .wait => (false, false, false, true)
  | .assert => (true, false, true, false)

/-- An action with just the fields of its kind, which waits for no negative time, acts on a declared
element and checks a condition that is admitted there. Only a click may be on an unknown element. -/
structure Action.WellFormed (config : Config) (a : Action) : Prop where
  fields : (a.target.isSome, a.value.isSome, a.condition.isSome, a.timeout.isSome) = a.kind.fields
  natural : ∀ ms ∈ a.timeout, 0 ≤ ms
  known : a.kind ≠ .navigate → ∀ element ∈ a.target,
    config.Declares element ∨ a.kind = .click ∧ element = Facts.defaultClickTarget
  admitted : ∀ element ∈ a.target, ∀ condition ∈ a.condition, config.Admits element condition

namespace Action.WellFormed

variable {config : Config} {element condition : Text} (description : Text)

theorem navigate (url : Text) : (Action.navigate url description).WellFormed config where
  fields := rfl
  natural := nofun
  known := fun h => absurd rfl h
  admitted := nofun

theorem fill (h : config.Declares element) (value : Text) :
    (Action.fill element value description).WellFormed config where
  fields := rfl
  natural := nofun
  known := by
    rintro - _ ⟨⟩
    exact .inl h
  admitted := nofun

theorem click (h : config.Declares element ∨ element = Facts.defaultClickTarget) :
    (Action.click element description).WellFormed config where
  fields := rfl
  natural := nofun
  known := by
    rintro - _ ⟨⟩
    exact h.imp_right fun hdefault => ⟨rfl, hdefault⟩
  admitted := nofun

theorem wait {ms : Int} (h : 0 ≤ ms) : (Action.wait ms description).WellFormed config where
  fields := rfl
  natural := by
    rintro _ ⟨⟩
    exact h
  known := nofun
  admitted := nofun

theorem assert (h : config.Declares element) (hcondition : config.Admits element condition) :
    (Action.assert element condition description).WellFormed config where
  fields := rfl
  natural := nofun
  known := by
    rintro - _ ⟨⟩
    exact .inl h
  admitted := by
    rintro _ ⟨⟩ _ ⟨⟩
    exact hcondition

end Action.WellFormed

/-! ### Passages -/

variable {config : Config} {actions : List Action}

/-- A check is about a declared element, and of a condition that is admitted there. -/
theorem Facts.verification_admitted (hclosed : config.Closed) (text : Text) :
    config.Declares (verification config text).element ∧
      config.Admits (verification config text).element (verification config text).condition := by
  obtain ⟨helement, hcondition⟩ := verification_eq config text
  have hruled : config.Declares (ruledCheck config text).element ∧
      config.Admits (ruledCheck config text).element (ruledCheck config text).condition := by
    rcases ruledCheck_eq config text with ⟨rule, hrule, -, hcheck⟩ | hdefault
    · rw [hcheck]
      exact ⟨hclosed.verificationTargets rule hrule, .ruled hrule rfl⟩
    · rw [hdefault]
      exact ⟨hclosed.content, .visible⟩
  rw [helement]
  refine ⟨hruled.1, ?_⟩
  rcases hcondition with hsame | hhidden | ⟨-, quoted, -, -, hnonempty, hquoted⟩
  · rw [hsame]
    exact hruled.2
  · rw [hhidden]
    exact .hidden
  · rw [hquoted]
    exact .contains hnonempty

theorem Expansion.outcome_wellFormed (hclosed : config.Closed) (label expected : Text)
    (logout : Bool) :
    ∀ a ∈ outcome label expected logout, a.WellFormed config := by
  unfold outcome
  split
  · refine List.forall_mem_cons.mpr ⟨.assert _ hclosed.dashboard .visible, ?_⟩
    split
    · simp only [List.forall_mem_cons]
      exact ⟨.click _ (.inl hclosed.userMenu), .click _ (.inl hclosed.logoutButton),
        .wait _ (by decide), nofun⟩
    · exact nofun
  · split
    · have hnonempty : "Invalid credentials".toList ≠ [] := by decide
      exact List.forall_mem_singleton.mpr (.assert _ hclosed.error (.contains hnonempty))
    · exact nofun

/-- The actions of a passage are well-formed over a closed configuration. -/
theorem Passage.wellFormed (hclosed : config.Closed) (h : Passage config actions) :
    ∀ a ∈ actions, a.WellFormed config := by
  cases h with
  | opening => exact List.forall_mem_singleton.mpr (.navigate _ _)
  | unclassified index => exact List.forall_mem_singleton.mpr (.wait _ (by decide))
  | navigation number f => exact List.forall_mem_singleton.mpr (.navigate _ _)
  | login number f =>
    unfold Generator.login
    split
    simp only [List.forall_mem_cons]
    exact ⟨.fill _ hclosed.username _, .fill _ hclosed.password _,
      .click _ (.inl hclosed.loginButton), .wait _ (by decide), nofun⟩
  | @form text f number facts =>
    cases facts
    intro a ha
    obtain ⟨⟨element, value, label⟩, hmem, rfl⟩ := List.mem_map.mp ha
    obtain ⟨field, hfield, rfl⟩ := List.mem_map.mp (List.of_mem_zip hmem).1
    obtain ⟨label, hlabel⟩ := Facts.element_of_mem_formFields hfield
    exact .fill _ (hclosed.formFields _ hlabel) _
  | @click text f number intent facts =>
    cases facts
    -- the element of a rule is declared, as the configuration is closed
    have hknown : config.Declares (Facts.clickTarget config text) ∨
        Facts.clickTarget config text = Facts.defaultClickTarget := by
      rcases Facts.clickTarget_eq config text with ⟨rule, hrule, -, htarget⟩ | hdefault
      · exact .inl (htarget ▸ hclosed.clickTargets rule hrule)
      · exact .inr hdefault
    refine List.forall_mem_cons.mpr ⟨.click _ hknown, ?_⟩
    split
    · exact List.forall_mem_singleton.mpr (.wait _ (by decide))
    · exact nofun
  | @verification text f number intent facts =>
    cases facts
    obtain ⟨hknown, hadmitted⟩ := Facts.verification_admitted hclosed text
    exact List.forall_mem_singleton.mpr (.assert _ hknown hadmitted)
  | wait number facts =>
    obtain ⟨n, rfl, -⟩ := Facts.exists_natCast_of_wait facts
    exact List.forall_mem_singleton.mpr (.wait _ (Int.natCast_nonneg n))
  | row number counted row logout =>
    unfold Expansion.rowActions
    refine List.forall_mem_append.mpr ⟨?_, Expansion.outcome_wellFormed hclosed _ _ _⟩
    simp only [List.forall_mem_cons]
    exact ⟨.navigate _ _, .fill _ hclosed.username _, .fill _ hclosed.password _,
      .click _ (.inl hclosed.loginButton), .wait _ (by decide), nofun⟩
  | pause number position => exact List.forall_mem_singleton.mpr (.wait _ (by decide))

/-- **No text leaves the vocabulary.** The shipped configuration is closed; and whatever a prompt
says and the data files hold, over a closed configuration every action of its sequence is
well-formed. -/
theorem Compiler.compile_wellFormed :
    Config.shipped.Closed ∧
      ∀ (c : Compiler) (text : Text) (s : Sequence), c.config.Closed →
      (c.compile text).result = .ok s →
        ∀ a ∈ s.actions, a.WellFormed c.config := by
  refine ⟨Config.shipped_closed, fun c text s hclosed h a ha => ?_⟩
  obtain ⟨parts, hactions, hparts⟩ := compile_passages h
  rw [hactions] at ha
  obtain ⟨part, hpart, hmem⟩ := List.mem_flatten.mp ha
  exact (hparts part hpart).wellFormed hclosed a hmem

/-- A click on something unknown and a check of a quoted text stay in the vocabulary of the shipped
configuration. -/
theorem Compiler.compile_wellFormed_quoted :
    ∃ s,
      (ofShipped.compile "1. Click the blue bird\n2. Verify \"42 birds\" on the dashboard").result =
        .ok s ∧
      s.actions.map (·.target) = [some "clickable element".toList, some "dashboard page".toList] ∧
      s.actions.map (·.condition) = [none, some "contains:42 birds".toList] ∧
      ∀ a ∈ s.actions, a.WellFormed Config.shipped := by
  have hcompiled :
    (ofShipped.compile "1. Click the blue bird\n2. Verify \"42 birds\" on the dashboard").result =
      .ok ⟨[Action.click "clickable element" "Step 1: Click clickable element",
        Action.assert "dashboard page" "contains:42 birds"
          "Step 2: Verify dashboard page contains \"42 birds\""]⟩ :=
    eq_ok_of_toOption (by decide +kernel)
  exact ⟨_, hcompiled, rfl, rfl, compile_wellFormed.2 ofShipped _ _ compile_wellFormed.1 hcompiled⟩

end PlainSteps
