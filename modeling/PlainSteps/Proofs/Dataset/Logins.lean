import PlainSteps.Proofs.Compilation.InlineRows
import PlainSteps.Proofs.Text.Lower

/-! # One login for each row

A data-driven step runs the rows of its dataset, or one login with the default credentials if there
are none. What the actions for one row do is said by `IsLogin`, and `LogsIn` is the course of a
whole step: the logins of its rows one after the other, with a pause between two of them. The
actions of a step are such a course (`actionsOf_logsIn`), and what all of them go to, fill in and
click is read off it by induction.
-/

namespace PlainSteps

namespace Action

/-- Where an action goes to, if it goes anywhere. -/
def goesTo? (a : Action) : Option (Option Text) :=
  if a.kind = .navigate then some a.target else none

/-- The element that an action fills in and the value, if it fills one in. -/
def fills? (a : Action) : Option (Option Text × Option Text) :=
  if a.kind = .fill then some (a.target, a.value) else none

/-- What an action clicks, if it clicks. -/
def clicks? (a : Action) : Option (Option Text) := if a.kind = .click then some a.target else none

/-- How long an action waits, if it waits. -/
def waits? (a : Action) : Option (Option Int) := if a.kind = .wait then some a.timeout else none

/-- What an action checks, if it checks. -/
def checks? (a : Action) : Option (Option Text) := if a.kind = .assert then some a.target else none

end Action

namespace Expansion

open PlainSteps.Action

variable {config : Config} {number : Int} {logout : Bool} {row : Row}
  {label : Text} {position : Nat} {rows : List Row} {block actions : List Action}

/-- What a row fills in. -/
def credentialsOf (row : Row) : List (Option Text × Option Text) :=
  [(some "username input field", some row.username),
    (some "password input field", some row.password)]

/-- What a row is expected to lead to names a word, in whatever case. -/
def Expects (row : Row) (word : Text) : Prop := word <:+: Text.lower row.expected

/-- The actions for one row: a login, a check if the row says what to expect, and the way out if it
is asked for. -/
structure IsLogin (config : Config) (logout : Bool) (row : Row) (label : Text)
    (block : List Action) : Prop where
  labelled : ∀ a ∈ block, Under label a.description
  goes : block.filterMap goesTo? = [some config.baseUrl]
  fills : block.filterMap fills? = credentialsOf row
  clicks : ∃ left, block.filterMap clicks? = some "login button".toList :: left ∧
    some "login button".toList ∉ left ∧
    (left ≠ [] ↔ logout = true ∧ Expects row "dashboard")
  waits : some 1000 ∉ block.filterMap waits?
  leaves : some 2000 ∈ block.filterMap waits? ↔ logout = true ∧ Expects row "dashboard"
  checks : block.filterMap checks? ≠ [] ↔ Expects row "dashboard" ∨ Expects row "invalid" ∨
    Expects row "error"

/-- What follows the login of a row is decided by what the row expects. -/
theorem outcome_cases (row : Row) (label : Text) (logout : Bool) :
    Expects row "dashboard" ∧ outcome label (Text.lower row.expected) logout =
        .assert "dashboard page" "visible"
          (step label "Verify dashboard is displayed for valid credentials") ::
          (if logout then
            [.click "user dropdown menu" (step label "Click user dropdown menu"),
              .click "logout button" (step label "Click logout button"),
              .wait logoutWait (step label "Wait for logout to complete")]
          else []) ∨
      ¬ Expects row "dashboard" ∧ (Expects row "invalid" ∨ Expects row "error") ∧
        outcome label (Text.lower row.expected) logout =
          [.assert "error message" "contains:Invalid credentials"
          (step label "Verify error message for invalid credentials")] ∨
      ¬ Expects row "dashboard" ∧ ¬ Expects row "invalid" ∧ ¬ Expects row "error" ∧
        outcome label (Text.lower row.expected) logout = [] := by
  simp only [Expects, ← Text.includes_iff]
  unfold outcome
  by_cases hdashboard : Text.includes "dashboard" (Text.lower row.expected) = true
  · exact .inl ⟨hdashboard, by rw [if_pos hdashboard]⟩
  · rw [if_neg hdashboard]
    by_cases hfailure : (Text.includes "invalid" (Text.lower row.expected) ||
        Text.includes "error" (Text.lower row.expected)) = true
    · exact .inr (.inl ⟨hdashboard, by simpa using hfailure, if_pos hfailure⟩)
    · obtain ⟨hinvalid, herror⟩ := not_or.mp (mt (Bool.or_eq_true _ _).mpr hfailure)
      exact .inr (.inr ⟨hdashboard, hinvalid, herror, if_neg hfailure⟩)

/-- The actions for a row are a login. -/
theorem rowActions_isLogin (config : Config) (row : Row) (label : Text) (logout : Bool) :
    IsLogin config logout row label (rowActions config row label logout) := by
  have hunder := rowActions_under config row label logout
  unfold rowActions at hunder ⊢
  rcases outcome_cases row label logout with ⟨hdashboard, houtcome⟩ |
    ⟨hdashboard, hfailure, houtcome⟩ | ⟨hdashboard, hinvalid, herror, houtcome⟩
  · rw [houtcome] at hunder ⊢
    cases logout with
    | true =>
      exact
        { labelled := hunder
          goes := rfl
          fills := rfl
          clicks :=
            ⟨[some "user dropdown menu".toList, some "logout button".toList], rfl,
              by decide, iff_of_true (List.cons_ne_nil _ _) ⟨rfl, hdashboard⟩⟩
          waits := (by decide : some 1000 ∉ [some loginWait, some logoutWait])
          leaves :=
            iff_of_true (List.mem_cons_of_mem _ (List.mem_singleton_self _)) ⟨rfl, hdashboard⟩
          checks := iff_of_true (List.cons_ne_nil _ _) (.inl hdashboard) }
    | false =>
      exact
        { labelled := hunder
          goes := rfl
          fills := rfl
          clicks := ⟨[], rfl, List.not_mem_nil, iff_of_false (· rfl) (Bool.false_ne_true ·.1)⟩
          waits := (by decide : some 1000 ∉ [some loginWait])
          leaves := iff_of_false (by decide : some 2000 ∉ [some loginWait]) (Bool.false_ne_true ·.1)
          checks := iff_of_true (List.cons_ne_nil _ _) (.inl hdashboard) }
  · rw [houtcome] at hunder ⊢
    exact
      { labelled := hunder
        goes := rfl
        fills := rfl
        clicks := ⟨[], rfl, List.not_mem_nil, iff_of_false (· rfl) (hdashboard ·.2)⟩
        waits := (by decide : some 1000 ∉ [some loginWait])
        leaves := iff_of_false (by decide : some 2000 ∉ [some loginWait]) (hdashboard ·.2)
        checks := iff_of_true (List.cons_ne_nil _ _) (.inr hfailure) }
  · rw [houtcome] at hunder ⊢
    exact
      { labelled := hunder
        goes := rfl
        fills := rfl
        clicks := ⟨[], rfl, List.not_mem_nil, iff_of_false (· rfl) (hdashboard ·.2)⟩
        waits := (by decide : some 1000 ∉ [some loginWait])
        leaves := iff_of_false (by decide : some 2000 ∉ [some loginWait]) (hdashboard ·.2)
        checks := iff_of_false (· rfl) (not_or.mpr ⟨hdashboard, not_or.mpr ⟨hinvalid, herror⟩⟩) }

/-- The logins of rows under the numbers of their positions, with a pause between neighbours. -/
inductive LogsIn (config : Config) (number : Int) (logout : Bool) :
    Nat → List Row → List Action → Prop where
  | last {position : Nat} {row : Row} {block : List Action}
      (login : IsLogin config logout row (rowLabel number position) block) :
      LogsIn config number logout position [row] block
  | next {position : Nat} {row : Row} {rest : List Row} {block actions : List Action}
      (login : IsLogin config logout row (rowLabel number position) block)
      (others : LogsIn config number logout (position + 1) rest actions) :
      LogsIn config number logout position (row :: rest) (block ++ pause number position :: actions)

/-- **The actions for rows are their logins.** -/
theorem actionsOf_logsIn (config : Config) (number : Int) (logout : Bool) (position : Nat)
    (rows : List Row) (hrows : rows ≠ []) :
    LogsIn config number logout position rows (actionsOf config number logout position rows) := by
  induction rows generalizing position with
  | nil => exact absurd rfl hrows
  | cons row rest ih =>
    cases rest with
    | nil => exact .last (rowActions_isLogin config row _ logout)
    | cons next rest =>
      exact .next (rowActions_isLogin config row _ logout)
        (ih (position + 1) (List.cons_ne_nil _ _))

namespace LogsIn

theorem ne_nil (h : LogsIn config number logout position rows actions) : rows ≠ [] := by
  cases h <;> exact List.cons_ne_nil _ _

/-- What the pauses are no part of is collected row by row. -/
theorem filterMap {β : Type} {p : Action → Option β} {ofRow : Row → List β}
    (hblock : ∀ {row label block}, IsLogin config logout row label block →
      block.filterMap p = ofRow row)
    (hpause : ∀ position, p (pause number position) = none)
    (h : LogsIn config number logout position rows actions) :
    actions.filterMap p = rows.flatMap ofRow := by
  induction h with
  | last login => simp [hblock login]
  | next login others ih => simp [hblock login, hpause, ih]

/-- Every row goes to the login page once. -/
theorem goes (h : LogsIn config number logout position rows actions) :
    actions.filterMap goesTo? = List.replicate rows.length (some config.baseUrl) := by
  rw [h.filterMap IsLogin.goes fun _ => rfl, ← List.map_eq_flatMap, List.map_const']

/-- What is filled in are the names and passwords of the rows, in order. -/
theorem fills (h : LogsIn config number logout position rows actions) :
    actions.filterMap fills? = rows.flatMap credentialsOf :=
  h.filterMap IsLogin.fills fun _ => rfl

/-- Every row clicks the login button once. -/
theorem clicks (h : LogsIn config number logout position rows actions) :
    (actions.filterMap clicks?).count (some "login button".toList) = rows.length := by
  induction h with
  | last login =>
    obtain ⟨left, hclicks, hleft, -⟩ := login.clicks
    rw [hclicks, List.count_cons_self, List.count_eq_zero.mpr hleft]
    rfl
  | next login others ih =>
    obtain ⟨left, hclicks, hleft, -⟩ := login.clicks
    have hpause : ∀ position, clicks? (pause number position) = none := fun _ => rfl
    rw [List.filterMap_append, List.filterMap_cons_none (hpause _), List.count_append, ih, hclicks,
      List.count_cons_self, List.count_eq_zero.mpr hleft, List.length_cons]
    omega

/-- A second is waited between two rows, and nowhere else. -/
theorem waits (h : LogsIn config number logout position rows actions) :
    (actions.filterMap waits?).count (some 1000) = rows.length - 1 := by
  induction h with
  | last login => exact List.count_eq_zero.mpr login.waits
  | next login others ih =>
    have hpause : ∀ position, waits? (pause number position) = some (some 1000) := fun _ => rfl
    have hlength := List.length_pos_of_ne_nil others.ne_nil
    rw [List.filterMap_append, List.filterMap_cons_some (hpause _), List.count_append,
      List.count_cons_self, ih, List.count_eq_zero.mpr login.waits, List.length_cons]
    omega

theorem actions_ne_nil (h : LogsIn config number logout position rows actions) : actions ≠ [] := by
  rintro rfl
  exact h.ne_nil (by simpa using h.goes)

/-- No pause comes after the last row. -/
theorem ends (h : LogsIn config number logout position rows actions) :
    ∀ a ∈ actions.getLast?, waits? a ≠ some (some 1000) := by
  induction h with
  | last login =>
    exact fun a ha hwaits =>
      login.waits (List.mem_filterMap.mpr ⟨a, List.mem_of_getLast? ha, hwaits⟩)
  | next login others ih =>
    rw [List.getLast?_append_cons, List.getLast?_cons_of_ne_nil others.actions_ne_nil]
    exact ih

end LogsIn

/-- **A data-driven step logs in once for each row, in order.** Its rows are those of the dataset,
or the single row of the default credentials just when the dataset has none. The actions are the
logins of these rows under the numbers of their positions, with a pause between neighbours: so they
go to the login page, fill in the two credentials and click the login button once for each row, in
the order of the rows, and pause once less often than there are rows. -/
theorem expand_logins (config : Config) (source : DataSource) (text : Text) (number : Int) :
    let dataset := (Dataset.resolve source text).value
    let actions := (expand config source text number).value
    ∃ rows : List Row,
      (dataset.rows ≠ [] ∧ rows = dataset.rows ∨
        dataset.rows = [] ∧
        rows = [Row.ofTriple config.credentials.username config.credentials.password []]) ∧
      LogsIn config number (logoutWords.occursIn text) 1 rows actions ∧
      actions.filterMap goesTo? = List.replicate rows.length (some config.baseUrl) ∧
      actions.filterMap fills? = rows.flatMap credentialsOf ∧
      (actions.filterMap clicks?).count (some "login button".toList) = rows.length ∧
      (actions.filterMap waits?).count (some 1000) = rows.length - 1 ∧
      ∀ a ∈ actions.getLast?, waits? a ≠ some (some 1000) := by
  intro dataset actions
  have hactions : LogsIn config number (logoutWords.occursIn text) 1
      (usableRows config dataset) actions := by
    have hlogins := actionsOf_logsIn config number (logoutWords.occursIn text) 1 _
      (usableRows_ne_nil config dataset)
    rwa [← expand_value] at hlogins
  refine ⟨usableRows config dataset, ?_, hactions, hactions.goes, hactions.fills,
    hactions.clicks, hactions.waits, hactions.ends⟩
  unfold usableRows defaultRow
  cases hrows : dataset.rows with
  | nil => exact .inr ⟨rfl, rfl⟩
  | cons row rest => exact .inl ⟨List.cons_ne_nil _ _, rfl⟩

end Expansion

end PlainSteps
