import PlainSteps.Proofs.Compilation.Passages
import PlainSteps.Proofs.Facts.Target
import PlainSteps.Proofs.Intent.Keywords

/-! # Rules that never decide

The shipped configuration knows the login button by the words for logging in, and the message about
invalid credentials and the login page by keywords of which one is such a word too. But a text with
one of these words is a login, or something that comes before that, so it is never read as a click
or a check, and these rules decide nothing. What they would lead to comes about in another way only,
from the template of a login or that of a row.
-/

namespace PlainSteps

open Pattern

/-! ### Logins -/

namespace Rule

variable {text : Text}

/-- A rule that fires leaves a text to itself or to one in front of it. -/
theorem intentOf_of_fires {first later : List Rule} (htable : table = first ++ later) {rule : Rule}
    (hrule : rule ∈ first) (h : rule.fires text = true) :
    ∃ r ∈ first, intentOf text = r.intent := by
  have hsome : (first.find? (·.fires text)).isSome := List.find?_isSome.mpr ⟨rule, hrule, h⟩
  obtain ⟨r, hr⟩ := Option.isSome_iff_exists.mp hsome
  exact ⟨r, List.mem_of_find?_eq_some hr, intentOf_of_find (find?_of_append htable hr)⟩

/-- The words that set a login off. -/
def loginWords : List String :=
  ["login", "log in", "sign in", "authenticate", "credentials", "credential"]

/-- The intents of a login and of what comes before it. -/
def throughLogin : List Intent := [.dataDrivenTest, .navigate, .login]

theorem intentOf_of_login (h : login.fires text = true) : intentOf text ∈ throughLogin := by
  have htable : table = [dataDriven, navigate, login] ++
    [fillForm, click, verify, wait, compound, other] := rfl
  have hmem : login ∈ [dataDriven, navigate, login] := .tail _ (.tail _ (.head _))
  obtain ⟨r, hr, hintent⟩ := intentOf_of_fires htable hmem h
  rw [hintent]
  exact List.mem_map_of_mem (f := Rule.intent) hr

/-- A rule of the configuration that has a word of a login among its keywords. -/
def NeedsLogin (rule : KeywordRule) : Prop := ∃ w ∈ loginWords, w.toList ∈ rule.keywords

instance (rule : KeywordRule) : Decidable (NeedsLogin rule) :=
  inferInstanceAs (Decidable (∃ w ∈ loginWords, _))

theorem NeedsLogin.login_fires {rule : KeywordRule} (hneeds : NeedsLogin rule)
    (h : rule.fires text = true) :
    login.fires text = true := by
  obtain ⟨w, hw, hkeyword⟩ := hneeds
  have hmentions : mentions loginWords text = true :=
    mentions_of_hasKeyword hw (List.all_eq_true.mp h _ hkeyword)
  exact hmentions

/-- The quoted message about invalid credentials has a word of a login in it. -/
theorem login_fires_of_quoted {before after : Text}
    (h : text = before ++ '"' :: ("Invalid credentials".toList ++ '"' :: after)) :
    login.fires text = true := by
  have hcut : CutFrom "credentials" text := by
    refine ⟨before ++ "\"Invalid ".toList, '"' :: after, ?_, ?_, ?_⟩
    · rw [h, List.append_assoc]
      rfl
    · have hspace : "\"Invalid ".toList.getLast? = some ' ' := by decide
      have houtside : Text.isWord ' ' = false := by decide
      rw [List.getLast?_append, hspace]
      exact houtside
    · have houtside : Text.isWord '"' = false := by decide
      exact houtside
  exact fires_of_cutFrom (by simp [keyed]) hcut (by decide +kernel)

end Rule

/-! ### Shipped rules -/

namespace Facts

variable {config : Config} {text : Text}

theorem needsLogin_of_clickTargets : ∀ rule ∈ Config.Shipped.clickTargets,
    rule.element = "login button" → Rule.NeedsLogin rule := by
  decide +kernel

theorem needsLogin_of_verificationTargets : ∀ rule ∈ Config.Shipped.verificationTargets,
    rule.element = "login page" ∨ rule.condition = "contains:Invalid credentials" →
    Rule.NeedsLogin rule := by
  decide +kernel

/-- A text whose click is on the login button is a login. -/
theorem login_fires_of_clickTarget (hclick : config.clickTargets = Config.Shipped.clickTargets)
    (h : clickTarget config text = "login button") : Rule.login.fires text = true := by
  rcases clickTarget_eq config text with ⟨rule, hrule, hfires, htarget⟩ | hdefault
  · rw [hclick] at hrule
    exact (needsLogin_of_clickTargets rule hrule (htarget.symm.trans h)).login_fires hfires
  · rw [hdefault] at h
    exact absurd h (by decide)

/-- A text whose check is one of a login page or of invalid credentials is a login. -/
theorem login_fires_of_verification
    (hverify : config.verificationTargets = Config.Shipped.verificationTargets)
    (h : (verification config text).element = "login page" ∨
      (verification config text).condition = "contains:Invalid credentials") :
        Rule.login.fires text = true := by
  obtain ⟨helement, hcondition⟩ := verification_eq config text
  have hruled : (ruledCheck config text).element = "login page" ∨
      (ruledCheck config text).condition = "contains:Invalid credentials" →
      Rule.login.fires text = true := by
    intro h
    rcases ruledCheck_eq config text with ⟨rule, hrule, hfires, hcheck⟩ | hdefault
    · rw [hverify] at hrule
      rw [hcheck] at h
      exact (needsLogin_of_verificationTargets rule hrule h).login_fires hfires
    · rw [hdefault] at h
      exact absurd h (by decide)
  rcases h with h | h
  · exact hruled (.inl (helement.symm.trans h))
  · rcases hcondition with hsame | hhidden | ⟨before, quoted, after, hparts, -, hquoted⟩
    · exact hruled (.inr (hsame.symm.trans h))
    · rw [hhidden] at h
      exact absurd h (by decide)
    · obtain rfl : quoted = "Invalid credentials".toList := by
        have hmessage : "contains:".toList ++ quoted = "contains:".toList ++
            "Invalid credentials".toList :=
          hquoted.symm.trans h
        exact List.append_cancel_left hmessage
      exact Rule.login_fires_of_quoted hparts

/-- What is read as a click is no login, so it is not on the login button. -/
theorem clickTarget_ne (hclick : config.clickTargets = Config.Shipped.clickTargets)
    (hintent : Rule.intentOf text = .clickElement) : clickTarget config text ≠ "login button" := by
  intro htarget
  have hearlier := Rule.intentOf_of_login (login_fires_of_clickTarget hclick htarget)
  rw [hintent] at hearlier
  exact absurd hearlier (by decide)

/-- What is read as a check is no login, so it is not one of a login page or of invalid
credentials. -/
theorem verification_ne (hverify : config.verificationTargets = Config.Shipped.verificationTargets)
    (hintent : Rule.intentOf text = .verifyElement) :
    (verification config text).element ≠ "login page" ∧
      (verification config text).condition ≠ "contains:Invalid credentials" := by
  refine not_or.mp fun hcheck => ?_
  have hearlier := Rule.intentOf_of_login (login_fires_of_verification hverify hcheck)
  rw [hintent] at hearlier
  exact absurd hearlier (by decide)

end Facts

/-! ### Origins -/

variable {config : Config} {part before after : List Action} {a : Action}

/-- Where a click or a check comes from. -/
theorem Passage.origin (h : Passage config part) (ha : a ∈ part)
    (hkind : a.kind = .click ∨ a.kind = .assert) :
    (∃ text, Rule.intentOf text = .clickElement ∧ a.kind = .click ∧
      a.target = some (Facts.clickTarget config text)) ∨
    (∃ text, Rule.intentOf text = .verifyElement ∧ a.kind = .assert ∧
      a.target = some (Facts.verification config text).element ∧
      a.condition = some (Facts.verification config text).condition) ∨
    (a.kind = .click ∧ ∃ number f, part = Generator.login config number f) ∨
    ∃ number position row logout, 1 ≤ position ∧
      part = Expansion.rowActions config row (Expansion.rowLabel number position) logout := by
  -- the other passages neither click nor check
  cases h with
  | opening =>
    obtain rfl := List.mem_singleton.mp ha
    nomatch hkind
  | unclassified index =>
    obtain rfl := List.mem_singleton.mp ha
    nomatch hkind
  | navigation number f =>
    obtain rfl := List.mem_singleton.mp ha
    nomatch hkind
  | login number f =>
    refine .inr (.inr (.inl ⟨?_, number, f, rfl⟩))
    unfold Generator.login at ha
    split at ha
    simp only [List.mem_cons, List.not_mem_nil, or_false] at ha
    rcases ha with rfl | rfl | rfl | rfl
    case inr.inr.inl => rfl
    all_goals nomatch hkind
  | @form text f number facts =>
    obtain ⟨⟨element, value, label⟩, -, rfl⟩ := List.mem_map.mp ha
    nomatch hkind
  | @click text f number intent facts =>
    cases facts
    rcases List.mem_cons.mp ha with rfl | ha
    · exact .inl ⟨text, intent, rfl, rfl⟩
    · split at ha
      · obtain rfl := List.mem_singleton.mp ha
        nomatch hkind
      · cases ha
  | @verification text f number intent facts =>
    cases facts
    obtain rfl := List.mem_singleton.mp ha
    exact .inr (.inl ⟨text, intent, rfl, rfl, rfl⟩)
  | wait number facts =>
    obtain rfl := List.mem_singleton.mp ha
    nomatch hkind
  | @row number position counted row logout =>
    exact .inr (.inr (.inr ⟨number, position, row, logout, counted, rfl⟩))
  | pause number position =>
    obtain rfl := List.mem_singleton.mp ha
    nomatch hkind

namespace Expansion

variable {row : Row} {label : Text} {logout : Bool}

/-- The actions for a row all name its place, and check nothing but the dashboard and the message
about an error. -/
theorem mem_rowActions (ha : a ∈ rowActions config row label logout) :
    "Step ".toList ++ label ++ ": ".toList <+: a.description ∧
      (a.kind = .assert → a.target = some "dashboard page" ∨ a.target = some "error message") := by
  have hplace : ∀ what, "Step ".toList ++ label ++ ": ".toList <+: step label what :=
    List.prefix_append _
  rcases List.mem_append.mp ha with hlogin | houtcome
  · simp only [List.mem_cons, List.not_mem_nil, or_false] at hlogin
    rcases hlogin with rfl | rfl | rfl | rfl | rfl
    all_goals exact ⟨hplace _, nofun⟩
  · unfold outcome at houtcome
    split at houtcome
    · rcases List.mem_cons.mp houtcome with rfl | hafter
      · exact ⟨hplace _, fun _ => .inl rfl⟩
      · split at hafter
        · simp only [List.mem_cons, List.not_mem_nil, or_false] at hafter
          rcases hafter with rfl | rfl | rfl
          all_goals exact ⟨hplace _, nofun⟩
        · cases hafter
    · split at houtcome
      · obtain rfl := List.mem_singleton.mp houtcome
        exact ⟨hplace _, fun _ => .inr rfl⟩
      · cases houtcome

end Expansion

/-! ### Prompts -/

/-- Whether an action, as it stands between others, is part of the login of a row, and named for
it. -/
def InRow (config : Config) (before : List Action) (a : Action) (after : List Action) : Prop :=
  ∃ number position row logout, 1 ≤ position ∧
    StandsIn (Expansion.rowActions config row (Expansion.rowLabel number position) logout) before a
      after ∧
    "Step ".toList ++ Expansion.rowLabel number position ++ ": ".toList <+: a.description

/-- Whether an action, as it stands between others, is part of a login. -/
def InLogin (config : Config) (before : List Action) (a : Action) (after : List Action) : Prop :=
  ∃ number f, StandsIn (Generator.login config number f) before a after

namespace Compiler

variable {c : Compiler}

section Origins

variable {text : Text} {s : Sequence} (h : (c.compile text).result = .ok s)
  (hactions : s.actions = before ++ a :: after)

include h hactions

/-- A check in a sequence is one that a text asks for, or it comes from a row. -/
theorem assert_origin (hkind : a.kind = .assert) :
    (∃ text, Rule.intentOf text = .verifyElement ∧
      a.target = some (Facts.verification c.config text).element ∧
      a.condition = some (Facts.verification c.config text).condition) ∨
    InRow c.config before a after ∧
      (a.target = some "dashboard page" ∨ a.target = some "error message") := by
  obtain ⟨part, hpart, hstands⟩ := (hactions ▸ compile_passages h).exists_passage
  rcases hpart.origin hstands.mem (.inr hkind) with ⟨_, -, hother, -⟩ |
    ⟨text, hintent, -, hcheck⟩ | ⟨hother, -⟩ | ⟨number, position, row, logout, hcounted, rfl⟩
  · rw [hkind] at hother
    cases hother
  · exact .inl ⟨text, hintent, hcheck⟩
  · rw [hkind] at hother
    cases hother
  · obtain ⟨hplace, htarget⟩ := Expansion.mem_rowActions hstands.mem
    exact .inr ⟨⟨number, position, row, logout, hcounted, hstands, hplace⟩, htarget hkind⟩

/-- A click in a sequence is one that a text asks for, or it comes from a login or a row. -/
theorem click_origin (hkind : a.kind = .click) :
    (∃ text, Rule.intentOf text = .clickElement ∧
      a.target = some (Facts.clickTarget c.config text)) ∨
    InLogin c.config before a after ∨ InRow c.config before a after := by
  obtain ⟨part, hpart, hstands⟩ := (hactions ▸ compile_passages h).exists_passage
  rcases hpart.origin hstands.mem (.inl hkind) with ⟨text, hintent, -, htarget⟩ |
    ⟨_, -, hother, -⟩ | ⟨-, number, f, rfl⟩ | ⟨number, position, row, logout, hcounted, rfl⟩
  · exact .inl ⟨text, hintent, htarget⟩
  · rw [hkind] at hother
    cases hother
  · exact .inr (.inl ⟨number, f, hstands⟩)
  · exact .inr (.inr ⟨number, position, row, logout, hcounted, hstands,
      (Expansion.mem_rowActions hstands.mem).1⟩)

end Origins

/-- **Some rules of the shipped configuration never decide.** A text on which a rule for the login
button fires, or one for the login page or for the message about invalid credentials, has the intent
of a login or one that comes before that. So nothing is checked on the login page, the message is
checked in the login of a row only, and the login button is clicked in a login or that of a row. -/
theorem shipped_rules_shadowed (c : Compiler)
    (hclick : c.config.clickTargets = Config.Shipped.clickTargets)
    (hverify : c.config.verificationTargets = Config.Shipped.verificationTargets) :
    (∀ text, ∀ rule ∈ c.config.clickTargets, rule.element = "login button" →
      rule.fires text = true →
      Rule.intentOf text ∈ Rule.throughLogin) ∧
    (∀ text, ∀ rule ∈ c.config.verificationTargets,
      rule.element = "login page" ∨ rule.condition = "contains:Invalid credentials" →
      rule.fires text = true →
        Rule.intentOf text ∈ Rule.throughLogin) ∧
    ∀ text s, (c.compile text).result = .ok s →
      ∀ (before : List Action) (a : Action) (after : List Action),
        s.actions = before ++ a :: after →
      (a.kind = .assert → a.target ≠ some "login page") ∧
      (a.kind = .assert → a.condition = some "contains:Invalid credentials" →
        InRow c.config before a after) ∧
      (a.kind = .click → a.target = some "login button" →
        InLogin c.config before a after ∨ InRow c.config before a after) := by
  refine ⟨?_, ?_, ?_⟩
  · intro text rule hrule helement hfires
    rw [hclick] at hrule
    exact Rule.intentOf_of_login
      ((Facts.needsLogin_of_clickTargets rule hrule helement).login_fires hfires)
  · intro text rule hrule hcheck hfires
    rw [hverify] at hrule
    exact Rule.intentOf_of_login
      ((Facts.needsLogin_of_verificationTargets rule hrule hcheck).login_fires hfires)
  · intro text s h before a after hactions
    refine ⟨fun hkind htarget => ?_, fun hkind hcondition => ?_, fun hkind htarget => ?_⟩
    · rcases assert_origin h hactions hkind with ⟨_, hintent, helement, -⟩ | ⟨-, hrow⟩
      · exact (Facts.verification_ne hverify hintent).1
          (Option.some.inj (helement.symm.trans htarget))
      · rw [htarget] at hrow
        exact absurd hrow (by decide)
    · rcases assert_origin h hactions hkind with ⟨_, hintent, -, hcheck⟩ | ⟨hrow, -⟩
      · exact absurd (Option.some.inj (hcheck.symm.trans hcondition))
          (Facts.verification_ne hverify hintent).2
      · exact hrow
    · rcases click_origin h hactions hkind with ⟨_, hintent, helement⟩ | helsewhere
      · exact absurd (Option.some.inj (helement.symm.trans htarget))
          (Facts.clickTarget_ne hclick hintent)
      · exact helsewhere

/-- The message about invalid credentials is checked in the login of the row that expects it, and a
text that speaks of the login page is a login. -/
theorem shipped_rules_shadowed_guest :
    Rule.intentOf "Verify the login page" ∈ Rule.throughLogin ∧
      ∃ before a,
        (ofShipped.compile
          "- username: guest, password: guest, expected: Invalid credentials").result =
          .ok ⟨before ++ [a]⟩ ∧
        a.condition = some "contains:Invalid credentials".toList ∧
          InRow Config.shipped before a [] := by
  obtain ⟨-, hpage, hsequence⟩ := shipped_rules_shadowed ofShipped rfl rfl
  have hcompiled :
    (ofShipped.compile "- username: guest, password: guest, expected: Invalid credentials").result =
      .ok ⟨Expansion.rowActions Config.shipped
        (Row.ofTriple "guest" "guest" "Invalid credentials") "1.1" false⟩ :=
    eq_ok_of_toOption (by decide +kernel)
  refine ⟨hpage _ (checking ["login", "page"] "login page" "visible" "login page is displayed")
    (by decide)
    (.inl rfl) (by decide +kernel), _, _, hcompiled, rfl, ?_⟩
  exact (hsequence _ _ hcompiled _ _ [] rfl).2.1 rfl rfl

end Compiler

end PlainSteps
