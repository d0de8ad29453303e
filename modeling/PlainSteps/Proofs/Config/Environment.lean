import PlainSteps.Proofs.Config.Cache
import PlainSteps.Proofs.Config.Loading
import PlainSteps.Proofs.Json.Printing
import PlainSteps.Proofs.Json.Completeness

/-! # The environment over a valid configuration

The environment is laid over the raw members of a file, before they are checked, and it rewrites the
credentials and the data directory whether or not a variable is set. What keeps this from showing is
that a configuration is read field by field, each from the member of its own name
(`ofJson_eq_pass_iff`): the members that the environment does not name are found as before, and
those that it does name hold what the checks of their fields ask for.
-/

namespace PlainSteps

/-! ### Readings that pass -/

namespace Checked

variable {α β γ : Type}

theorem both_eq_pass_iff {f : α → β → γ} {x : Checked α} {y : Checked β} {c : γ} :
    both f x y = pass c ↔ ∃ a b, x = pass a ∧ y = pass b ∧ f a b = c := by
  cases x <;> cases y <;> simp [both]

theorem seq_eq_pass_iff {x : Checked (α → β)} {y : Checked α} {b : β} :
    x <*> y = pass b ↔ ∃ f a, x = pass f ∧ y = pass a ∧ f a = b := both_eq_pass_iff

theorem map_eq_pass_iff {f : α → β} {x : Checked α} {b : β} :
    f <$> x = pass b ↔ ∃ a, x = pass a ∧ f a = b := by
  show map f x = pass b ↔ _
  cases x <;> simp [map]

theorem below_eq_pass_iff {place : Place} {x : Checked α} {a : α} :
    x.below place = pass a ↔ x = pass a := by
  cases x <;> simp [below]

end Checked

namespace Schema

variable {α : Type} {name : Text} {default a : α} {read : Json → Checked α} {ms ms' : Json.Members}

theorem field_eq_pass_iff :
    field name read ms = .pass a ↔ ∃ x, Json.lookup? name ms = some x ∧ read x = .pass a := by
  unfold field
  cases Json.lookup? name ms <;> simp [Checked.below_eq_pass_iff]

theorem fieldOr_eq_pass_iff : fieldOr name default read ms = .pass a ↔
    (Json.lookup? name ms = none ∧ default = a) ∨ ∃ x, Json.lookup? name ms = some x ∧
    read x = .pass a := by
  unfold fieldOr
  cases Json.lookup? name ms <;> simp [Checked.below_eq_pass_iff]

theorem text_eq_pass_iff {x : Json} {t : Text} : text x = .pass t ↔ x = .str t := by
  cases x <;> simp [text, Checked.wrong]

/-- A field depends on the member of its own name. -/
theorem field_congr (h : Json.lookup? name ms' = Json.lookup? name ms) :
    field name read ms' = field name read ms := by
  unfold field
  rw [h]

theorem fieldOr_congr (h : Json.lookup? name ms' = Json.lookup? name ms) :
    fieldOr name default read ms' = fieldOr name default read ms := by
  unfold fieldOr
  rw [h]

end Schema

open Schema

/-- Members that give credentials. -/
structure Credentials.ReadFrom (ms : Json.Members) (c : Credentials) : Prop where
  username : fieldOr "username" [] text ms = .pass c.username
  password : fieldOr "password" [] text ms = .pass c.password

theorem Credentials.ofJson_eq_pass_iff {ms : Json.Members} {c : Credentials} :
    Credentials.ofJson (.obj ms) = .pass c ↔ c.ReadFrom ms := by
  show Credentials.mk <$> fieldOr "username" [] text ms <*> fieldOr "password" [] text ms = _ ↔ _
  simp only [Checked.seq_eq_pass_iff, Checked.map_eq_pass_iff]
  constructor
  · rintro ⟨_, password, ⟨username, husername, rfl⟩, hpassword, rfl⟩
    exact ⟨husername, hpassword⟩
  · rintro ⟨husername, hpassword⟩
    exact ⟨_, _, ⟨_, husername, rfl⟩, hpassword, rfl⟩

/-- Only an object gives credentials. -/
theorem Credentials.obj_of_ofJson {x : Json} {c : Credentials}
    (h : Credentials.ofJson x = .pass c) :
    ∃ ms, x = .obj ms := by
  cases x with
  | obj ms => exact ⟨ms, rfl⟩
  | null | bool b | int i | float y | str t | arr xs => cases h

/-- Members that give a configuration, each field from the member of its own name. -/
structure Config.ReadFrom (ms : Json.Members) (c : Config) : Prop where
  name : field "name" text ms = .pass c.name
  version : fieldOr "version" "1.0".toList text ms = .pass c.version
  description : fieldOr "description" [] text ms = .pass c.description
  baseUrl : field "base_url" text ms = .pass c.baseUrl
  credentials : fieldOr "default_credentials" {} Credentials.ofJson ms = .pass c.credentials
  elements : fieldOr "elements" [] (dictionary (tuple Strategy.ofJson)) ms = .pass c.elements
  formFields : fieldOr "form_fields" [] (dictionary text) ms = .pass c.formFields
  clickTargets : fieldOr "click_targets" [] (tuple KeywordRule.ofJson) ms = .pass c.clickTargets
  verificationTargets :
    fieldOr "verification_targets" [] (tuple KeywordRule.ofJson) ms = .pass c.verificationTargets
  navigationElements : fieldOr "navigation_elements" [] (tuple text) ms = .pass c.navigationElements
  dataDir : fieldOr "data_dir" "test-data".toList text ms = .pass c.dataDir
  browsers : fieldOr "browsers" ["chromium".toList] (tuple text) ms = .pass c.browsers
  headless : fieldOr "headless" true switch ms = .pass c.headless
  strategyTimeout : fieldOr "strategy_timeout_ms" 2000 whole ms = .pass c.strategyTimeout

theorem Config.ofJson_eq_pass_iff {ms : Json.Members} {c : Config} :
    Config.ofJson (.obj ms) = .pass c ↔ c.ReadFrom ms := by
  unfold Config.ofJson record
  simp only [Checked.seq_eq_pass_iff, Checked.map_eq_pass_iff]
  constructor
  · rintro ⟨_, _, ⟨_, _, ⟨_, _, ⟨_, _, ⟨_, _, ⟨_, _, ⟨_, _, ⟨_, _, ⟨_, _, ⟨_, _, ⟨_, _, ⟨_, _,
      ⟨_, _, ⟨_, name, rfl⟩, version, rfl⟩, description, rfl⟩, baseUrl, rfl⟩, credentials, rfl⟩,
      elements, rfl⟩, formFields, rfl⟩, clickTargets, rfl⟩, verificationTargets, rfl⟩,
      navigationElements, rfl⟩, dataDir, rfl⟩, browsers, rfl⟩, headless, rfl⟩, strategyTimeout, rfl⟩
    exact ⟨name, version, description, baseUrl, credentials, elements, formFields, clickTargets,
      verificationTargets, navigationElements, dataDir, browsers, headless, strategyTimeout⟩
  · intro h
    exact ⟨_, _, ⟨_, _, ⟨_, _, ⟨_, _, ⟨_, _, ⟨_, _, ⟨_, _, ⟨_, _, ⟨_, _, ⟨_, _, ⟨_, _, ⟨_, _,
      ⟨_, _, ⟨_, h.name, rfl⟩, h.version, rfl⟩, h.description, rfl⟩, h.baseUrl, rfl⟩,
      h.credentials, rfl⟩, h.elements, rfl⟩, h.formFields, rfl⟩, h.clickTargets, rfl⟩,
      h.verificationTargets, rfl⟩, h.navigationElements, rfl⟩, h.dataDir, rfl⟩, h.browsers, rfl⟩,
      h.headless, rfl⟩, h.strategyTimeout, rfl⟩

/-! ### Members that a variable replaces -/

namespace Loading

section Members

variable {name : Text} {value : Option Text} {ms ms' : Json.Members} {t : Text}

/-- A text that a variable replaces is read as the variable, or else as before. -/
theorem field_override (h : field name text ms = .pass t) :
    field name text (override name value ms) = .pass (value.getD t) := by
  cases value with
  | none => exact h
  | some v => exact field_eq_pass_iff.mpr ⟨.str v, Json.lookup?_put_self _ _ _, rfl⟩

theorem fieldOr_override {default : Text} (h : fieldOr name default text ms = .pass t) :
    fieldOr name default text (override name value ms) = .pass (value.getD t) := by
  cases value with
  | none => exact h
  | some v => exact fieldOr_eq_pass_iff.mpr (.inr ⟨.str v, Json.lookup?_put_self _ _ _, rfl⟩)

end Members

/-! ### What a variable does to a configuration -/

/-- The data directory that is meant: the one given, or else the default, below the project when it
is relative. -/
def Setting.dataDirOf (s : Setting) (given : Text) : Text :=
  let path := if given.isEmpty then defaultDataDir else given
  if Path.isAbsolute path then path else Path.join s.project path

/-- The members that laying the environment over a file writes. -/
def overlaidNames : List Text := ["base_url", "default_credentials", "data_dir"]

/-- A configuration with the environment laid over it: each variable that is set stands in for its
own field, and the data directory is anchored. -/
def Setting.overridden (s : Setting) (config : Config) : Config :=
  { config with
    baseUrl := (s.env.value? "APP_BASE_URL").getD config.baseUrl
    credentials :=
      ⟨(s.env.value? "APP_USERNAME").getD config.credentials.username,
        (s.env.value? "APP_PASSWORD").getD config.credentials.password⟩
    dataDir := s.dataDirOf ((s.env.value? "APP_DATA_DIR").getD config.dataDir) }

section Overlay

variable {s : Setting} {ms : Json.Members} {config : Config} {x : Json}

/-- Credentials that pass their check are members, none when there are no credentials. -/
theorem credentialsOf_valid {c : Credentials}
    (h : fieldOr "default_credentials" {} Credentials.ofJson ms = .pass c) :
    ∃ credentials, credentialsOf ((Json.lookup? "default_credentials" ms).getD .null) =
      .ok credentials ∧
      c.ReadFrom credentials := by
  rcases fieldOr_eq_pass_iff.mp h with ⟨hnone, rfl⟩ | ⟨x, hsome, hread⟩
  · rw [hnone]
    exact ⟨[], rfl, rfl, rfl⟩
  · obtain ⟨credentials, rfl⟩ := Credentials.obj_of_ofJson hread
    refine ⟨credentials, ?_, Credentials.ofJson_eq_pass_iff.mp hread⟩
    rw [hsome]
    cases credentials with
    | nil => rfl
    | cons m rest => rfl

/-- The variables for the credentials are laid over them one by one. -/
theorem readFrom_override {credentials : Json.Members} {c : Credentials}
    (h : c.ReadFrom credentials) (username password : Option Text) :
    Credentials.ReadFrom (override "password" password (override "username" username credentials))
      ⟨username.getD c.username, password.getD c.password⟩ := by
  constructor
  · rw [fieldOr_congr (lookup?_override_of_ne (by decide))]
    exact fieldOr_override h.username
  · refine fieldOr_override ?_
    rw [fieldOr_congr (lookup?_override_of_ne (by decide))]
    exact h.password

/-- Anchoring a data directory that passes its check changes no other member. -/
theorem anchored_valid {given : Text}
    (h : fieldOr "data_dir" "test-data".toList text ms = .pass given) :
    ∃ ms', anchored s.project ms = .ok ms' ∧
      fieldOr "data_dir" "test-data".toList text ms' = .pass (s.dataDirOf given) ∧
      ∀ key : Text, key ≠ "data_dir".toList → Json.lookup? key ms' = Json.lookup? key ms := by
  -- wherever the member is replaced, it is by a text under its own key
  have hput : ∀ t : Text, fieldOr "data_dir" "test-data".toList text
    (Json.put "data_dir" (.str t) ms) = .pass t ∧
      ∀ key : Text, key ≠ "data_dir".toList → Json.lookup? key (Json.put "data_dir" (.str t) ms) =
        Json.lookup? key ms :=
    fun t => ⟨fieldOr_eq_pass_iff.mpr (.inr ⟨.str t, Json.lookup?_put_self _ _ _, rfl⟩),
      fun key hkey => Json.lookup?_put_of_ne hkey.symm _ _⟩
  unfold anchored Setting.dataDirOf
  rcases fieldOr_eq_pass_iff.mp h with ⟨hnone, rfl⟩ | ⟨x, hsome, hread⟩
  · rw [hnone]
    exact ⟨_, rfl, hput _⟩
  · obtain rfl := text_eq_pass_iff.mp hread
    rw [hsome, Option.filter_some]
    by_cases hempty : given.isEmpty = true
    · rw [if_neg (by simpa [isNothing] using hempty), if_pos hempty]
      exact ⟨_, rfl, hput _⟩
    · rw [if_pos (by simpa [isNothing] using hempty), if_neg hempty]
      dsimp only
      by_cases habsolute : Path.isAbsolute given = true
      · rw [if_pos habsolute, if_pos habsolute]
        exact ⟨ms, rfl, h, fun _ _ => rfl⟩
      · rw [if_neg habsolute, if_neg habsolute]
        exact ⟨_, rfl, hput _⟩

/-- **Members that give a configuration give it with the environment laid over it, once the
environment is laid over them.** -/
theorem overlay_valid (h : config.ReadFrom ms) :
    ∃ ms', overlay s.env s.project (.obj ms) = .ok (.obj ms') ∧
    (s.overridden config).ReadFrom ms' := by
  obtain ⟨credentials, hcredentials, hread⟩ := credentialsOf_valid h.credentials
  have hlaid := readFrom_override hread (s.env.value? "APP_USERNAME") (s.env.value? "APP_PASSWORD")
  rw [overlay_obj, hcredentials]
  dsimp only [Except.bind]
  generalize override "password" _ (override "username" _ credentials) = credentials' at hlaid ⊢
  -- no variable but its own changes the member of a field
  have hbase : fieldOr "data_dir" "test-data".toList text
    (override "base_url" (s.env.value? "APP_BASE_URL") ms) =
      .pass config.dataDir := by
    rw [fieldOr_congr (lookup?_override_of_ne (by decide))]
    exact h.dataDir
  have hdata : fieldOr "data_dir" "test-data".toList text
    (Json.put "default_credentials" (.obj credentials')
      (override "data_dir" (s.env.value? "APP_DATA_DIR")
        (override "base_url" (s.env.value? "APP_BASE_URL") ms))) =
        .pass ((s.env.value? "APP_DATA_DIR").getD config.dataDir) := by
    rw [fieldOr_congr (Json.lookup?_put_of_ne (by decide) _ _)]
    exact fieldOr_override hbase
  obtain ⟨ms', hanchored, hdir, hothers⟩ := anchored_valid (s := s) hdata
  have hkept : ∀ key : Text, key ∉ overlaidNames → Json.lookup? key ms' = Json.lookup? key ms := by
    intro key hkey
    simp only [overlaidNames, List.mem_cons, List.not_mem_nil, or_false, not_or] at hkey
    obtain ⟨hurl, hcred, hdir⟩ := hkey
    rw [hothers key hdir, Json.lookup?_put_of_ne (Ne.symm hcred),
      lookup?_override_of_ne (Ne.symm hdir), lookup?_override_of_ne (Ne.symm hurl)]
  refine ⟨ms', map_eq_ok_iff.mpr ⟨ms', hanchored, rfl⟩, ?_⟩
  exact {
    baseUrl := by
      rw [field_congr (hothers _ (by decide)), field_congr (Json.lookup?_put_of_ne (by decide) _ _),
        field_congr (lookup?_override_of_ne (by decide))]
      exact field_override h.baseUrl
    credentials := by
      rw [fieldOr_congr (hothers _ (by decide))]
      exact fieldOr_eq_pass_iff.mpr
        (.inr ⟨.obj credentials', Json.lookup?_put_self _ _ _,
          Credentials.ofJson_eq_pass_iff.mpr hlaid⟩)
    dataDir := hdir
    name := (field_congr (hkept _ (by decide))).trans h.name
    version := (fieldOr_congr (hkept _ (by decide))).trans h.version
    description := (fieldOr_congr (hkept _ (by decide))).trans h.description
    elements := (fieldOr_congr (hkept _ (by decide))).trans h.elements
    formFields := (fieldOr_congr (hkept _ (by decide))).trans h.formFields
    clickTargets := (fieldOr_congr (hkept _ (by decide))).trans h.clickTargets
    verificationTargets := (fieldOr_congr (hkept _ (by decide))).trans h.verificationTargets
    navigationElements := (fieldOr_congr (hkept _ (by decide))).trans h.navigationElements
    browsers := (fieldOr_congr (hkept _ (by decide))).trans h.browsers
    headless := (fieldOr_congr (hkept _ (by decide))).trans h.headless
    strategyTimeout := (fieldOr_congr (hkept _ (by decide))).trans h.strategyTimeout }

end Overlay

/-! ### Loading -/

theorem isAbsolute_join {base path : Text} (h : Path.isAbsolute base = true) :
    Path.isAbsolute (Path.join base path) = true := by
  unfold Path.join
  by_cases hpath : Path.isAbsolute path = true
  · rw [if_pos hpath]
    exact hpath
  · rw [if_neg hpath]
    obtain ⟨rest, rfl⟩ : ['/'] <+: base := List.isPrefixOf_iff_prefix.mp h
    split <;> rfl

/-- A data directory is absolute below a project that is. -/
theorem Setting.isAbsolute_dataDirOf {s : Setting} (h : Path.isAbsolute s.project = true)
    (given : Text) :
    Path.isAbsolute (s.dataDirOf given) = true := by
  unfold dataDirOf
  dsimp only
  generalize (if given.isEmpty then defaultDataDir else given) = path
  by_cases hpath : Path.isAbsolute path = true
  · rw [if_pos hpath]
    exact hpath
  · rw [if_neg hpath]
    exact isAbsolute_join h

/-- **The variables of the environment touch only their own fields.** Where nothing is kept and a
file holds an object that gives a configuration as it stands, the load succeeds whatever the
environment says. It returns and keeps that configuration, with each variable that is set and not
empty in the place of its own field, and with the data directory, that of the environment or else of
the file or else the default, below the project when it is relative, and so absolute. -/
theorem load_overridden (s : Setting) (cache : Cache) {app : Text} {directory : Option Text}
    {file : Text} {ms : Json.Members} {config : Config}
    (hkept : cache.get? (key s app directory) = none)
    (hfile : s.files.readText (fileOf s app directory) = .ok file)
    (hobject : Json.read file = .ok (.obj ms)) (hvalid : Config.ofJson (.obj ms) = .pass config) :
    (load s cache app directory).value =
        (.ok (s.overridden config), cache ++ [(key s app directory, s.overridden config)]) ∧
      (Path.isAbsolute s.project = true →
        Path.isAbsolute (s.overridden config).dataDir = true) := by
  obtain ⟨ms', hoverlay, hover⟩ := overlay_valid (s := s) (Config.ofJson_eq_pass_iff.mp hvalid)
  -- no stage of the reading fails
  have hread : read s app directory = .ok (s.overridden config) := by
    unfold read
    rw [hfile, mapError_ok]
    show ((Json.read file).mapError _ >>= _) = _
    rw [hobject, mapError_ok]
    show ((overlay s.env s.project (.obj ms)).mapError _ >>= _) = _
    rw [hoverlay, mapError_ok]
    show ((Config.ofJson (.obj ms')).toExcept.mapError _) = _
    rw [Config.ofJson_eq_pass_iff.mpr hover]
    rfl
  refine ⟨?_, fun h => Setting.isAbsolute_dataDirOf h _⟩
  have hnew : (Process.mk s cache).kept? ((Process.mk s cache).key app directory) = none := hkept
  have hload := Process.load_of_not_kept hnew
  rw [show (Process.mk s cache).setting = s from rfl, hread] at hload
  exact hload

/-- A file that gives a user name without a password and no data directory, and a member that no
field reads. -/
def partlyText : Text :=
  "\x7b\n  \"name\": \"Demo\",\n  \"base_url\": \"http://a\",\n".toList ++
    "  \"default_credentials\": \x7b\n    \"username\": \"u\"\n  \x7d,\n".toList ++
    "  \"data_dir\": \"\",\n  \"more\": []\n\x7d"

/-- What it holds. -/
def partlyMembers : Json.Members :=
  [("name", .str "Demo"), ("base_url", .str "http://a"),
    ("default_credentials", .obj [("username", .str "u")]), ("data_dir", .str []),
      ("more", .arr [])]

/-- It is these members as they are printed, and so they are read back. -/
theorem read_partlyText : Json.read partlyText = .ok (.obj partlyMembers) := by
  have hcredentials : Json.Exact Json.IsConverted (.obj [("username", .str "u")]) :=
    .obj (List.forall_mem_singleton.mpr (.str _)) (by decide)
  have hexact : Json.Exact Json.IsConverted (.obj partlyMembers) := by
    refine .obj ?_ (by decide)
    simp only [partlyMembers, List.forall_mem_cons]
    exact ⟨.str _, .str _, hcredentials, .str _, .arr (List.forall_mem_nil _), List.forall_mem_nil _⟩
  have hprinted : partlyText = (Json.obj partlyMembers).pretty := by decide +kernel
  rw [hprinted]
  exact Json.read_of_denotes ((Json.denotes_pretty_iff hexact).mpr rfl) hexact

/-- What it says as it stands. -/
def partlyConfig : Config :=
  { name := "Demo", baseUrl := "http://a", credentials := ⟨"u", []⟩, dataDir := [] }

/-- A directory with this file, and an environment that sets a password and, to nothing, an
address. -/
def partly : Setting where
  files := .ofEntries [("cfg", .directory [("demo.json", .file (.text partlyText))])]
  env := [("APP_PASSWORD", "secret"), ("APP_BASE_URL", [])]
  project := "/p"

/-- The password is that of the environment, the data directory is the default one, and all else is
as in the file. -/
theorem load_overridden_partly :
    partly.files.readText (fileOf partly "demo" (some "cfg")) = .ok partlyText ∧
      Json.read partlyText = .ok (.obj partlyMembers) ∧
      Config.ofJson (.obj partlyMembers) = .pass partlyConfig ∧
      (load partly [] "demo" (some "cfg")).value.1 =
        .ok { partlyConfig with credentials := ⟨"u", "secret"⟩, dataDir := "/p/test-data" } ∧
      Path.isAbsolute partly.project = true ∧
        Path.isAbsolute (partly.overridden partlyConfig).dataDir = true := by
  have hfile : partly.files.readText (fileOf partly "demo" (some "cfg")) = .ok partlyText := rfl
  have hvalid : Config.ofJson (.obj partlyMembers) = .pass partlyConfig := rfl
  have hresult : partly.overridden partlyConfig =
      { partlyConfig with credentials := ⟨"u", "secret"⟩, dataDir := "/p/test-data" } :=
        by decide +kernel
  have hproject : Path.isAbsolute partly.project = true := rfl
  obtain ⟨hload, hdirectory⟩ := load_overridden partly [] rfl hfile read_partlyText hvalid
  refine ⟨hfile, read_partlyText, hvalid, ?_, hproject, hdirectory hproject⟩
  rw [hload, hresult]

end Loading

end PlainSteps
