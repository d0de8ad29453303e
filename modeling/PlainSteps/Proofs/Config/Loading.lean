import PlainSteps.Config.Loading
import PlainSteps.Proofs.Json.Reading
import PlainSteps.Proofs.Trying

/-! # Configurations that are not loaded

A load ends with a configuration or with an error. Most errors are those of configurations: the file
cannot be read, it holds no JSON, or what it holds does not pass the check. But before the check the
environment is laid over the raw value, and that takes an object for granted, credentials that are
members, and a data directory that is a text. What does not have this shape is refused in other
ways, and so are a path that no file can have, bytes that are no text, and a numeral with too many
digits.
-/

namespace PlainSteps

/-! ### Members -/

namespace Json

variable {α : Type} {key name : Text} {value : α}

theorem lookup?_put_self (key : Text) (value : α) (ms : List (Text × α)) :
    lookup? key (put key value ms) = some value := by
  induction ms with
  | nil => simp [put, lookup?]
  | cons m rest ih =>
    unfold put
    split
    · rename_i hkey
      simp [lookup?, hkey]
    · rename_i hkey
      rw [← ih]
      simp [lookup?, hkey]

theorem lookup?_put_of_ne (hne : name ≠ key) (value : α) (ms : List (Text × α)) :
    lookup? key (put name value ms) = lookup? key ms := by
  induction ms with
  | nil => simp [put, lookup?, hne]
  | cons m rest ih =>
    unfold put
    split
    · rename_i hname
      rw [beq_iff_eq] at hname
      simp [lookup?, hname, hne]
    · by_cases hkey : m.1 = key
      · simp [lookup?, hkey]
      · simpa [lookup?, hkey] using ih

end Json

/-! ### Paths -/

namespace Files

variable {f : Files} {path : Text}

theorem walk_ne_nul {here : Node} {above : List Node} {names : List Text} :
    walk here above names ≠ .error .nul := by
  induction names generalizing here above with
  | nil => exact nofun
  | cons name rest ih =>
    unfold walk
    -- a name goes on to the next one, or is refused for what stands there
    repeat' split
    all_goals first
      | exact ih
      | exact nofun

theorem find_eq_nul_iff : f.find path = .error .nul ↔ '\x00' ∈ path := by
  unfold find
  by_cases hnul : '\x00' ∈ path
  · rw [if_pos (List.contains_iff_mem.mpr hnul)]
    exact iff_of_true rfl hnul
  · rw [if_neg (mt List.contains_iff_mem.mp hnul)]
    refine iff_of_false ?_ hnul
    split
    · exact nofun
    · split
      · exact nofun
      · exact walk_ne_nul

/-- A file that may be used stands at a path, and its bytes are no text. -/
def HoldsNoText (f : Files) (path : Text) : Prop :=
  (∃ bytes, f.find path = .ok (.file (.workbook bytes))) ∧ f.refusal path = none

/-- A bad value is a NUL in the path of a file, which is not looked for, or bytes that are no
text. -/
theorem readText_nul_iff :
    (∃ e, f.readText path = .error e ∧ e.problem = .nul) ↔ '\x00' ∈ path ∨ f.HoldsNoText path := by
  rw [← find_eq_nul_iff (f := f)]
  unfold HoldsNoText
  cases hfind : f.find path with
  | error problem =>
    simp only [readText, hfind]
    simp [FileError.problem]
  | ok node =>
    cases node with
    | directory entries =>
      simp only [readText, hfind]
      simp [FileError.problem]
    | file content =>
      rw [readText_of_file hfind]
      cases f.refusal path <;> cases content <;> simp [Content.asText, FileError.problem]

end Files

namespace Loading

/-! ### What the environment can be laid over -/

/-- Whether a value is a list or an object, which cannot be a key. -/
def isCollection : Json → Bool
  | .arr _ | .obj _ => true
  | _ => false

/-- An item that is a key with its value: two items of a list, two characters, or the names of two
members. -/
inductive IsPair : Json → Prop where
  | list {name : Json} (value : Json) (key : isCollection name = false) :
      IsPair (.arr [name, value])
  | text (c d : Char) : IsPair (.str [c, d])
  | object (m n : Text × Json) : IsPair (.obj [m, n])

/-- Credentials that are members, or can be made into members. -/
inductive IsCredentials : Json → Prop where
  | nothing {x : Json} (none : isNothing x = true) : IsCredentials x
  | object (ms : Json.Members) : IsCredentials (.obj ms)
  | list {items : List Json} (pairs : ∀ x ∈ items, IsPair x) : IsCredentials (.arr items)

/-- A data directory that is a path, or is not given. -/
def IsDataDir (x : Json) : Prop := isNothing x = true ∨ ∃ t, x = .str t

/-- Members that an environment can be laid over. -/
structure Overlayable (env : Environment) (ms : Json.Members) : Prop where
  credentials : IsCredentials ((Json.lookup? "default_credentials" ms).getD .null)
  dataDir : env.value? "APP_DATA_DIR" = none →
    ∀ x, Json.lookup? "data_dir" ms = some x → IsDataDir x

theorem pair_ok_iff {name value : Json} :
    (∃ m, pair name value = .ok m) ↔ isCollection name = false := by
  cases name <;> simp [pair, isCollection]

theorem pairOf_ok_iff {n : Nat} {items : List Json} :
    (∃ m, pairOf n items = .ok m) ↔ ∃ name value, items = [name, value] ∧
    isCollection name = false := by
  match items with
  | [] => simp [pairOf]
  | [_] => simp [pairOf]
  | [name, value] => simp [pairOf, pair_ok_iff]
  | _ :: _ :: _ :: _ => simp [pairOf]

/-- Items that can be keys are a pair when there are two of them. -/
theorem pairOf_map_ok_iff {α : Type} {f : α → Json} (hf : ∀ x, isCollection (f x) = false) {n : Nat}
    {xs : List α} :
    (∃ m, pairOf n (xs.map f) = .ok m) ↔ ∃ x y, xs = [x, y] := by
  rw [pairOf_ok_iff]
  constructor
  · rintro ⟨name, value, hpair, -⟩
    obtain ⟨x, rest, rfl, -, hrest⟩ := List.map_eq_cons_iff.mp hpair
    obtain ⟨y, last, rfl, -, hlast⟩ := List.map_eq_cons_iff.mp hrest
    obtain rfl := List.map_eq_nil_iff.mp hlast
    exact ⟨x, y, rfl⟩
  · rintro ⟨x, y, rfl⟩
    exact ⟨f x, f y, rfl, hf x⟩

theorem memberOf_ok_iff {n : Nat} {x : Json} : (∃ m, memberOf n x = .ok m) ↔ IsPair x := by
  -- a member is a list of two, or a text or an object that has two parts
  cases x with
  | arr items =>
    rw [memberOf, pairOf_ok_iff]
    constructor
    · rintro ⟨name, value, rfl, key⟩
      exact .list value key
    · intro hpair
      cases hpair with
      | list value key => exact ⟨_, value, rfl, key⟩
  | str t =>
    rw [memberOf, pairOf_map_ok_iff fun _ => rfl]
    constructor
    · rintro ⟨c, d, rfl⟩
      exact .text c d
    · intro hpair
      cases hpair with
      | text c d => exact ⟨c, d, rfl⟩
  | obj ms =>
    rw [memberOf, pairOf_map_ok_iff fun _ => rfl]
    constructor
    · rintro ⟨m, n, rfl⟩
      exact .object m n
    · intro hpair
      cases hpair with
      | object m n => exact ⟨m, n, rfl⟩
  | null | bool b | int i | float x => exact iff_of_false nofun nofun

theorem membersFrom_ok_iff {n : Nat} {items : List Json} :
    (∃ ms, membersFrom n items = .ok ms) ↔ ∀ x ∈ items, IsPair x := by
  induction items generalizing n with
  | nil => simp [membersFrom]
  | cons x rest ih =>
    have hstep : (∃ ms, membersFrom n (x :: rest) = .ok ms) ↔
        (∃ m, memberOf n x = .ok m) ∧ ∃ ms, membersFrom (n + 1) rest = .ok ms := by
      constructor
      · rintro ⟨ms, hms⟩
        obtain ⟨m, hm, hms⟩ := bind_eq_ok_iff.mp hms
        obtain ⟨others, hothers, -⟩ := bind_eq_ok_iff.mp hms
        exact ⟨⟨m, hm⟩, others, hothers⟩
      · rintro ⟨⟨m, hm⟩, others, hothers⟩
        exact ⟨_, bind_eq_ok_iff.mpr ⟨m, hm, bind_eq_ok_iff.mpr ⟨others, hothers, rfl⟩⟩⟩
    rw [hstep, memberOf_ok_iff, ih, List.forall_mem_cons]

/-- The members that items stand for, however often a key comes. -/
theorem settled_ok_iff {items : List Json} :
    (∃ ms, (membersFrom 0 items).map Json.settle = .ok ms) ↔ ∀ x ∈ items, IsPair x := by
  rw [← membersFrom_ok_iff (n := 0)]
  cases membersFrom 0 items <;> simp [Except.map]

theorem credentialsOf_ok_iff {x : Json} : (∃ ms, credentialsOf x = .ok ms) ↔ IsCredentials x := by
  unfold credentialsOf
  by_cases hnothing : isNothing x = true
  · rw [if_pos hnothing]
    exact iff_of_true ⟨_, rfl⟩ (.nothing hnothing)
  · rw [if_neg hnothing]
    cases x with
    | obj ms => exact iff_of_true ⟨_, rfl⟩ (.object ms)
    | arr items =>
      dsimp only
      rw [settled_ok_iff]
      constructor
      · exact .list
      · intro hcredentials
        cases hcredentials with
        | nothing none => exact absurd none hnothing
        | list pairs => exact pairs
    | str t =>
      -- each character is taken for an item, and a single one is no pair
      dsimp only
      rw [settled_ok_iff, List.forall_mem_map]
      refine iff_of_false (fun hpairs => ?_) fun hcredentials => ?_
      · cases t with
        | nil => exact hnothing rfl
        | cons c rest => nomatch hpairs c (.head _)
      · cases hcredentials
        contradiction
    | null | bool b | int i | float y =>
      refine iff_of_false nofun fun hcredentials => ?_
      cases hcredentials
      contradiction

/-- A data directory is anchored when it is a path or not given. -/
theorem anchored_ok_iff {project : Text} {ms : Json.Members} :
    (∃ ms', anchored project ms = .ok ms') ↔ ∀ x, Json.lookup? "data_dir" ms = some x →
    IsDataDir x := by
  unfold anchored
  cases Json.lookup? "data_dir" ms with
  | none => exact iff_of_true ⟨_, rfl⟩ nofun
  | some x =>
    rw [Option.filter_some]
    have hsome : (∀ y, some x = some y → IsDataDir y) ↔ IsDataDir x :=
      ⟨fun h => h x rfl, fun h y hy => Option.some.inj hy ▸ h⟩
    rw [hsome]
    -- a value that counts as nothing is replaced; any other one is taken for a path
    by_cases hnothing : isNothing x = true
    · rw [if_neg (by simp [hnothing])]
      exact iff_of_true ⟨_, rfl⟩ (.inl hnothing)
    · rw [if_pos (by simp [hnothing])]
      cases x with
      | str t => exact iff_of_true ⟨_, rfl⟩ (.inr ⟨t, rfl⟩)
      | null | bool b | int i | float y | arr xs | obj ms =>
        refine iff_of_false nofun ?_
        rintro (hnone | ⟨t, ht⟩)
        · exact hnothing hnone
        · cases ht

/-! ### The overlay -/

section Overlay

variable {env : Environment} {project name key : Text} {value : Option Text} {x : Json}
  {ms : Json.Members}

theorem lookup?_override_of_ne (hne : name ≠ key) :
    Json.lookup? key (override name value ms) = Json.lookup? key ms := by
  cases value with
  | none => rfl
  | some t => exact Json.lookup?_put_of_ne hne _ ms

theorem set_obj : set name value (.obj ms) = .ok (.obj (override name value ms)) := by
  cases value <;> rfl

theorem obj_of_set {ms' : Json.Members} (h : set name value x = .ok (.obj ms')) :
    ∃ ms, x = .obj ms := by
  cases value with
  | none =>
    cases h
    exact ⟨ms', rfl⟩
  | some t =>
    cases x with
    | obj ms => exact ⟨ms, rfl⟩
    | null | bool b | int i | float y | str s | arr xs => cases h

theorem obj_of_overlay {y : Json} (h : overlay env project x = .ok y) : ∃ ms, x = .obj ms := by
  -- only what is an object behind both settings has members, and a setting makes no object of
  -- anything else
  obtain ⟨x₁, hbase, h⟩ := bind_eq_ok_iff.mp h
  obtain ⟨x₂, hdata, h⟩ := bind_eq_ok_iff.mp h
  obtain ⟨ms, hms, -⟩ := bind_eq_ok_iff.mp h
  have hobj : x₂ = .obj ms := by
    cases x₂ with
    | obj ms => cases hms; rfl
    | null | bool b | int i | float y | str s | arr xs => cases hms
  subst hobj
  obtain ⟨ms₁, rfl⟩ := obj_of_set hdata
  exact obj_of_set hbase

/-- Over an object, the environment is laid member by member. -/
theorem overlay_obj : overlay env project (.obj ms) =
    (credentialsOf ((Json.lookup? "default_credentials" ms).getD .null)).bind fun credentials =>
      (anchored project (Json.put "default_credentials"
        (.obj (override "password" (env.value? "APP_PASSWORD")
          (override "username" (env.value? "APP_USERNAME") credentials)))
        (override "data_dir" (env.value? "APP_DATA_DIR")
          (override "base_url" (env.value? "APP_BASE_URL") ms)))).map .obj := by
  -- the settings of the environment are not those of the credentials
  have hcredentials : Json.lookup? "default_credentials"
      (override "data_dir" (env.value? "APP_DATA_DIR")
        (override "base_url" (env.value? "APP_BASE_URL") ms)) =
      Json.lookup? "default_credentials" ms := by
    rw [lookup?_override_of_ne (by decide), lookup?_override_of_ne (by decide)]
  unfold overlay
  rw [set_obj]
  show (set "data_dir" (env.value? "APP_DATA_DIR")
    (.obj (override "base_url" (env.value? "APP_BASE_URL") ms)) >>= _) = _
  rw [set_obj]
  show (credentialsOf _).bind _ = _
  rw [hcredentials]
  cases credentialsOf ((Json.lookup? "default_credentials" ms).getD .null) with
  | error e => rfl
  | ok credentials => rfl

/-- The data directory that is anchored is that of the environment, or else that of the file. -/
theorem anchored_overlaid_ok_iff {base data : Option Text} {c : Json} :
    (∃ ms', anchored project (Json.put "default_credentials" c
      (override "data_dir" data (override "base_url" base ms))) = .ok ms') ↔
      (data = none → ∀ x, Json.lookup? "data_dir" ms = some x → IsDataDir x) := by
  rw [anchored_ok_iff, Json.lookup?_put_of_ne (by decide)]
  cases data with
  | none =>
    rw [show ∀ ms, override "data_dir" none ms = ms from fun _ => rfl,
      lookup?_override_of_ne (by decide)]
    exact ⟨fun h _ => h, fun h => h rfl⟩
  | some t =>
    refine iff_of_true (fun x hx => ?_) nofun
    rw [override, Json.lookup?_put_self] at hx
    exact .inr ⟨t, (Option.some.inj hx).symm⟩

theorem overlay_ok_iff :
    (∃ y, overlay env project x = .ok y) ↔ ∃ ms, x = .obj ms ∧ Overlayable env ms := by
  constructor
  · rintro ⟨y, hy⟩
    obtain ⟨ms, rfl⟩ := obj_of_overlay hy
    rw [overlay_obj] at hy
    obtain ⟨credentials, hcredentials, hy⟩ := bind_eq_ok_iff.mp hy
    obtain ⟨ms', hanchored, -⟩ := map_eq_ok_iff.mp hy
    exact ⟨ms, rfl, credentialsOf_ok_iff.mp ⟨_, hcredentials⟩,
      anchored_overlaid_ok_iff.mp ⟨_, hanchored⟩⟩
  · rintro ⟨ms, rfl, hoverlayable⟩
    obtain ⟨credentials, hcredentials⟩ := credentialsOf_ok_iff.mpr hoverlayable.credentials
    obtain ⟨ms', hanchored⟩ := anchored_overlaid_ok_iff.mpr hoverlayable.dataDir
    rw [overlay_obj]
    exact ⟨.obj ms',
      bind_eq_ok_iff.mpr ⟨credentials, hcredentials, map_eq_ok_iff.mpr ⟨ms', hanchored, rfl⟩⟩⟩

end Overlay

/-! ### Loads that fail otherwise than expected -/

section Load

variable {s : Setting} {cache : Cache} {app : Text} {directory : Option Text}

/-- A reading fails at the first of its stages that does. -/
theorem read_error_iff {e : ConfigError} :
    read s app directory = .error e ↔
      (∃ d, s.files.readText (fileOf s app directory) = .error d ∧ e = .unreadable app d) ∨
      ∃ text, s.files.readText (fileOf s app directory) = .ok text ∧
        ((∃ d, Json.read text = .error d ∧ e = .malformed app d) ∨
        ∃ x, Json.read text = .ok x ∧
          ((∃ d, overlay s.env s.project x = .error d ∧ e = .overlay d) ∨
          ∃ y, overlay s.env s.project x = .ok y ∧
            ∃ issues, (Config.ofJson y).toExcept = .error issues ∧ e = .invalid app issues)) := by
  have hstages : read s app directory =
      ((s.files.readText (fileOf s app directory)).mapError (ConfigError.unreadable app)).bind
        fun text =>
        ((Json.read text).mapError (ConfigError.malformed app)).bind fun x =>
          ((overlay s.env s.project x).mapError ConfigError.overlay).bind fun y =>
            (Config.ofJson y).toExcept.mapError (ConfigError.invalid app) := rfl
  simp only [hstages, bind_eq_error_iff, mapError_eq_error_iff, mapError_eq_ok_iff]

/-- A reading fails otherwise than expected for a path that no file can have, bytes that are no
text, a numeral with too many digits, or a value that the environment cannot be laid over. -/
theorem read_unexpected_iff :
    (∃ e, read s app directory = .error e ∧ e.isExpected = false) ↔
      ('\x00' ∈ fileOf s app directory ∨ s.files.HoldsNoText (fileOf s app directory)) ∨
        ∃ text, s.files.readText (fileOf s app directory) = .ok text ∧
          ((∃ e, Json.read text = .error e ∧ e.isTooLong = true ∧ Json.HasLongNumeral text) ∨
            ∃ x, Json.read text = .ok x ∧ ¬ ∃ ms, x = .obj ms ∧ Overlayable s.env ms) := by
  rw [← Files.readText_nul_iff (f := s.files)]
  simp only [read_error_iff]
  constructor
  · rintro
      ⟨e,
        ⟨d, hfile, rfl⟩ | ⟨text, hfile,
          ⟨d, hjson, rfl⟩ | ⟨x, hjson, ⟨d, hover, rfl⟩ | ⟨y, -, issues, -, rfl⟩⟩⟩, he⟩
    · exact .inl ⟨d, hfile, by simpa [ConfigError.isExpected] using he⟩
    · have hlong : d.isTooLong = true := by simpa [ConfigError.isExpected] using he
      exact .inr ⟨text, hfile, .inl ⟨d, hjson, hlong, Json.hasLongNumeral_of_read hjson hlong⟩⟩
    · refine .inr ⟨text, hfile, .inr ⟨x, hjson, fun hfits => ?_⟩⟩
      obtain ⟨y, hy⟩ := overlay_ok_iff.mpr hfits
      cases hover.symm.trans hy
    · cases he
  · rintro (⟨d, hfile, hnul⟩ | ⟨text, hfile, ⟨d, hjson, hlong, -⟩ | ⟨x, hjson, hunfit⟩⟩)
    · exact ⟨_, .inl ⟨d, hfile, rfl⟩, by simp [ConfigError.isExpected, hnul]⟩
    · exact ⟨_, .inr ⟨text, hfile, .inl ⟨d, hjson, rfl⟩⟩, by simp [ConfigError.isExpected, hlong]⟩
    · cases hover : overlay s.env s.project x with
      | error d => exact ⟨_, .inr ⟨text, hfile, .inr ⟨x, hjson, .inl ⟨d, hover, rfl⟩⟩⟩, rfl⟩
      | ok y => exact absurd (overlay_ok_iff.mp ⟨y, hover⟩) hunfit

theorem load_error_iff {e : ConfigError} :
    (load s cache app directory).value.1 = .error e ↔
      cache.get? (key s app directory) = none ∧ read s app directory = .error e := by
  unfold load
  dsimp only
  cases cache.get? (key s app directory) with
  | some config => exact iff_of_false nofun nofun
  | none =>
    cases read s app directory with
    | error d => exact ⟨fun h => ⟨rfl, h⟩, fun h => h.2⟩
    | ok config => exact iff_of_false nofun nofun

/-- **When a load fails otherwise than expected.** For every application, directory, environment and
content of the files, a load ends with a configuration, or with an error that is expected of
configurations, except when nothing is kept for it and: the path of its file holds a NUL; or the
bytes of the file are no text; or the text is refused for a numeral with too many digits; or its
value is no object, or one whose credentials cannot be made into members, or whose data directory is
given, not by the environment, and is no text. -/
theorem load_unexpected_iff (s : Setting) (cache : Cache) (app : Text) (directory : Option Text) :
    (∃ e, (load s cache app directory).value.1 = .error e ∧ e.isExpected = false) ↔
      cache.get? (key s app directory) = none ∧
        (('\x00' ∈ fileOf s app directory ∨ s.files.HoldsNoText (fileOf s app directory)) ∨
          ∃ text, s.files.readText (fileOf s app directory) = .ok text ∧
            ((∃ e, Json.read text = .error e ∧ e.isTooLong = true ∧ Json.HasLongNumeral text) ∨
              ∃ x, Json.read text = .ok x ∧ ¬ ∃ ms, x = .obj ms ∧ Overlayable s.env ms)) := by
  rw [← read_unexpected_iff]
  simp only [load_error_iff, and_assoc, exists_and_left]

/-- A directory in which the file of an application holds an empty list. -/
def listing : Setting :=
  ⟨.ofEntries [("cfg", .directory [("demo.json", .file (.text "[]"))])], [], "/p"⟩

/-- It is valid JSON, and no error of configurations comes of it. -/
theorem load_listing :
    (load listing [] "demo" (some "cfg")).value.1 = .error (.overlay (.noLookup "list")) ∧
      ¬ ((∃ config, (load listing [] "demo" (some "cfg")).value.1 = .ok config) ∨
        ∃ e, (load listing [] "demo" (some "cfg")).value.1 = .error e ∧ e.isExpected = true) := by
  have hload : (load listing [] "demo" (some "cfg")).value.1 =
    .error (.overlay (.noLookup "list")) := rfl
  refine ⟨hload, ?_⟩
  rintro (⟨config, hconfig⟩ | ⟨e, herror, hexpected⟩)
  · cases hload.symm.trans hconfig
  · cases hload.symm.trans herror
    cases hexpected

end Load

end Loading

end PlainSteps
