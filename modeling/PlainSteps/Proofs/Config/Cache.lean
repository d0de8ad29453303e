import PlainSteps.Config.Loading
import PlainSteps.Proofs.Trying

/-! # Configurations that are kept

A process loads configurations while the files and the variables around it change. What it keeps
under a key is decided by the first load of that key that succeeds: an event adds an entry only
where there is none, and takes none away (`kept_after`). A failed load adds nothing. Two processes
in the same surroundings that keep the same under one key answer the loads of that key alike,
whatever else they keep, and every event preserves this, so that the loads under other keys can be
left out of a history.
-/

namespace PlainSteps

/-- The environment with a variable set to a value, or unset. -/
def Environment.assign (env : Environment) (name : Text) (value : Option Text) : Environment :=
  env.filter (·.1 != name) ++ (value.map (Prod.mk name)).toList

namespace Loading

/-- What happens in the life of a process that loads configurations. -/
inductive Event where
  /-- A configuration is loaded. -/
  | load (app : Text) (directory : Option Text)
  /-- A variable is set, or unset. -/
  | assign (name : Text) (value : Option Text)
  /-- A file is written. -/
  | write (path : Text) (content : Content)

/-- What a process finds around it, and the configurations it keeps. -/
structure Process where
  setting : Setting
  cache : Cache

namespace Process

/-- A process that has loaded nothing yet. -/
def start (s : Setting) : Process := ⟨s, []⟩

/-- What a load of a process ends in. -/
def load (p : Process) (app : Text) (directory : Option Text) :
    Told (Except ConfigError Config × Cache) :=
  Loading.load p.setting p.cache app directory

/-- The key of a load of a process. -/
def key (p : Process) : Text → Option Text → Key := Loading.key p.setting

/-- The configuration that a process keeps under a key. -/
def kept? (p : Process) (k : Key) : Option Config := p.cache.get? k

/-- The process behind an event. -/
def after (p : Process) : Event → Process
  | .load app directory => { p with cache := (p.load app directory).value.2 }
  | .assign name value =>
    { p with setting := { p.setting with env := p.setting.env.assign name value } }
  | .write path content =>
    { p with setting := { p.setting with files := p.setting.files.put path (.file content) } }

/-- The process behind events in order. -/
def afterAll (p : Process) (events : List Event) : Process := events.foldl after p

theorem afterAll_append (p : Process) (events more : List Event) :
    p.afterAll (events ++ more) = (p.afterAll events).afterAll more := List.foldl_append

variable {p q : Process} {app : Text} {directory : Option Text} {config : Config} {k : Key}

/-! ### One load -/

/-- A configuration that is kept is returned as it is: nothing is read, and nothing told. -/
theorem load_of_kept (h : p.kept? (p.key app directory) = some config) :
    p.load app directory = pure (.ok config, p.cache) := by
  unfold load Loading.load
  dsimp only
  rw [show p.cache.get? (Loading.key p.setting app directory) = some config from h]

/-- Where nothing is kept, the file and the environment decide, and a success is kept. -/
theorem load_of_not_kept (h : p.kept? (p.key app directory) = none) :
    (p.load app directory).value = match read p.setting app directory with
      | .error e => (.error e, p.cache)
      | .ok config => (.ok config, p.cache ++ [(p.key app directory, config)]) := by
  unfold load Loading.load
  dsimp only
  rw [show p.cache.get? (Loading.key p.setting app directory) = none from h]
  cases read p.setting app directory with
  | error e => rfl
  | ok config => rfl

theorem load_reads (h : p.kept? (p.key app directory) = none) :
    (p.load app directory).value.1 = read p.setting app directory := by
  rw [load_of_not_kept h]
  cases read p.setting app directory with
  | error e => rfl
  | ok config => rfl

/-- A load that fails leaves the process as it was. -/
theorem after_of_load_error {e : ConfigError} (h : (p.load app directory).value.1 = .error e) :
    p.after (.load app directory) = p := by
  have hcache : (p.load app directory).value.2 = p.cache := by
    cases hkept : p.kept? (p.key app directory) with
    | some kept => rw [load_of_kept hkept, Told.value_pure]
    | none =>
      rw [load_reads hkept] at h
      rw [load_of_not_kept hkept, h]
  unfold after
  dsimp only
  rw [hcache]

/-! ### Events -/

/-- What an event brings under a key, if nothing is kept there. -/
def found? (p : Process) (k : Key) : Event → Option Config
  | .load app directory => if p.key app directory = k then
      (read p.setting app directory).toOption else none
  | .assign .. | .write .. => none

theorem get?_append (cache : Cache) (k' : Key) (config : Config) :
    Cache.get? (cache ++ [(k', config)]) k = (cache.get? k).or (if k' = k then
      some config else none) := by
  unfold Cache.get?
  rw [List.find?_append]
  cases cache.find? (·.1 == k) with
  | some entry => rfl
  | none =>
    by_cases hk : k' = k
    · simp [hk]
    · simp [hk]

/-- **What a process keeps behind an event**: what it kept before, or else what the event brings. -/
theorem kept_after (p : Process) (k : Key) (event : Event) :
    (p.after event).kept? k = (p.kept? k).or (p.found? k event) := by
  cases event with
  | assign name value => exact (Option.or_none).symm
  | write path content => exact (Option.or_none).symm
  | load app directory =>
    show Cache.get? (p.load app directory).value.2 k = _
    cases hkept : p.kept? (p.key app directory) with
    | some kept =>
      rw [load_of_kept hkept, Told.value_pure]
      show p.kept? k = _
      by_cases hk : p.key app directory = k
      · rw [← hk, hkept]
        rfl
      · rw [found?, if_neg hk, Option.or_none]
    | none =>
      rw [load_of_not_kept hkept, found?]
      cases read p.setting app directory with
      | error e =>
        show p.kept? k = _
        rw [show (Except.error e : Except ConfigError Config).toOption = none from rfl,
          ite_self, Option.or_none]
      | ok found => exact get?_append _ _ _

/-- A load that succeeds leaves its configuration under its key. -/
theorem kept_of_load_ok (h : (p.load app directory).value.1 = .ok config) :
    (p.after (.load app directory)).kept? (p.key app directory) = some config := by
  rw [kept_after]
  cases hkept : p.kept? (p.key app directory) with
  | some kept =>
    rw [load_of_kept hkept] at h
    cases h
    rfl
  | none =>
    rw [load_reads hkept] at h
    rw [found?, if_pos rfl, h]
    rfl

/-- What is kept stays. -/
theorem kept_afterAll (events : List Event) : ∀ {p : Process}, p.kept? k = some config →
    (p.afterAll events).kept? k = some config := by
  induction events with
  | nil => exact fun h => h
  | cons event rest ih =>
    intro p h
    refine ih ?_
    rw [kept_after, h]
    rfl

/-- No event changes which loads have which key. -/
theorem key_after (p : Process) (event : Event) : (p.after event).key = p.key := by
  cases event with
  | load app directory => rfl
  | assign name value => rfl
  | write path content => rfl

/-! ### Histories -/

/-- What an event answers to a load under a key, with the lines that are told. -/
def answer? (p : Process) (k : Key) : Event → Option (Told (Except ConfigError Config))
  | .load app directory => if p.key app directory = k then
      some (Prod.fst <$> p.load app directory) else none
  | .assign .. | .write .. => none

/-- What the loads under a key answer in the course of events. -/
def answers (k : Key) : Process → List Event → List (Told (Except ConfigError Config))
  | _, [] => []
  | p, event :: rest => (p.answer? k event).toList ++ answers k (p.after event) rest

/-- Whether an event is no load under another key. -/
def spares (p : Process) (k : Key) : Event → Bool
  | .load app directory => p.key app directory == k
  | .assign .. | .write .. => true

/-- As long as every load under a key fails, nothing is kept under it. -/
theorem not_kept_of_failures (events : List Event) : ∀ {p : Process}, p.kept? k = none →
    (∀ a ∈ answers k p events, ∃ e, a.value = .error e) → (p.afterAll events).kept? k = none := by
  induction events with
  | nil => exact fun h _ => h
  | cons event rest ih =>
    intro p h hfail
    refine ih ?_ fun a ha => hfail a (List.mem_append_right _ ha)
    rw [kept_after, h, Option.none_or]
    cases event with
    | assign name value => rfl
    | write path content => rfl
    | load app directory =>
      -- only a load that succeeds could keep something, and those under the key do not
      rw [found?]
      split
      · rename_i hk
        obtain ⟨e, he⟩ := hfail (Prod.fst <$> p.load app directory)
          (List.mem_append_left _ (by rw [answer?, if_pos hk]; exact List.mem_singleton_self _))
        rw [show read p.setting app directory = .error e from (load_reads (hk ▸ h)).symm.trans he]
        rfl
      · rfl

/-- Processes in the same surroundings that keep the same under a key. -/
structure Agree (k : Key) (p q : Process) : Prop where
  setting : p.setting = q.setting
  kept : p.kept? k = q.kept? k

theorem Agree.key (h : Agree k p q) : p.key = q.key := congrArg Loading.key h.setting

/-- Processes that agree on a key answer its loads alike. -/
theorem Agree.load (h : Agree k p q) (hk : p.key app directory = k) :
    Prod.fst <$> p.load app directory = Prod.fst <$> q.load app directory := by
  obtain ⟨s, cache⟩ := p
  obtain ⟨_, cache'⟩ := q
  cases h.setting
  have hkept : cache.get? (Loading.key s app directory) =
      cache'.get? (Loading.key s app directory) := by
    rw [show Loading.key s app directory = k from hk]
    exact h.kept
  unfold Process.load Loading.load
  dsimp only
  rw [hkept]
  -- the caches themselves are no part of the answer
  cases cache'.get? (Loading.key s app directory) with
  | some config => rfl
  | none =>
    cases read s app directory with
    | error e => rfl
    | ok config => rfl

theorem Agree.answer (h : Agree k p q) (event : Event) : p.answer? k event = q.answer? k event := by
  cases event with
  | assign name value => rfl
  | write path content => rfl
  | load app directory =>
    rw [answer?, answer?, ← h.key]
    by_cases hk : p.key app directory = k
    · rw [if_pos hk, if_pos hk, h.load hk]
    · rw [if_neg hk, if_neg hk]

/-- Processes that agree on a key do so behind every event. -/
theorem Agree.after (h : Agree k p q) (event : Event) :
    Agree k (p.after event) (q.after event) := by
  constructor
  · cases event with
    | load app directory => exact h.setting
    | assign name value =>
      exact congrArg (fun s : Setting => { s with env := s.env.assign name value }) h.setting
    | write path content =>
      exact congrArg (fun s : Setting => { s with files := s.files.put path (.file content) })
        h.setting
  · have hfound : p.found? k event = q.found? k event := by
      cases event with
      | load app directory => rw [found?, found?, h.key, h.setting]
      | assign name value => rfl
      | write path content => rfl
    rw [kept_after, kept_after, h.kept, hfound]

/-- A load under another key changes nothing for this one. -/
theorem agree_after_of_not_spares {event : Event} (h : p.spares k event = false) :
    Agree k p (p.after event) := by
  cases event with
  | assign name value => cases h
  | write path content => cases h
  | load app directory =>
    refine ⟨rfl, ?_⟩
    have hk : ¬ p.key app directory = k := by simpa [spares] using h
    rw [kept_after, found?, if_neg hk, Option.or_none]

theorem answer?_of_not_spares {event : Event} (h : p.spares k event = false) :
    p.answer? k event = none := by
  cases event with
  | assign name value => rfl
  | write path content => rfl
  | load app directory => exact if_neg (by simpa [spares] using h)

/-- The answers under a key are the same without the loads under other keys. -/
theorem answers_filter (events : List Event) : ∀ {p q : Process}, Agree k p q →
    answers k p events = answers k q (events.filter (q.spares k)) := by
  induction events with
  | nil => exact fun _ => rfl
  | cons event rest ih =>
    intro p q h
    -- which loads are spared hangs on the key alone, and no event changes that
    have hspares : ∀ {p' : Process}, p'.key = q.key → p'.spares k = q.spares k := by
      intro p' hkey
      funext event
      cases event with
      | load app directory => rw [spares, spares, hkey]
      | assign name value => rfl
      | write path content => rfl
    cases hspare : q.spares k event with
    | true =>
      rw [List.filter_cons_of_pos hspare, answers, answers, h.answer, ih (h.after event),
        hspares (key_after q event)]
    | false =>
      have hspare' : p.spares k event = false := by rw [hspares h.key, hspare]
      have hstill : Agree k (p.after event) q :=
        ⟨(agree_after_of_not_spares hspare').setting.symm.trans h.setting,
          (agree_after_of_not_spares hspare').kept.symm.trans h.kept⟩
      rw [List.filter_cons_of_neg (by simp [hspare]), answers, answer?_of_not_spares hspare',
        Option.toList_none, List.nil_append, ih hstill]

/-! ### Runs -/

/-- **The first load that succeeds counts, and only for its own key.** Behind a load that succeeds,
whatever happens, every load of the same key returns its configuration as it is kept, and tells and
changes nothing. A load that fails leaves the process as it was; while all loads of a key have
failed, the next one is decided by the files and the environment of its own time. And the loads of a
key, with what they tell, are the same without all loads of other keys. -/
theorem loads_kept (s : Setting) :
    (∀ before app directory config,
      (((start s).afterAll before).load app directory).value.1 = .ok config →
      ∀ between app' directory' p,
        p = (start s).afterAll (before ++ .load app directory :: between) →
        p.key app' directory' = ((start s).afterAll before).key app directory →
        p.load app' directory' = pure (.ok config, p.cache)) ∧
    (∀ events p, p = (start s).afterAll events →
      (∀ app directory e, (p.load app directory).value.1 = .error e →
        p.after (.load app directory) = p) ∧
      ∀ app directory, (∀ a ∈ answers (p.key app directory) (start s) events, ∃ e,
        a.value = .error e) →
        (p.load app directory).value.1 = read p.setting app directory) ∧
    ∀ k events, answers k (start s) events = answers k (start s)
      (events.filter ((start s).spares k)) := by
  refine ⟨?_, ?_, fun k events => answers_filter events ⟨rfl, rfl⟩⟩
  · rintro before app directory config hload between app' directory' p rfl hkey
    refine load_of_kept ?_
    rw [hkey, afterAll_append]
    exact kept_afterAll between (kept_of_load_ok hload)
  · rintro events p rfl
    exact ⟨fun app directory e he => after_of_load_error he,
      fun app directory hfail => load_reads (not_kept_of_failures events rfl hfail)⟩

/-- A directory for configurations that holds none. -/
def vacant : Setting := ⟨.ofEntries [("cfg", .directory [])], [], "/p"⟩

/-- The file of an application is looked for in vain, and written. -/
def written : List Event :=
  [.load "demo" (some "cfg"),
    .write "cfg/demo.json" (.text "\x7b\"name\": \"demo\", \"base_url\": \"http://a\"\x7d")]

/-- The file is spoilt, and the environment moves the application. -/
def spoilt : List Event :=
  [.write "cfg/demo.json" (.text "[]"), .assign "APP_BASE_URL" (some "http://b"),
    .load "other" (some "cfg")]

/-- What the file first says. -/
def demo : Config := { name := "demo", baseUrl := "http://a", dataDir := "/p/test-data" }

/-- A load that failed is made good by writing the file, and the configuration is kept when the file
is spoilt and the environment set; a load of another application leaves no trace. -/
theorem loads_kept_spoilt :
    read ((start vacant).afterAll written).setting "demo" (some "cfg") = .ok demo ∧
      (((start vacant).afterAll written).load "demo" (some "cfg")).value.1 = .ok demo ∧
      (∃ cache,
        ((start vacant).afterAll (written ++ .load "demo" (some "cfg") :: spoilt)).load "DEMO"
        (some "./cfg/") = pure (.ok demo, cache)) ∧
      answers (Loading.key vacant "demo" (some "cfg")) (start vacant) (written ++ spoilt) =
        answers (Loading.key vacant "demo" (some "cfg")) (start vacant)
          (written ++ spoilt.take 2) := by
  obtain ⟨hkept, hfailed, hother⟩ := loads_kept vacant
  have hread : read ((start vacant).afterAll written).setting "demo" (some "cfg") = .ok demo :=
    eq_ok_of_toOption (by decide +kernel)
  have hload : (((start vacant).afterAll written).load "demo" (some "cfg")).value.1 = .ok demo := by
    rw [← hread]
    refine (hfailed written _ rfl).2 "demo" (some "cfg") fun a ha => ?_
    obtain rfl := List.mem_singleton.mp ha
    exact ⟨_, rfl⟩
  exact ⟨hread, hload,
    ⟨_, hkept written "demo" (some "cfg") demo hload spoilt _ _ _ rfl (by decide +kernel)⟩,
      hother _ (written ++ spoilt)⟩

end Process

end Loading

end PlainSteps
