import PlainSteps.Proofs.Browser.SideBySide

/-! # Sessions that are left over

The sessions of a sequence are awaited, one after the other or all at once, and only until one of
them ends with an error: then the others are left as they are, and they may go on while the sessions
of later sequences are awaited. So sessions are never quite by themselves. They stand behind all
that began before them, in the order of their pages, and each turn is one of theirs or of those in
front.

A turn in front leaves them alone (`TurnAt.drop`). So what sessions come to beside others that are
left over, they come to by themselves (`Awaits.gathers`), and that is what each comes to alone, or
the error of one that has no result alone: of the first such where they are awaited one after the
other, of any where they are awaited all at once (`InBlocks.same`).
-/

namespace PlainSteps

/-- Behind two numbers of pages, the same pages are yet to be opened. -/
def Pages.SameAhead {σ τ : Type} (g : Pages σ τ) (n n' : Nat) : Prop :=
  ∀ k, g.unopened (n + k) = g.unopened (n' + k)

namespace Script

variable {α τ : Type} {c : Clock} {answer : (q : Request) → τ → Except Fault q.Reply × τ}
  {crew crew' : List (Script α × τ)}

theorem TurnAt.length_eq (h : TurnAt c answer crew crew') : crew'.length = crew.length := by
  induction h with
  | this => rfl
  | other _ ih => exact congrArg Nat.succ ih

/-- A turn is one of the scripts behind a place, or it leaves all of these alone. -/
theorem TurnAt.drop (h : TurnAt c answer crew crew') (n : Nat) :
    TurnAt c answer (crew.drop n) (crew'.drop n) ∨ crew'.drop n = crew.drop n := by
  induction h generalizing n with
  | this moves =>
    cases n with
    | zero => exact .inl (.this moves)
    | succ n => exact .inr rfl
  | other turn ih =>
    cases n with
    | zero => exact .inl (.other turn)
    | succ n => exact ih n

theorem TurnAt.append_left (front : List (Script α × τ)) (h : TurnAt c answer crew crew') :
    TurnAt c answer (front ++ crew) (front ++ crew') := by
  induction front with
  | nil => exact h
  | cons x front ih => exact .other ih

theorem movesAt_follows {σ : Type} {h : Host σ} (hclock : ∀ st, c.shows (h.time st)) :
    Follows h answer (MovesAt (α := α) c answer) where
  say := .say
  clock next t st := .clock next t (hclock st)
  ask := .ask

end Script

namespace Session

open Script

/-- Sessions with the pages they are on. -/
abbrev Crew (τ : Type) := List (Script (Except SessionError Run) × τ)

/-! ### Awaiting sessions -/

/-- The sessions of a crew from a place on are awaited, and those in front of it are left over. The
outcome is all results, or the error of the first session that ends with one; last comes the crew as
it is then. -/
inductive Awaits {τ : Type} (c : Clock) (answer : (q : Request) → τ → Except Fault q.Reply × τ)
    (n : Nat) :
    Crew τ → Except SessionError (List Run) → Crew τ → Prop where
  | results {crew : Crew τ} {runs : List Run}
      (ended : (crew.drop n).map Prod.fst = runs.map fun r => .done (.ok r)) :
      Awaits c answer n crew (.ok runs) crew
  | error {crew : Crew τ} {e : SessionError} {t : τ} (ended : (.done (.error e), t) ∈ crew.drop n) :
      Awaits c answer n crew (.error e) crew
  | turn {crew crew' last : Crew τ} {outcome : Except SessionError (List Run)}
      (going : Going (crew.drop n))
      (turn : TurnAt c answer crew crew') (later : Awaits c answer n crew' outcome last) :
      Awaits c answer n crew outcome last

section Awaiting

variable {τ : Type} {c : Clock} {answer : (q : Request) → τ → Except Fault q.Reply × τ} {n : Nat}
  {crew last : Crew τ} {outcome : Except SessionError (List Run)}

/-- **Sessions that are awaited come to what they come to without those in front.** -/
theorem Awaits.gathers (h : Awaits c answer n crew outcome last) :
    Gathers answer (crew.drop n) outcome := by
  induction h with
  | results ended => exact .results ended
  | error ended => exact .error ended
  | turn going turn _ ih =>
    rcases turn.drop n with hturn | hsame
    · exact .turn going hturn.turn ih
    · rwa [hsame] at ih

theorem Awaits.length_eq (h : Awaits c answer n crew outcome last) : last.length = crew.length := by
  induction h with
  | results => rfl
  | error => rfl
  | turn _ turn _ ih => exact ih.trans turn.length_eq

/-- What moves keep of each session holds of all that are awaited or left over, to the end. -/
theorem Awaits.all {Q : Script (Except SessionError Run) × τ → Prop}
    (hQ : ∀ x x', Q x → MovesAt c answer x x' → Q x') (h : Awaits c answer n crew outcome last)
    (hcrew : ∀ x ∈ crew, Q x) : ∀ x ∈ last, Q x := by
  induction h with
  | results => exact hcrew
  | error => exact hcrew
  | turn _ turn _ ih => exact ih (turn.all hQ hcrew)

/-- What holds of all that awaited sessions can end in holds of an error that is the outcome. -/
theorem Awaits.error_endsIn {E : Except SessionError Run → Prop}
    (h : Awaits c answer n crew outcome last) (hends : ∀ x ∈ crew.drop n, EndsIn c E x.1) :
    ∀ e, outcome = .error e → E (.error e) := by
  induction h with
  | results => exact nofun
  | error ended =>
    rintro e ⟨⟩
    exact hends _ ended
  | turn _ turn _ ih =>
    refine ih ?_
    rcases turn.drop n with hturn | hsame
    · exact hturn.endsIn hends
    · rwa [hsame]

/-- One of the awaited sessions moves on alone until it ends. -/
theorem Awaits.of_moves {front rest : Crew τ} {x x' : Script (Except SessionError Run) × τ}
    (hmoves : Relation.ReflTransGen (MovesAt c answer) x x') (hn : n ≤ front.length)
    (hfront : Going (front.drop n)) (hrest : Going rest)
    (h : Awaits c answer n (front ++ x' :: rest) outcome last) :
    Awaits c answer n (front ++ x :: rest) outcome last := by
  induction hmoves using Relation.ReflTransGen.head_induction_on with
  | refl => exact h
  | head hmove _ ih =>
    refine .turn ?_ ((TurnAt.this hmove).append_left front) ih
    intro e t hmem
    rw [List.drop_append_of_le_length hn] at hmem
    rcases List.mem_append.mp hmem with hmem | hmem
    · exact hfront e t hmem
    · rcases List.mem_cons.mp hmem with rfl | hmem
      · cases hmove
      · exact hrest e t hmem

end Awaiting

/-! ### Sessions in blocks -/

section Blocks

variable {σ τ : Type} (g : Pages σ τ) (c : Clock) (s : Setting) (seq : Sequence) (prompt : Prompt)

/-- The sessions of browsers are begun in blocks, behind all sessions that began before. Each block
is awaited before the next one is begun, and the error of one is the end. -/
inductive InBlocks :
    List (List Text) → Crew τ → Except SessionError (List Run) → Crew τ → Prop where
  | nil (crew : Crew τ) : InBlocks [] crew (.ok []) crew
  | error {block : List Text} {rest : List (List Text)} {crew last : Crew τ} {e : SessionError}
      (awaits : Awaits c g.answer crew.length (crew ++ crewFrom g s seq prompt crew.length block)
        (.error e) last) :
      InBlocks (block :: rest) crew (.error e) last
  | next {block : List Text} {rest : List (List Text)} {crew later last : Crew τ} {runs : List Run}
      {outcome : Except SessionError (List Run)}
      (awaits : Awaits c g.answer crew.length (crew ++ crewFrom g s seq prompt crew.length block)
        (.ok runs) later)
      (others : InBlocks rest later outcome last) :
      InBlocks (block :: rest) crew (outcome.map (runs ++ ·)) last

/-- The blocks of browsers: all of them at once, or each by itself. -/
def blocks (parallel : Bool) (browsers : List Text) : List (List Text) :=
  if parallel && 1 < browsers.length then [browsers] else browsers.map ([·])

theorem flatten_blocks (parallel : Bool) (browsers : List Text) :
    (blocks parallel browsers).flatten = browsers := by
  unfold blocks
  split
  · exact List.flatten_singleton
  · exact List.flatMap_singleton' browsers

variable {g c s seq prompt} {block browsers : List Text} {crew last : Crew τ} {n : Nat}
  {outcome : Except SessionError (List Run)}

theorem length_crewFrom : (crewFrom g s seq prompt n browsers).length = browsers.length := by
  rw [crewFrom, List.length_map, List.length_zipIdx]

theorem aloneFrom_append (browsers' : List Text) :
    aloneFrom g s seq prompt n (browsers ++ browsers') =
    aloneFrom g s seq prompt n browsers ++ aloneFrom g s seq prompt
      (n + browsers.length) browsers' := by
  rw [aloneFrom, List.zipIdx_append, List.map_append]
  rfl

theorem EachAlone.append {browsers' : List Text} {runs runs' : List Run}
    (h : EachAlone g s seq prompt n browsers runs)
    (h' : EachAlone g s seq prompt (n + browsers.length) browsers' runs') :
    EachAlone g s seq prompt n (browsers ++ browsers') (runs ++ runs') where
  browser := by rw [List.map_append, h.browser, h'.browser]
  alone := by rw [aloneFrom_append, List.map_append, List.map_append, h.alone, h'.alone]

/-- What moves keep of each session holds to the end, if it holds of those left over and of all at
first. -/
theorem InBlocks.all {Q : Script (Except SessionError Run) × τ → Prop}
    (hQ : ∀ x x', Q x → MovesAt c g.answer x x' → Q x') (hfirst : ∀ b t, Q (run s seq prompt b, t))
    {bs : List (List Text)} (h : InBlocks g c s seq prompt bs crew outcome last)
    (hcrew : ∀ x ∈ crew, Q x) :
    ∀ x ∈ last, Q x := by
  have hbegin : ∀ {crew : Crew τ} {block : List Text}, (∀ x ∈ crew, Q x) →
      ∀ x ∈ crew ++ crewFrom g s seq prompt crew.length block, Q x := by
    intro crew block hcrew x hx
    rcases List.mem_append.mp hx with hx | hx
    · exact hcrew x hx
    · obtain ⟨b, -, rfl⟩ := List.mem_map.mp hx
      exact hfirst _ _
  induction h with
  | nil => exact hcrew
  | error awaits => exact awaits.all hQ (hbegin hcrew)
  | next awaits _ ih => exact ih (awaits.all hQ (hbegin hcrew))

/-- The sessions of a block come to what they come to alone. -/
theorem Awaits.alone
    (h : Awaits c g.answer crew.length (crew ++ crewFrom g s seq prompt crew.length block) outcome
      last) :
    (∃ runs, outcome = .ok runs ∧ EachAlone g s seq prompt crew.length block runs) ∨
      ∃ e, outcome = .error e ∧ .error e ∈ aloneFrom g s seq prompt crew.length block := by
  have hgathers := h.gathers
  rw [List.drop_left] at hgathers
  rcases hgathers.alone with hruns | ⟨e, rfl, rfl | hmem⟩
  · exact .inl hruns
  · -- by such a clock no session is late
    refine absurd rfl (h.error_endsIn (E := (· ≠ .error .duration)) (fun x hx => ?_) _ rfl)
    rw [List.drop_left] at hx
    obtain ⟨p, -, rfl⟩ := List.mem_map.mp hx
    exact run_endsIn c s seq prompt p.1
  · exact .inr ⟨e, rfl, hmem⟩

theorem Awaits.length_block
    (h : Awaits c g.answer crew.length (crew ++ crewFrom g s seq prompt crew.length block) outcome
      last) :
    last.length = crew.length + block.length := by
  rw [h.length_eq, List.length_append, length_crewFrom]

/-- **Beside sessions that are left over, all browsers have the results of their sessions alone,**
or there is the error of one that has none alone. -/
theorem InBlocks.alone {bs : List (List Text)}
    (h : InBlocks g c s seq prompt bs crew outcome last) :
    (∃ runs, outcome = .ok runs ∧ EachAlone g s seq prompt crew.length bs.flatten runs) ∨
      ∃ e, outcome = .error e ∧ .error e ∈ aloneFrom g s seq prompt crew.length bs.flatten := by
  induction h with
  | nil => exact .inl ⟨[], rfl, rfl, rfl⟩
  | error awaits =>
    rcases awaits.alone with ⟨_, hok, -⟩ | ⟨e, he, hmem⟩
    · cases hok
    · refine .inr ⟨e, he, ?_⟩
      rw [List.flatten_cons, aloneFrom_append]
      exact List.mem_append_left _ hmem
  | next awaits _ ih =>
    rw [awaits.length_block] at ih
    rcases awaits.alone with ⟨runs, hok, hruns⟩ | ⟨e, herror, -⟩
    · cases hok
      rcases ih with ⟨others, rfl, hothers⟩ | ⟨e, rfl, hmem⟩
      · exact .inl ⟨_, rfl, hruns.append hothers⟩
      · refine .inr ⟨e, rfl, ?_⟩
        rw [List.flatten_cons, aloneFrom_append]
        exact List.mem_append_right _ hmem
    · cases herror

/-- A session that is awaited by itself comes to what it comes to alone. -/
theorem Awaits.of_single {b : Text}
    (h : Awaits c g.answer crew.length (crew ++ crewFrom g s seq prompt crew.length [b]) outcome
      last) :
    outcome.map (List.map Run.timeless) = (aloneOn g s seq prompt crew.length b).map fun r =>
      [r.timeless] := by
  rcases h.alone with ⟨runs, rfl, -, hruns⟩ | ⟨e, rfl, hmem⟩
  · obtain ⟨r, rfl⟩ : ∃ r, runs = [r] :=
      List.length_eq_one_iff.mp (by simpa [aloneFrom] using congrArg List.length hruns)
    obtain ⟨r', hr', hsame⟩ := map_eq_ok_iff.mp (List.cons.inj hruns).1.symm
    obtain hr' : aloneOn g s seq prompt crew.length b = .ok r' := hr'
    rw [hr']
    exact congrArg (fun t => Except.ok [t]) hsame.symm
  · obtain hsame : .error e = aloneOn g s seq prompt crew.length b := List.mem_singleton.mp hmem
    rw [← hsame]
    rfl

/-- Awaited one after the other, they come to what is collected from each alone. -/
theorem InBlocks.collects (h : InBlocks g c s seq prompt (browsers.map ([·])) crew outcome last) :
    outcome.map (List.map Run.timeless) =
      (collect (aloneFrom g s seq prompt crew.length browsers)).map (List.map Run.timeless) := by
  induction browsers generalizing crew outcome with
  | nil =>
    cases h
    rfl
  | cons b rest ih =>
    rw [aloneFrom_cons, collect_cons]
    cases h with
    | error awaits =>
      have hfirst := awaits.of_single
      cases hvalue : aloneOn g s seq prompt crew.length b with
      | error d =>
        rw [hvalue] at hfirst
        exact congrArg Except.error (Except.error.inj hfirst)
      | ok r =>
        rw [hvalue] at hfirst
        cases hfirst
    | next awaits others =>
      have hfirst := awaits.of_single
      have hothers := ih others
      rw [awaits.length_block, List.length_singleton] at hothers
      cases hvalue : aloneOn g s seq prompt crew.length b with
      | error d =>
        rw [hvalue] at hfirst
        cases hfirst
      | ok r =>
        rw [hvalue] at hfirst
        generalize collect (aloneFrom g s seq prompt (crew.length + 1) rest) =
          collected at hothers ⊢
        cases OfBoth.of_map_eq hothers with
        | error e => rfl
        | ok hlater =>
          refine congrArg Except.ok ?_
          rw [List.map_append, Except.ok.inj hfirst, hlater]
          rfl

/-! ### The same pages ahead -/

theorem aloneFrom_same {n' : Nat} (hsame : g.SameAhead n n') (browsers : List Text) :
    aloneFrom g s seq prompt n browsers = aloneFrom g s seq prompt n' browsers := by
  refine List.ext_getElem? fun i => ?_
  rw [aloneFrom_getElem?, aloneFrom_getElem?]
  unfold aloneOn
  rw [hsame i]

/-- Runs that are the same, aside from the times, make outcomes that agree. -/
theorem agrees_of_runs {x y : Except SessionError (List Run)}
    (h : x.map (List.map Run.timeless) = y.map (List.map Run.timeless)) :
    OfBoth Outcome.Agrees (x.map fun runs => ⟨runs, confidence runs⟩)
      (y.map fun runs => ⟨runs, confidence runs⟩) := by
  cases OfBoth.of_map_eq h with
  | error e => exact .error e
  | @ok runs runs' hruns =>
    refine .ok ⟨hruns, ?_⟩
    show confidence runs = confidence runs'
    rw [← confidence_timeless runs, hruns, confidence_timeless]

/-- **With the same pages ahead, sessions come to the same**, aside from the times; only where they
are awaited all at once, and one has no result alone, the errors may be those of different ones. -/
theorem InBlocks.same {parallel : Bool} {crew' last' : Crew τ}
    {outcome' : Except SessionError (List Run)}
    (h : InBlocks g c s seq prompt (blocks parallel browsers) crew outcome last)
    (h' : InBlocks g c s seq prompt (blocks parallel browsers) crew' outcome' last')
    (hsame : g.SameAhead crew.length crew'.length) :
    outcome.map (List.map Run.timeless) = outcome'.map (List.map Run.timeless) ∨
      (parallel = true ∧ 1 < browsers.length) ∧ ∃ e e', outcome = .error e ∧ outcome' = .error e' ∧
        .error e ∈ aloneFrom g s seq prompt crew.length browsers ∧
        .error e' ∈ aloneFrom g s seq prompt crew'.length browsers := by
  have hpages : aloneFrom g s seq prompt crew.length browsers =
      aloneFrom g s seq prompt crew'.length browsers := aloneFrom_same hsame browsers
  by_cases hmode : parallel = true ∧ 1 < browsers.length
  · have hends := h.alone
    have hends' := h'.alone
    rw [flatten_blocks] at hends hends'
    rcases hends with ⟨runs, rfl, hruns⟩ | ⟨e, rfl, hmem⟩
    · rcases hends' with ⟨runs', rfl, hruns'⟩ | ⟨e', rfl, hmem'⟩
      · have hruns' : EachAlone g s seq prompt crew.length browsers runs' :=
          ⟨hruns'.browser, hpages ▸ hruns'.alone⟩
        exact .inl (congrArg Except.ok (hruns.timeless_eq g hruns'))
      · obtain ⟨r, hr⟩ := hruns.isOk g s seq prompt _ (hpages ▸ hmem')
        cases hr
    · rcases hends' with ⟨runs', rfl, hruns'⟩ | ⟨e', rfl, hmem'⟩
      · obtain ⟨r, hr⟩ := hruns'.isOk g s seq prompt _ (hpages ▸ hmem)
        cases hr
      · exact .inr ⟨hmode, e, e', rfl, rfl, hmem, hmem'⟩
  · have hblocks : blocks parallel browsers = browsers.map ([·]) := by
      unfold blocks
      rw [if_neg (by simpa using hmode)]
    rw [hblocks] at h h'
    refine .inl ?_
    rw [h.collects, h'.collects, hpages]

end Blocks

/-! ### Sessions that are played -/

section Played

variable {σ τ : Type} {g : Pages σ τ} {c : Clock} {s : Setting} {seq : Sequence} {prompt : Prompt}
  (hclock : ∀ st, c.shows (g.host.time st))

theorem going_of_runs {crew : Crew τ} {runs : List Run}
    (hruns : crew.map Prod.fst = runs.map fun r => .done (.ok r)) : Going crew := by
  intro e t hmem
  have hdone : .done (.error e) ∈ runs.map fun r => Script.done (Except.ok (ε := SessionError) r) :=
    hruns ▸ List.mem_map_of_mem hmem
  obtain ⟨r, -, hr⟩ := List.mem_map.mp hdone
  cases hr

include hclock

/-- To go through sessions one after the other is a way to await them, behind those of them that are
through. -/
theorem Collects.awaits {mode : List Text → Script (Except SessionError (List Run))}
    (hmode : Collects g.host (run s seq prompt) mode) {n : Nat} (browsers : List Text)
    (front : Crew τ) (runs : List Run) (st : σ) (hn : n ≤ front.length)
    (hfront : (front.drop n).map Prod.fst = runs.map fun r => .done (.ok r)) :
    ∃ last, Awaits c g.answer n (front ++ crewFrom g s seq prompt (g.opened st) browsers)
      (((mode browsers).play g.host st).value.1.map (runs ++ ·)) last := by
  induction browsers generalizing front runs st with
  | nil =>
    rw [hmode.nil]
    refine ⟨front, ?_⟩
    have hall : Awaits c g.answer n front (.ok runs) front := .results hfront
    simpa [crewFrom, Except.map] using hall
  | cons b rest ih =>
    have hmoves := run_moves g s seq prompt (movesAt_follows (c := c) hclock) b st
    obtain ⟨-, hopened⟩ := run_agrees g s seq prompt b st
    have hrest := crewFrom_going g s seq prompt (g.opened st + 1) rest
    generalize g.current ((run s seq prompt b).play g.host st).value.2 = page at hmoves
    rw [hmode.cons]
    cases hvalue : ((run s seq prompt b).play g.host st).value.1 with
    | error e =>
      rw [hvalue] at hmoves
      have hended : (.done (.error e), page) ∈
          (front ++ (.done (.error e), page) :: crewFrom g s seq prompt (g.opened st + 1) rest).drop
            n := by
        rw [List.drop_append_of_le_length hn]
        exact List.mem_append_right _ (.head _)
      exact ⟨_, .of_moves hmoves hn (going_of_runs hfront) hrest (.error hended)⟩
    | ok r =>
      rw [hvalue] at hmoves
      -- the session is through and stands with those in front
      have hthrough : ((front ++ [(.done (.ok r), page)] : Crew τ).drop n).map Prod.fst =
          (runs ++ [r]).map fun r => .done (.ok r) := by
        rw [List.drop_append_of_le_length hn, List.map_append, List.map_append, hfront]
        rfl
      obtain ⟨last, hlater⟩ := ih (front ++ [(.done (.ok r), page)]) (runs ++ [r]) _
        (by rw [List.length_append]; omega) hthrough
      rw [hopened, List.append_assoc] at hlater
      have hruns : ∀ others : Except SessionError (List Run),
          others.map (runs ++ [r] ++ ·) = (others.map (r :: ·)).map (runs ++ ·) := by
        rintro (e | others)
        · rfl
        · exact congrArg Except.ok (List.append_assoc runs [r] others)
      rw [hruns] at hlater
      exact ⟨last, .of_moves hmoves hn (going_of_runs hfront) hrest hlater⟩

end Played

end Session

end PlainSteps
