import Mathlib.Data.List.Forall2
import Mathlib.Logic.Relation
import PlainSteps.Proofs.Browser.Timeless

/-! # Sessions that take turns

Side by side, sessions go on in any order: one tells a line, reads the time or has a request
answered, and then it may be the turn of another. Each has a page of its own. So the turns of the
others show in a session in the times it reads and nowhere else, and scripts that make little of the
time come to the same end in every order. What the sessions come to together is all their results,
or the first error that one ends with.
-/

namespace PlainSteps

namespace Script

variable {α β τ : Type}

/-- One move of a script on a page of its own, at whatever time. -/
inductive Moves (answer : (q : Request) → τ → Except Fault q.Reply × τ) :
    Script α × τ → Script α × τ → Prop where
  | say (line : Text) (next : Script α) (t : τ) : Moves answer (.say line next, t) (next, t)
  | clock (next : Int → Script α) (t : τ) (ms : Int) : Moves answer (.clock next, t) (next ms, t)
  | ask (q : Request) (next : Except Fault q.Reply → Script α) (t : τ) :
      Moves answer (.ask q next, t) (next (answer q t).1, (answer q t).2)

/-- In a list of scripts, one makes a move. -/
inductive Turn (answer : (q : Request) → τ → Except Fault q.Reply × τ) :
    List (Script α × τ) → List (Script α × τ) → Prop where
  | this {x x' : Script α × τ} {rest : List (Script α × τ)} (moves : Moves answer x x') :
      Turn answer (x :: rest) (x' :: rest)
  | other {x : Script α × τ} {rest rest' : List (Script α × τ)} (turn : Turn answer rest rest') :
      Turn answer (x :: rest) (x :: rest')

section Course

variable {answer : (q : Request) → τ → Except Fault q.Reply × τ} {P : Request → Prop}
  {R : α → β → Prop}

/-- On its page a script keeps to the course of one that ends in a value, up to a relation. -/
def Toward (answer : (q : Request) → τ → Except Fault q.Reply × τ) (R : α → β → Prop) (b : β)
    (x : Script α × τ) : Prop :=
  ∃ y, Alike (fun _ => True) R x.1 y ∧ (y.play ⟨fun _ => 0, answer⟩ x.2).value.1 = b

/-- Behind a move a script is alike to one that has as much of the course before it. -/
theorem Alike.moves {x : Script α} {y : Script β} (h : Alike P R x y) {t : τ} {x' : Script α × τ}
    (hm : Moves answer (x, t) x') :
    ∃ y', Alike P R x'.1 y' ∧
      (y'.play ⟨fun _ => 0, answer⟩ x'.2).value.1 = (y.play ⟨fun _ => 0, answer⟩ t).value.1 := by
  induction h with
  | done related => cases hm
  | sayLeft line rest _ =>
    cases hm
    exact ⟨_, rest, rfl⟩
  | sayRight line rest ih => exact ih hm
  | clock rest _ =>
    cases hm
    exact ⟨_, rest _ 0, rfl⟩
  | ask allowed rest _ =>
    cases hm
    exact ⟨_, rest _, rfl⟩

theorem Alike.of_done {a : α} {x : Script α} {y : Script β} (h : Alike P R x y) (hx : x = .done a)
    {σ : Type} {g : Host σ} {s : σ} : R a (y.play g s).value.1 := by
  induction h with
  | done related =>
    cases hx
    exact related
  | sayRight line _ ih => exact ih hx
  | sayLeft | clock | ask => cases hx

theorem Toward.moves {b : β} {x x' : Script α × τ} (h : Toward answer R b x)
    (hm : Moves answer x x') :
    Toward answer R b x' := by
  obtain ⟨y, hxy, rfl⟩ := h
  exact hxy.moves hm

theorem Toward.of_done {b : β} {a : α} {t : τ} (h : Toward answer R b (.done a, t)) : R a b := by
  obtain ⟨y, hxy, rfl⟩ := h
  exact hxy.of_done rfl

/-- **A turn keeps every script on its course.** -/
theorem Turn.toward {crew crew' : List (Script α × τ)} (hturn : Turn answer crew crew') :
    ∀ {values : List β}, List.Forall₂ (Toward answer R) values crew →
    List.Forall₂ (Toward answer R) values crew' := by
  induction hturn with
  | this moves =>
    intro values h
    cases h with
    | cons first rest => exact .cons (first.moves moves) rest
  | other _ ih =>
    intro values h
    cases h with
    | cons first rest => exact .cons first (ih rest)

/-- Moves that a script can make which is played: it tells a line, reads a time of the host, or has
a request answered by its page. -/
structure Follows {σ : Type} (h : Host σ) (answer : (q : Request) → τ → Except Fault q.Reply × τ)
    (M : Script α × τ → Script α × τ → Prop) : Prop where
  say : ∀ line next t, M (.say line next, t) (next, t)
  clock : ∀ next t st, M (.clock next, t) (next (h.time st), t)
  ask : ∀ q next t, M (.ask q next, t) (next (answer q t).1, (answer q t).2)

theorem moves_follows {σ : Type} (h : Host σ) : Follows h answer (Moves (α := α) answer) where
  say := .say
  clock next t st := .clock next t (h.time st)
  ask := .ask

/-- A script that is played goes through moves to its end, if its page answers as the host does. -/
theorem Alike.movesTo {σ : Type} {h : Host σ} {M : Script α × τ → Script α × τ → Prop}
    {current : σ → τ} (hM : Follows h answer M)
    (hanswer : ∀ q, P q → ∀ s, (h.answer q s).1 = (answer q (current s)).1 ∧
      current (h.answer q s).2 = (answer q (current s)).2)
    {x : Script α} {y : Script β} (hxy : Alike P R x y) : ∀ s : σ,
      Relation.ReflTransGen M (x, current s) (.done (x.play h s).value.1,
        current (x.play h s).value.2) := by
  induction hxy with
  | done => exact fun s => .refl
  | sayLeft line _ ih => exact fun s => .head (hM.say line _ _) (ih s)
  | sayRight _ _ ih => exact ih
  | clock _ ih => exact fun s => .head (hM.clock _ _ s) (ih _ 0 s)
  | ask allowed _ ih =>
    rename_i q f g _
    intro s
    -- the page gives the answer of the host and is left as the host leaves it
    obtain ⟨hreply, hnext⟩ := hanswer q allowed s
    have hmove : M (.ask q f, current s) (f (h.answer q s).1, current (h.answer q s).2) := by
      rw [hreply, hnext]
      exact hM.ask q f (current s)
    exact .head hmove (ih _ _)

end Course

end Script

namespace Session

open Script

section Together

variable {τ : Type} {answer : (q : Request) → τ → Except Fault q.Reply × τ}
  {crew : List (Script (Except SessionError Run) × τ)} {outcome : Except SessionError (List Run)}

/-- No session has ended with an error. -/
def Going (crew : List (Script (Except SessionError Run) × τ)) : Prop :=
  ∀ e t, (.done (.error e), t) ∉ crew

/-- What sessions come to that take turns in some order: all results when every session has one, or
the error of the first that ends with one. -/
inductive Gathers (answer : (q : Request) → τ → Except Fault q.Reply × τ) :
    List (Script (Except SessionError Run) × τ) → Except SessionError (List Run) → Prop where
  | results {crew : List (Script (Except SessionError Run) × τ)} {runs : List Run}
      (ended : crew.map Prod.fst = runs.map fun r => .done (.ok r)) : Gathers answer crew (.ok runs)
  | error {crew : List (Script (Except SessionError Run) × τ)} {e : SessionError} {t : τ}
      (ended : (.done (.error e), t) ∈ crew) : Gathers answer crew (.error e)
  | turn {crew crew' : List (Script (Except SessionError Run) × τ)}
      {outcome : Except SessionError (List Run)}
      (going : Going crew) (turn : Turn answer crew crew') (later : Gathers answer crew' outcome) :
      Gathers answer crew outcome

theorem exists_of_forall₂ {β γ : Type} {R : β → γ → Prop} {xs : List β} {ys : List γ}
    (h : List.Forall₂ R xs ys) {y : γ} (hy : y ∈ ys) : ∃ x ∈ xs, R x y := by
  induction h with
  | nil => cases hy
  | cons first _ ih =>
    rcases List.mem_cons.mp hy with rfl | hy
    · exact ⟨_, .head _, first⟩
    · obtain ⟨x, hx, hxy⟩ := ih hy
      exact ⟨x, .tail _ hx, hxy⟩

/-- **In whatever order sessions take turns**, their results are those they were on course to, and
an error is that of a session. -/
theorem Gathers.ends {β : Type} {R : Except SessionError Run → β → Prop}
    (hgathers : Gathers answer crew outcome) {values : List β}
    (h : List.Forall₂ (Toward answer R) values crew) :
    (∃ runs, outcome = .ok runs ∧ List.Forall₂ (fun v r => R (.ok r) v) values runs) ∨
      ∃ e, outcome = .error e ∧ ∃ v ∈ values, R (.error e) v := by
  induction hgathers with
  | @results crew runs ended =>
    refine .inl ⟨runs, rfl, ?_⟩
    have hscripts : List.Forall₂ (fun v x => ∃ t, Toward answer R v (x, t)) values
        (crew.map Prod.fst) :=
      List.forall₂_map_right_iff.mpr (h.imp fun v x hx => ⟨x.2, hx⟩)
    rw [ended] at hscripts
    exact (List.forall₂_map_right_iff.mp hscripts).imp fun v r ⟨t, hr⟩ => hr.of_done
  | error ended =>
    obtain ⟨v, hv, hcourse⟩ := exists_of_forall₂ h ended
    exact .inr ⟨_, rfl, v, hv, hcourse.of_done⟩
  | turn _ hturn _ ih => exact ih (hturn.toward h)

/-! ### Orders of turns -/

/-- A session moves on alone until it ends. -/
theorem Gathers.of_moves {x x' : Script (Except SessionError Run) × τ}
    (hmoves : Relation.ReflTransGen (Moves answer) x x') (hcrew : Going crew)
    (h : Gathers answer (x' :: crew) outcome) : Gathers answer (x :: crew) outcome := by
  induction hmoves using Relation.ReflTransGen.head_induction_on with
  | refl => exact h
  | head hmove _ ih =>
    refine .turn ?_ (.this hmove) ih
    intro e t hmem
    rcases List.mem_cons.mp hmem with rfl | hmem
    · cases hmove
    · exact hcrew e t hmem

/-- Behind a session with a result, the others come to what they would without it. -/
theorem Gathers.behind (r : Run) (t : τ) (h : Gathers answer crew outcome) :
    Gathers answer ((.done (.ok r), t) :: crew) (outcome.map (r :: ·)) := by
  induction h with
  | results ended => exact .results (congrArg (_ :: ·) ended)
  | error ended => exact .error (.tail _ ended)
  | turn going hturn _ ih =>
    refine .turn ?_ (.other hturn) ih
    intro e u hmem
    rcases List.mem_cons.mp hmem with heq | hmem
    · cases heq
    · exact going e u hmem

end Together

end Session

end PlainSteps
