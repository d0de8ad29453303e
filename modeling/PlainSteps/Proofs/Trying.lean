import PlainSteps.Intent.Classifier

/-! # What a computation with a log ends in

The lines told never decide anything: the result of a sequence of computations is that of their
results. The lemmas here read the result of each way to build a computation, so that proofs about
compiling never open the log. Where a computation has one way to fail, the condition for it is put
together from those of its parts.
-/

namespace PlainSteps

variable {ε δ α β γ : Type}

theorem map_eq_ok_iff {f : α → β} {r : Except ε α} {b : β} :
    r.map f = .ok b ↔ ∃ a, r = .ok a ∧ f a = b := by
  cases r <;> simp [Except.map]

theorem eq_ok_of_toOption {r : Except ε α} {a : α} (h : r.toOption = some a) : r = .ok a := by
  cases r with
  | error e => cases h
  | ok b => exact congrArg _ (Option.some.inj h)

theorem bind_eq_ok_iff {f : α → Except ε β} {r : Except ε α} {b : β} :
    r.bind f = .ok b ↔ ∃ a, r = .ok a ∧ f a = .ok b := by
  cases r <;> simp [Except.bind]

theorem bind_eq_error_iff {f : α → Except ε β} {r : Except ε α} {e : ε} :
    r.bind f = .error e ↔ r = .error e ∨ ∃ a, r = .ok a ∧ f a = .error e := by
  cases r <;> simp [Except.bind]

@[simp] theorem mapError_ok (f : δ → ε) (a : α) : (Except.ok a : Except δ α).mapError f = .ok a :=
  rfl

@[simp] theorem mapError_error (f : δ → ε) (d : δ) :
    (Except.error d : Except δ α).mapError f = .error (f d) := rfl

theorem mapError_eq_ok_iff {f : δ → ε} {r : Except δ α} {a : α} :
    r.mapError f = .ok a ↔ r = .ok a := by
  cases r <;> simp

theorem mapError_eq_error_iff {f : δ → ε} {r : Except δ α} {e : ε} :
    r.mapError f = .error e ↔ ∃ d, r = .error d ∧ e = f d := by
  cases r <;> simp [eq_comm]

namespace Trying

/-- The result of a computation, without its lines. -/
def result (x : Trying ε α) : Except ε α := (ExceptT.run x).value

@[simp] theorem result_pure (a : α) : result (pure a : Trying ε α) = .ok a := rfl

@[simp] theorem result_say (line : Text) : result (say line : Trying ε Unit) = .ok () := rfl

@[simp] theorem result_lift (x : Told α) : result (ExceptT.lift x : Trying ε α) = .ok x.value := rfl

@[simp] theorem result_mk (r : Except ε α) : result (ExceptT.mk (pure r) : Trying ε α) = r := rfl

@[simp] theorem result_adapt (f : δ → ε) (x : Trying δ α) :
    result (ExceptT.adapt f x : Trying ε α) = x.result.mapError f := rfl

@[simp] theorem result_bind (x : Trying ε α) (f : α → Trying ε β) :
    result (x >>= f) = x.result.bind fun a => (f a).result := by
  show (ExceptT.bindCont f (ExceptT.run x).value).value = _
  unfold result
  cases (ExceptT.run x).value <;> rfl

@[simp] theorem result_map (f : α → β) (x : Trying ε α) :
    result (f <$> x) = x.result.map f := by
  rw [map_eq_pure_bind, result_bind]
  cases x.result <;> rfl

/-- What follows a computation matters only for the value it ends in. -/
theorem bind_congr {x : Trying ε α} {f g : α → Trying ε β} (h : ∀ a, x.result = .ok a → f a = g a) :
    x >>= f = x >>= g := by
  obtain ⟨value, lines⟩ := x
  cases value with
  | error e => rfl
  | ok a =>
    have hsame : f a = g a := h a rfl
    show Told.bind ⟨.ok a, lines⟩ (ExceptT.bindCont f) =
      Told.bind ⟨.ok a, lines⟩ (ExceptT.bindCont g)
    unfold Told.bind ExceptT.bindCont
    dsimp only
    rw [hsame]

/-! ### One way to fail -/

/-- A computation that fails just when a condition holds, and then for one reason. -/
def FailsWhen (x : Trying ε α) (why : ε) (P : Prop) : Prop := ∀ e, x.result = .error e ↔ e = why ∧ P

variable {why : ε} {P Q : Prop}

theorem FailsWhen.congr {x : Trying ε α} (hx : FailsWhen x why P) (h : P ↔ Q) : FailsWhen x why Q :=
  fun e => (hx e).trans (and_congr_right fun _ => h)

theorem failsWhen_of_ok {x : Trying ε α} {a : α} (h : x.result = .ok a) :
    FailsWhen x why False := by
  intro e
  simp [h]

theorem FailsWhen.not_of_ok {x : Trying ε α} {a : α} (hx : FailsWhen x why P)
    (h : x.result = .ok a) : ¬ P := by
  intro hp
  have herror := (hx why).mpr ⟨rfl, hp⟩
  rw [h] at herror
  cases herror

theorem FailsWhen.bind {x : Trying ε α} {f : α → Trying ε β} (hx : FailsWhen x why P)
    (hf : ∀ a, x.result = .ok a → FailsWhen (f a) why Q) : FailsWhen (x >>= f) why (P ∨ Q) := by
  intro e
  rw [result_bind]
  cases hresult : x.result with
  | error d =>
    obtain ⟨rfl, hp⟩ := (hx d).mp hresult
    simp only [Except.bind, Except.error.injEq]
    exact ⟨fun h => ⟨h.symm, .inl hp⟩, fun h => h.1.symm⟩
  | ok a =>
    show (f a).result = .error e ↔ _
    rw [hf a hresult e, or_iff_right (hx.not_of_ok hresult)]

theorem FailsWhen.map {x : Trying ε α} (hx : FailsWhen x why P) (f : α → β) :
    FailsWhen (f <$> x) why P := by
  rw [map_eq_pure_bind]
  exact (hx.bind fun _ _ => failsWhen_of_ok rfl).congr (or_iff_left id)

/-- Two computations, the second for the sake of its own part of the value. -/
theorem FailsWhen.both {x : Trying ε α} {y : Trying ε β} (hx : FailsWhen x why P)
    (hy : FailsWhen y why Q) (f : α → β → γ) :
    FailsWhen (do let a ← x; let b ← y; return f a b) why (P ∨ Q) :=
  hx.bind fun a _ => hy.map (f a)

end Trying

end PlainSteps
