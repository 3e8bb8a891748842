/-! Results that may be errors, and what their stages say about them. -/

namespace Stencil.Outcome

variable {ε ε' α α' β : Type}

theorem toOption_bind (result : Except ε α) (next : α → Except ε β)
    : (result >>= next).toOption = result.toOption.bind fun a => (next a).toOption := by
  cases result <;> rfl

theorem toOption_map (result : Except ε α) (f : α → β)
    : (result.map f).toOption = result.toOption.map f := by
  cases result <;> rfl

theorem toOption_eq_some_iff {result : Except ε α} {a : α}
    : result.toOption = some a ↔ result = .ok a := by
  cases result <;> simp [Except.toOption]

theorem bind_eq_ok_iff {result : Except ε α} {next : α → Except ε β} {last : β}
    : (result >>= next) = .ok last ↔ ∃ a, result = .ok a ∧ next a = .ok last := by
  cases result <;> simp [bind, Except.bind]

theorem map_eq_ok_iff {result : Except ε α} {f : α → β} {last : β}
    : result.map f = .ok last ↔ ∃ a, result = .ok a ∧ f a = last := by
  cases result <;> simp [Except.map]

theorem bind_eq_error_iff {result : Except ε α} {next : α → Except ε β} {cause : ε}
    : (result >>= next) = .error cause
      ↔ result = .error cause ∨ ∃ a, result = .ok a ∧ next a = .error cause := by
  cases result <;> simp [bind, Except.bind]

theorem map_eq_error_iff {result : Except ε α} {f : α → β} {cause : ε}
    : result.map f = .error cause ↔ result = .error cause := by
  cases result <;> simp [Except.map]

/-- The cause of a result that is an error. -/
def cause? : Except ε α → Option ε
  | .ok _ => none
  | .error cause => some cause

theorem cause?_eq_some_iff {result : Except ε α} {cause : ε}
    : cause? result = some cause ↔ result = .error cause := by
  cases result <;> simp [cause?]

theorem cause?_map (result : Except ε α) (f : α → β) : cause? (result.map f) = cause? result := by
  cases result <;> rfl

/-- Of two stages that both have to give a result, the first that fails is the cause. -/
theorem cause?_bind_bind (first : Except ε α) (second : Except ε α') (f : α → α' → β)
    : cause? (first >>= fun a => second >>= fun a' => .ok (f a a'))
      = (cause? first).or (cause? second) := by
  cases first <;> cases second <;> rfl

/-- Two results that are the same error, or values that are related. -/
inductive Related (R : α → β → Prop) : Except ε α → Except ε β → Prop
  | error (cause : ε) : Related R (.error cause) (.error cause)
  | ok {a : α} {b : β} (related : R a b) : Related R (.ok a) (.ok b)

theorem related_eq (result : Except ε α) : Related Eq result result := by
  cases result with
  | error cause => exact .error cause
  | ok value => exact .ok rfl

theorem Related.eq {result result' : Except ε α} (h : Related Eq result result')
    : result' = result := by
  cases h with
  | error cause => rfl
  | ok same => rw [same]

theorem Related.mapError {R : α → β → Prop} {result : Except ε α} {result' : Except ε β}
    (h : Related R result result') (f : ε → ε')
    : Related R (result.mapError f) (result'.mapError f) := by
  cases h with
  | error cause => exact .error _
  | ok related => exact .ok related

theorem mapError_ok (f : ε → ε') (a : α) : (Except.ok a : Except ε α).mapError f = .ok a :=
  rfl

theorem mapError_error (f : ε → ε') (cause : ε)
    : (Except.error cause : Except ε α).mapError f = .error (f cause) :=
  rfl

theorem mapError_bind (f : ε → ε') (result : Except ε α) (next : α → Except ε β)
    : (result >>= next).mapError f = result.mapError f >>= fun a => (next a).mapError f := by
  cases result <;> rfl

theorem mapError_map (f : ε → ε') (result : Except ε α) (g : α → β)
    : (result.map g).mapError f = (result.mapError f).map g := by
  cases result <;> rfl

theorem mapError_eq_error_iff {f : ε → ε'} {result : Except ε α} {fault : ε'}
    : result.mapError f = .error fault ↔ ∃ cause, result = .error cause ∧ f cause = fault := by
  cases result <;> simp [mapError_ok, mapError_error]

end Stencil.Outcome
