/-!
# Results that may be errors

A chain of steps succeeds exactly when every step does, so a successful chain can be taken apart
step by step.
-/

namespace ContractAbi.Outcome

variable {ε ε' α β : Type}

@[simp] theorem pure_eq (value : α) : (pure value : Except ε α) = .ok value := rfl

@[simp] theorem throw_eq (error : ε) : (throw error : Except ε α) = .error error := rfl

@[simp] theorem ok_bind (value : α) (next : α → Except ε β) :
    (Except.ok value >>= next) = next value := rfl

@[simp] theorem error_bind (error : ε) (next : α → Except ε β) :
    (Except.error error >>= next) = .error error := rfl

@[simp] theorem map_ok (change : α → β) (value : α) :
    change <$> (Except.ok value : Except ε α) = .ok (change value) := rfl

@[simp] theorem map_error (change : α → β) (error : ε) :
    change <$> (Except.error error : Except ε α) = .error error := rfl

@[simp] theorem mapError_ok (change : ε → ε') (value : α) :
    (Except.ok value : Except ε α).mapError change = .ok value := rfl

@[simp] theorem mapError_error (change : ε → ε') (error : ε) :
    (Except.error error : Except ε α).mapError change = .error (change error) := rfl

/-- Two steps succeed when the first one does and the second one does with its result. -/
theorem bind_eq_ok {first : Except ε α} {next : α → Except ε β} {result : β} :
    (first >>= next) = .ok result ↔ ∃ value, first = .ok value ∧ next value = .ok result := by
  cases first <;> simp

/-- A changed result is the change of a result. -/
theorem map_eq_ok {outcome : Except ε α} {change : α → β} {result : β} :
    change <$> outcome = .ok result ↔ ∃ value, outcome = .ok value ∧ change value = result := by
  cases outcome <;> simp

/-- Two steps fail when the first one does, or the second one does with its result. -/
theorem bind_eq_error {first : Except ε α} {next : α → Except ε β} {error : ε} :
    (first >>= next) = .error error ↔
      first = .error error ∨ ∃ value, first = .ok value ∧ next value = .error error := by
  cases first <;> simp

/-- A change of the result keeps the error. -/
theorem map_eq_error {outcome : Except ε α} {change : α → β} {error : ε} :
    change <$> outcome = .error error ↔ outcome = .error error := by
  cases outcome <;> simp

/-- A change of the error keeps the result. -/
theorem mapError_eq_ok {outcome : Except ε α} {change : ε → ε'} {result : α} :
    outcome.mapError change = .ok result ↔ outcome = .ok result := by
  cases outcome <;> simp

/-- A changed error is the change of an error. -/
theorem mapError_eq_error {outcome : Except ε α} {change : ε → ε'} {error : ε'} :
    outcome.mapError change = .error error ↔
      ∃ fault, outcome = .error fault ∧ change fault = error := by
  cases outcome <;> simp

theorem toOption_eq_some {outcome : Except ε α} {result : α} :
    outcome.toOption = some result ↔ outcome = .ok result := by
  cases outcome <;> simp [Except.toOption]

/-- Changing items before a step that commutes with the change changes all the results. -/
theorem mapM_map {step : α → Except ε β} {change : α → α} {changeResult : β → β}
    (commutes : ∀ item, step (change item) = changeResult <$> step item) (items : List α) :
    (items.map change).mapM step = List.map changeResult <$> items.mapM step := by
  induction items with
  | nil => rfl
  | cons item items inductionHypothesis =>
    rw [List.map_cons, List.mapM_cons, List.mapM_cons, commutes, inductionHypothesis]
    cases step item with
    | error => rfl
    | ok => cases items.mapM step <;> rfl

end ContractAbi.Outcome
