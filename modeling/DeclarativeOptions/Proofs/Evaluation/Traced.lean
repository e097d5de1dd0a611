import DeclarativeOptions.Evaluation.Traced

namespace DeclarativeOptions.Traced

variable {α β γ : Type} {x : Traced α} {f g : α → Traced β} {error : EvalError}

@[simp] theorem calls_pure (a : α) : (pure a : Traced α).calls = [] := rfl

@[simp] theorem result_pure (a : α) : (pure a : Traced α).result = .ok a := rfl

theorem pure_andThen (a : α) (f : α → Traced β) : andThen (pure a) f = f a := rfl

theorem andThen_of_ok {a : α} (h : x.result = .ok a) :
    x.andThen f = ⟨x.calls ++ (f a).calls, (f a).result⟩ := by
  simp only [andThen, h]

theorem andThen_of_error (h : x.result = .error error) :
    x.andThen f = ⟨x.calls, .error error⟩ := by
  simp only [andThen, h]

theorem andThen_pure (x : Traced α) : (x.andThen fun a => pure a) = x := by
  cases h : x.result with
  | ok a =>
    rw [andThen_of_ok h, calls_pure, result_pure, List.append_nil, ← h]
  | error error => rw [andThen_of_error h, ← h]

theorem andThen_assoc (x : Traced α) (f : α → Traced β) (g : β → Traced γ) :
    (x.andThen f).andThen g = x.andThen fun a => (f a).andThen g := by
  cases h : x.result with
  | error error =>
    have hboth : (x.andThen f).result = .error error := by rw [andThen_of_error h]
    rw [andThen_of_error hboth, andThen_of_error h, andThen_of_error h]
  | ok a =>
    rw [andThen_of_ok h, andThen_of_ok h]
    cases hf : (f a).result with
    | error error => simp [andThen, hf]
    | ok b => simp [andThen, hf]

-- Only the value of the first computation reaches the second one
theorem andThen_congr (h : ∀ a, x.result = .ok a → f a = g a) : x.andThen f = x.andThen g := by
  cases hx : x.result with
  | error error => rw [andThen_of_error hx, andThen_of_error hx]
  | ok a => rw [andThen_of_ok hx, andThen_of_ok hx, h a hx]

theorem result_andThen_eq_ok {b : β} :
    (x.andThen f).result = .ok b ↔ ∃ a, x.result = .ok a ∧ (f a).result = .ok b := by
  cases h : x.result with
  | error error => simp [andThen_of_error h]
  | ok a => simp [andThen_of_ok h]

theorem result_andThen_eq_error :
    (x.andThen f).result = .error error ↔
      x.result = .error error ∨ ∃ a, x.result = .ok a ∧ (f a).result = .error error := by
  cases h : x.result with
  | error error => simp [andThen_of_error h]
  | ok a => simp [andThen_of_ok h]

-- What is done to a value without the host calls nothing
theorem calls_andThen_ofExcept (x : Traced α) (f : α → Except EvalError β) :
    (x.andThen fun a => .ofExcept (f a)).calls = x.calls := by
  cases h : x.result with
  | error error => rw [andThen_of_error h]
  | ok a =>
    rw [andThen_of_ok h]
    exact List.append_nil _

-- A failure may be told in other words, which changes nothing else
theorem mapError_eq_ok {ε ε' : Type} {f : ε → ε'} {x : Except ε α} {a : α} :
    x.mapError f = .ok a ↔ x = .ok a := by
  cases x with
  | ok b =>
    constructor
    · exact fun h => congrArg Except.ok (Except.ok.inj h)
    · exact fun h => congrArg Except.ok (Except.ok.inj h)
  | error cause => exact ⟨nofun, nofun⟩

theorem mapError_eq_error {ε ε' : Type} {f : ε → ε'} {x : Except ε α} {e : ε'} :
    x.mapError f = .error e ↔ ∃ cause, x = .error cause ∧ f cause = e := by
  cases x with
  | ok b => exact ⟨nofun, nofun⟩
  | error cause =>
    constructor
    · exact fun h => ⟨cause, rfl, Except.error.inj h⟩
    · rintro ⟨found, h, rfl⟩
      obtain rfl := Except.error.inj h
      rfl

end DeclarativeOptions.Traced
