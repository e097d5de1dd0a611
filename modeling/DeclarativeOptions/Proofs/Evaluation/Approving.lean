import DeclarativeOptions.Proofs.Evaluation.Release

namespace DeclarativeOptions

namespace Traced

-- What a computation may become when more is approved: the same, or, if an approval was missing,
-- one that has called the host in the same way and perhaps more
inductive LoosensTo {α : Type} : Traced α → Traced α → Prop where
  | same (x : Traced α) : LoosensTo x x
  | released {x y : Traced α} {violation : SecurityViolation}
      (hresult : x.result = .error (.security violation)) (hcalls : x.calls <+: y.calls) :
      LoosensTo x y

variable {α β : Type} {x y : Traced α} {f g : α → Traced β} {error : EvalError}

theorem LoosensTo.eq (h : LoosensTo x y)
    (hother : ∀ violation, x.result ≠ .error (.security violation)) : y = x := by
  cases h with
  | same => rfl
  | released hresult _ => exact absurd hresult (hother _)

theorem LoosensTo.calls_prefix (h : LoosensTo x y) : x.calls <+: y.calls := by
  cases h with
  | same => exact List.prefix_rfl
  | released _ hcalls => exact hcalls

private theorem calls_prefix_andThen (x : Traced α) (f : α → Traced β) :
    x.calls <+: (x.andThen f).calls := by
  cases h : x.result with
  | error error => simp [andThen_of_error h]
  | ok a => simp [andThen_of_ok h]

theorem LoosensTo.behind (h : LoosensTo x y) (calls : List Call) :
    LoosensTo ⟨calls ++ x.calls, x.result⟩ ⟨calls ++ y.calls, y.result⟩ := by
  cases h with
  | same => exact .same _
  | released hresult hcalls =>
    exact .released hresult ((List.prefix_append_right_inj calls).mpr hcalls)

-- Computations in a row loosen together. Behind a missing approval nothing has run, so whatever
-- runs there once it is given only adds calls.
theorem LoosensTo.andThen (hx : LoosensTo x y) (hf : ∀ a, LoosensTo (f a) (g a)) :
    LoosensTo (x.andThen f) (y.andThen g) := by
  cases hx with
  | same =>
    cases h : x.result with
    | error error =>
      rw [andThen_of_error h, andThen_of_error h]
      exact .same _
    | ok a =>
      rw [andThen_of_ok h, andThen_of_ok h]
      exact (hf a).behind x.calls
  | released hresult hcalls =>
    rw [andThen_of_error hresult]
    exact .released rfl (hcalls.trans (calls_prefix_andThen y g))

end Traced

namespace Environment

open Traced

variable {env : Environment} {approvals : Approvals}

private theorem loosensTo_requireAt (hsubset : env.approvals.approved ⊆ approvals.approved)
    (path : String) (v : Value) :
    LoosensTo (.ofExcept ((env.approvals.requireAt path v).mapError EvalError.security))
      (.ofExcept ((approvals.requireAt path v).mapError EvalError.security)) := by
  cases hgate : env.approvals.requireAt path v with
  | ok w =>
    obtain ⟨rfl, hadmits⟩ := Approvals.requireAt_eq_ok.mp hgate
    have hgate' : approvals.requireAt path v = .ok v :=
      Approvals.requireAt_eq_ok.mpr ⟨rfl, fun lent hlent => hsubset (hadmits lent hlent)⟩
    rw [hgate']
    exact .same _
  | error violation => exact .released rfl List.nil_prefix

private theorem loosensTo_access (hsubset : env.approvals.approved ⊆ approvals.approved)
    (chain : Access) :
    LoosensTo (env.access chain) (({ env with approvals } : Environment).access chain) := by
  have hreach : env.reach chain = ({ env with approvals } : Environment).reach chain :=
    reach_congr (by rfl) (by rfl)
  rw [access, access, ← hreach]
  exact (LoosensTo.same _).andThen (loosensTo_requireAt hsubset chain.path)

private theorem loosensTo_accessAll (hsubset : env.approvals.approved ⊆ approvals.approved)
    (chains : List Access) :
    LoosensTo (env.accessAll chains) (({ env with approvals } : Environment).accessAll chains) := by
  induction chains with
  | nil => exact .same _
  | cons chain rest ih =>
    exact (loosensTo_access hsubset chain).andThen fun value =>
      ih.andThen fun values => .same (pure (value :: values))

-- A record that has a value keeps it when more is approved, a record that fails for another reason
-- than an approval fails as before, and one that was held back only goes further. The gate lets
-- through or stops, and does nothing else.
theorem evaluate_under_more_approvals (env : Environment) (approvals : Approvals)
    (hsubset : env.approvals.approved ⊆ approvals.approved) (e : Expr) :
    let before := env.evaluate e
    let after := ({ env with approvals } : Environment).evaluate e
    (∀ v, before.result = .ok v → after.result = .ok v ∧ after.calls = before.calls) ∧
    (∀ fault, before.result = .error (.propertyAccess fault) →
      after.result = .error (.propertyAccess fault) ∧ after.calls = before.calls) ∧
    (∀ cause, before.result = .error (.host cause) →
      after.result = .error (.host cause) ∧ after.calls = before.calls) ∧
    (∀ violation, before.result = .error (.security violation) →
      before.calls <+: after.calls) := by
  intro before after
  have h : LoosensTo before after := by
    simp only [before, after, evaluate_eq_accessAll]
    exact (loosensTo_accessAll hsubset e.chains).andThen fun values => .same (pure (e.fill values))
  have hkeeps {result : Except EvalError Value} (hresult : before.result = result)
      (hother : ∀ violation, result ≠ .error (.security violation)) :
      after.result = result ∧ after.calls = before.calls := by
    have heq : after = before := h.eq (by rwa [hresult])
    exact ⟨heq ▸ hresult, by rw [heq]⟩
  exact ⟨fun v hv => hkeeps hv nofun, fun fault hfault => hkeeps hfault (by simp),
    fun cause hcause => hkeeps hcause (by simp), fun _ _ => h.calls_prefix⟩

-- The function in the middle is held back until it is approved, and only then is the function
-- behind it called. A record that holds nothing back stays as it is.
theorem evaluate_under_more_approvals_released :
    let host : Host := ⟨fun _ argument => .ok (.string argument), fun _ _ => none⟩
    let env : Environment := ⟨host, .empty,
      { locals := fun _ => some (.capability (.function 4)), functions := fun _ => some 1 }⟩
    let approvals : Approvals := ⟨[.function 4]⟩
    let after : Environment := { env with approvals }
    let call (argument : String) : Expr := .access ⟨.call "f" argument, []⟩
    let e : Expr := .array [some (call "x"), some (.access ⟨.identifier "g", []⟩), some (call "y")]
    env.approvals.approved ⊆ approvals.approved ∧
      ((env.evaluate e).result = .error (.security ⟨"g", .function 4⟩) ∧
        (env.evaluate e).calls <+: (after.evaluate e).calls) ∧
      ((env.evaluate (call "x")).result = .ok (.string "x") ∧
        (after.evaluate (call "x")).result = .ok (.string "x")) := by
  intro host env approvals after call e
  have hsubset : env.approvals.approved ⊆ approvals.approved := List.nil_subset _
  have hwithheld : (env.evaluate e).result = .error (.security ⟨"g", .function 4⟩) := rfl
  have hvalue : (env.evaluate (call "x")).result = .ok (.string "x") := rfl
  obtain ⟨-, -, -, hcalls⟩ := evaluate_under_more_approvals env approvals hsubset e
  obtain ⟨hkept, -⟩ := evaluate_under_more_approvals env approvals hsubset (call "x")
  exact ⟨hsubset, ⟨hwithheld, hcalls _ hwithheld⟩, hvalue, (hkept _ hvalue).1⟩

end Environment

end DeclarativeOptions
