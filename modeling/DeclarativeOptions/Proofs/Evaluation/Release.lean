import DeclarativeOptions.Proofs.Evaluation.Chains
import DeclarativeOptions.Proofs.Evaluation.Parts

namespace DeclarativeOptions

namespace Approvals

variable {approvals : Approvals} {path : String} {v w : Value} {violation : SecurityViolation}

-- What may be part of a result: data, and capabilities that have been approved
def Admits (approvals : Approvals) (v : Value) : Prop :=
  ∀ lent, v = .capability lent → lent ∈ approvals.approved

theorem admits_capability {lent : Capability} :
    approvals.Admits (.capability lent) ↔ lent ∈ approvals.approved :=
  ⟨fun h => h lent rfl, fun h _ heq => Value.capability.inj heq ▸ h⟩

theorem requireAt_capability {lent : Capability} : approvals.requireAt path (.capability lent) =
    if lent ∈ approvals.approved then .ok (.capability lent) else .error ⟨path, lent⟩ := by
  simp [requireAt, Value.capability?]

theorem requireAt_eq_ok : approvals.requireAt path v = .ok w ↔ v = w ∧ approvals.Admits v := by
  cases v with
  | capability lent =>
    rw [requireAt_capability, admits_capability]
    by_cases h : lent ∈ approvals.approved <;> simp [h]
  | _ => simp [requireAt, Value.capability?, Admits]

theorem requireAt_eq_error : approvals.requireAt path v = .error violation ↔
    ∃ lent, v = .capability lent ∧ lent ∉ approvals.approved ∧ violation = ⟨path, lent⟩ := by
  cases v with
  | capability lent =>
    rw [requireAt_capability]
    by_cases h : lent ∈ approvals.approved
    · simp [h]
    · simp [h, eq_comm]
  | _ => simp [requireAt, Value.capability?]

end Approvals

namespace Environment

variable {env : Environment} {chain : Access} {v w : Value} {violation : SecurityViolation}
  {error : EvalError}

theorem access_eq_ok : (env.access chain).result = .ok w ↔
    (env.reach chain).result = .ok w ∧ env.approvals.Admits w := by
  rw [access, Traced.result_andThen_eq_ok]
  constructor
  · rintro ⟨v, hreach, h⟩
    obtain ⟨rfl, hadmits⟩ := Approvals.requireAt_eq_ok.mp (Traced.mapError_eq_ok.mp h)
    exact ⟨hreach, hadmits⟩
  · rintro ⟨hreach, hadmits⟩
    exact ⟨w, hreach, Traced.mapError_eq_ok.mpr (Approvals.requireAt_eq_ok.mpr ⟨rfl, hadmits⟩)⟩

-- The head of a chain fails only with the function that it calls
theorem head_eq_error {head : Head} : (env.head head).result = .error error ↔
    ∃ target argument function cause, head = .call target argument ∧
      env.scopes.functions target = some function ∧
      env.host.call function argument = .error cause ∧ error = .host cause := by
  cases head with
  | identifier name => simp [Environment.head]
  | call target argument =>
    simp only [Environment.head]
    cases hfunction : env.scopes.functions target with
    | none => simp [hfunction]
    | some function =>
      simp only [Traced.mapError_eq_error]
      constructor
      · rintro ⟨cause, hcall, rfl⟩
        exact ⟨target, argument, function, cause, rfl, hfunction, hcall, rfl⟩
      · rintro ⟨_, _, _, cause, hhead, hsome, hcall, rfl⟩
        obtain ⟨rfl, rfl⟩ := Head.call.inj hhead
        obtain rfl := Option.some.inj (hfunction.symm.trans hsome)
        exact ⟨cause, hcall, rfl⟩

-- Heads and reads fail for reasons of their own
theorem reach_ne_security : (env.reach chain).result ≠ .error (.security violation) := by
  intro h
  rw [reach] at h
  obtain h | ⟨v, -, h⟩ := Traced.result_andThen_eq_error.mp h
  · obtain ⟨_, _, _, _, -, -, -, hcause⟩ := head_eq_error.mp h
    simp at hcause
  · obtain ⟨cause, -, hcause⟩ := Traced.mapError_eq_error.mp h
    simp at hcause

theorem access_eq_security : (env.access chain).result = .error (.security violation) ↔
    ∃ lent, (env.reach chain).result = .ok (.capability lent) ∧ lent ∉ env.approvals.approved ∧
      violation = ⟨chain.path, lent⟩ := by
  rw [access, Traced.result_andThen_eq_error]
  constructor
  · rintro (h | ⟨v, hreach, h⟩)
    · exact absurd h reach_ne_security
    · obtain ⟨cause, hcause, heq⟩ := Traced.mapError_eq_error.mp h
      obtain ⟨lent, rfl, hlent, rfl⟩ := Approvals.requireAt_eq_error.mp hcause
      exact ⟨lent, hreach, hlent, (EvalError.security.inj heq).symm⟩
  · rintro ⟨lent, hreach, hlent, rfl⟩
    refine .inr ⟨_, hreach, Traced.mapError_eq_error.mpr ⟨_, ?_, rfl⟩⟩
    exact Approvals.requireAt_eq_error.mpr ⟨lent, rfl, hlent, rfl⟩

-- Approvals count at the end of a chain only
theorem access_congr_approvals {approvals : Approvals}
    (h : ∀ lent, (env.reach chain).result = .ok (.capability lent) →
      (lent ∈ env.approvals.approved ↔ lent ∈ approvals.approved)) :
    env.access chain = ({ env with approvals } : Environment).access chain := by
  have hreach : env.reach chain = ({ env with approvals } : Environment).reach chain :=
    reach_congr (by rfl) (by rfl)
  rw [access, access, ← hreach]
  refine Traced.andThen_congr fun v hv => ?_
  cases v with
  | capability lent => simp only [Approvals.requireAt_capability, h lent hv]
  | _ => rfl

-- A result that is a capability is the end of a chain
theorem admits_of_evaluate {e : Expr} (h : (env.evaluate e).result = .ok v) :
    env.approvals.Admits v := by
  cases e with
  | access chain => exact (access_eq_ok.mp h).2
  | array slots =>
    obtain ⟨values, -, rfl⟩ := evaluate_array_eq_ok.mp h
    simp [Approvals.Admits]
  | object pairs =>
    obtain ⟨entries, -, rfl⟩ := evaluate_object_eq_ok.mp h
    simp [Approvals.Admits]
  | _ =>
    obtain rfl := Except.ok.inj h
    simp [Approvals.Admits]

-- A chain ends on data or on an approved capability, or else it fails and says so. What a chain
-- reads on its way is never asked for.
theorem evaluate_releases (env : Environment) (e : Expr) :
    (∀ v, (env.evaluate e).result = .ok v → env.approvals.Admits v ∧
      ∀ path chain, e.at? path = some (.access chain) → ∃ w, v.at? path = some w ∧
        (env.reach chain).result = .ok w ∧ env.approvals.Admits w) ∧
    (∀ violation, (env.evaluate e).result = .error (.security violation) →
      ∃ chain ∈ e.chains, ∃ lent, violation.path = chain.path ∧
        (env.reach chain).result = .ok (.capability lent) ∧ lent ∉ env.approvals.approved ∧
        violation.lent.typeName = (Value.capability lent).typeName) ∧
    (∀ approvals : Approvals, (∀ chain ∈ e.chains, ∀ lent,
      (env.reach chain).result = .ok (.capability lent) →
        (lent ∈ env.approvals.approved ↔ lent ∈ approvals.approved)) →
      env.evaluate e = ({ env with approvals } : Environment).evaluate e) := by
  refine ⟨fun v h => ⟨admits_of_evaluate h, fun path chain hpart => ?_⟩, fun violation h => ?_,
    fun approvals h => ?_⟩
  · obtain ⟨w, hw, hchain⟩ := evaluate_at h hpart
    exact ⟨w, hw, access_eq_ok.mp hchain⟩
  · obtain ⟨front, chain, back, hchains, -, hchain⟩ := evaluate_error_iff.mp h
    obtain ⟨lent, hreach, hlent, rfl⟩ := access_eq_security.mp hchain
    exact ⟨chain, by simp [hchains], lent, rfl, hreach, hlent, rfl⟩
  · exact evaluate_congr fun chain hmem => access_congr_approvals (h chain hmem)

-- A function that has been approved is released through a global object that has not, wherever the
-- chain stands, and the global object itself is not released
theorem evaluate_releases_through_global :
    let host : Host := ⟨fun _ _ => .ok .undefined, fun _ _ => some (.capability (.function 4))⟩
    let env : Environment := ⟨host, ⟨[.function 4]⟩,
      { locals := fun _ => some (.capability (.globalObject 2)) }⟩
    let e : Expr := .object [("a", .null),
      ("a", .array [none, some (.access ⟨.identifier "g", [.name "f"]⟩)])]
    (∃ v, (env.evaluate e).result = .ok v ∧
      v.at? [.property "a", .slot 1] = some (.capability (.function 4))) ∧
    (env.evaluate (.access ⟨.identifier "g", []⟩)).result =
      .error (.security ⟨"g", .globalObject 2⟩) ∧
    Capability.globalObject 2 ∉ env.approvals.approved := by
  intro host env e
  have hok : (env.evaluate e).result =
      .ok (.object ⟨[("a", .array [none, some (.capability (.function 4))])]⟩) := rfl
  have herror : (env.evaluate (.access ⟨.identifier "g", []⟩)).result =
      .error (.security ⟨"g", .globalObject 2⟩) := rfl
  obtain ⟨-, hparts⟩ := (evaluate_releases env e).1 _ hok
  obtain ⟨w, hw, hreach, -⟩ := hparts [.property "a", .slot 1] ⟨.identifier "g", [.name "f"]⟩ rfl
  obtain rfl := Except.ok.inj hreach
  obtain ⟨chain, hmem, lent, -, hgate, hlent, -⟩ := (evaluate_releases env _).2.1 _ herror
  obtain rfl := List.mem_singleton.mp hmem
  obtain rfl := Value.capability.inj (Except.ok.inj hgate)
  exact ⟨⟨_, hok, hw⟩, herror, hlent⟩

end Environment

end DeclarativeOptions
