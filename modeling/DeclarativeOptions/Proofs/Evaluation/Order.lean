import DeclarativeOptions.Proofs.Evaluation.Chains
import Mathlib.Data.List.Basic

namespace DeclarativeOptions.Environment

variable {env : Environment} {chains : List Access} {error : EvalError}

-- Whether a chain fails when it is evaluated alone
def fails (env : Environment) (chain : Access) : Bool :=
  !(env.evaluate (.access chain)).result.isOk

-- The call that a chain begins with, if the target of the call is bound
def invocation? (env : Environment) (chain : Access) : Option Call :=
  match chain.head with
  | .identifier _ => none
  | .call target argument => (env.scopes.functions target).map fun function => ⟨function, argument⟩

-- The chains up to the first one that fails, and that one
def attempted (env : Environment) (chains : List Access) : List Access :=
  chains.take (chains.findIdx env.fails + 1)

private theorem fails_of_ok {chain : Access} {v : Value} (h : (env.access chain).result = .ok v) :
    env.fails chain = false := by
  simp [fails, evaluate, h, Except.isOk, Except.toBool]

private theorem fails_of_error {chain : Access} (h : (env.access chain).result = .error error) :
    env.fails chain = true := by
  simp [fails, evaluate, h, Except.isOk, Except.toBool]

private theorem attempted_cons_of_fails {chain : Access} (h : env.fails chain = true) :
    env.attempted (chain :: chains) = [chain] := by
  simp [attempted, List.findIdx_cons, h]

private theorem attempted_cons_of_not_fails {chain : Access} (h : env.fails chain = false) :
    env.attempted (chain :: chains) = chain :: env.attempted chains := by
  simp [attempted, List.findIdx_cons, h]

-- A chain calls the host before any of its reads, and its reads and the gate call nothing
theorem calls_access (env : Environment) (chain : Access) :
    (env.access chain).calls = (env.invocation? chain).toList := by
  rw [access, Traced.calls_andThen_ofExcept, reach, Traced.calls_andThen_ofExcept]
  unfold head invocation?
  cases chain.head with
  | identifier name => rfl
  | call target argument =>
    cases hfunction : env.scopes.functions target with
    | none => simp [hfunction]
    | some function => simp [hfunction]

theorem calls_accessAll (env : Environment) (chains : List Access) :
    (env.accessAll chains).calls = (env.attempted chains).filterMap env.invocation? := by
  rw [List.filterMap_eq_flatMap_toList]
  induction chains with
  | nil => rfl
  | cons chain rest ih =>
    have hcalls := calls_access env chain
    cases hchain : (env.access chain).result with
    | error error =>
      rw [accessAll, Traced.andThen_of_error hchain,
        attempted_cons_of_fails (fails_of_error hchain), List.flatMap_singleton, hcalls]
    | ok value =>
      have hrest : ((env.accessAll rest).andThen fun values => pure (value :: values)).calls =
          (env.accessAll rest).calls :=
        Traced.calls_andThen_ofExcept _ fun values => .ok (value :: values)
      rw [accessAll, Traced.andThen_of_ok hchain,
        attempted_cons_of_not_fails (fails_of_ok hchain), List.flatMap_cons, hrest, ih, hcalls]

-- The chains of an expression are evaluated from left to right, up to the first one that fails when
-- it is evaluated alone, and each of them calls the host once if it begins with a call of a
-- function that is bound
theorem evaluate_in_order (env : Environment) (e : Expr) :
    ((∃ v, (env.evaluate e).result = .ok v) ↔
      ∀ chain ∈ e.chains, ∃ v, (env.evaluate (.access chain)).result = .ok v) ∧
    (∀ error, (env.evaluate e).result = .error error ↔
      ∃ front chain back, e.chains = front ++ chain :: back ∧
        (∀ earlier ∈ front, ∃ v, (env.evaluate (.access earlier)).result = .ok v) ∧
        (env.evaluate (.access chain)).result = .error error) ∧
    (env.evaluate e).calls = (env.attempted e.chains).filterMap env.invocation? := by
  have hcalls : (env.evaluate e).calls = (env.accessAll e.chains).calls := by
    rw [evaluate_eq_accessAll]
    exact Traced.calls_andThen_ofExcept _ fun values => .ok (e.fill values)
  exact ⟨evaluate_ok_iff, fun error => evaluate_error_iff, hcalls.trans (calls_accessAll env _)⟩

-- The second pair of a repeated key fails: the first one has called the host, although its value
-- would have been replaced, and the pair behind the failure has not
theorem evaluate_in_order_repeated_key :
    let env : Environment := ⟨.idle, .empty, { functions := fun _ => some 7 }⟩
    let e : Expr := .object [("a", .access ⟨.call "f" "x", []⟩),
      ("a", .access ⟨.identifier "b", [.name "c"]⟩), ("d", .access ⟨.call "f" "y", []⟩)]
    (env.evaluate e).calls = [⟨7, "x"⟩] ∧
      (env.evaluate e).result = .error (.propertyAccess ⟨"c", .undefined, "b"⟩) := by
  intro env e
  obtain ⟨-, herror, hcalls⟩ := evaluate_in_order env e
  refine ⟨hcalls.trans rfl, (herror _).mpr ⟨[_], _, [_], rfl, ?_, rfl⟩⟩
  exact List.forall_mem_singleton.mpr ⟨.undefined, rfl⟩

end DeclarativeOptions.Environment
