import DeclarativeOptions.Proofs.Evaluation.Reading
import DeclarativeOptions.Proofs.Value.Every

namespace DeclarativeOptions.Environment

open Value

-- What is so of every value that an evaluation takes from its surroundings: what names are bound
-- to, what functions answer, and what is in the global objects of which it is so
structure Supplies (env : Environment) (p : Value → Bool) : Prop where
  resolve (name : String) : (env.scopes.resolve name).every p = true
  call {function : Nat} {argument : String} {v : Value}
    (h : env.host.call function argument = .ok v) : v.every p = true
  lookup {identity : Nat} {name : String} {v : Value}
    (hp : p (.capability (.globalObject identity)) = true)
    (h : env.host.lookup identity name = some v) : v.every p = true

variable {env : Environment} {p : Value → Bool} {chain : Access} {v w : Value}

theorem every_resolve (hp : Innate p) {scopes : Scopes} {name : String}
    (hlocal : ∀ v, scopes.locals name = some v → v.every p = true)
    (hglobal : ∀ v, scopes.globals name = some v → v.every p = true) :
    (scopes.resolve name).every p = true := by
  rw [Scopes.resolve]
  cases hlocals : scopes.locals name with
  | some v => exact hlocal v hlocals
  | none =>
    rw [Option.none_or]
    cases hglobals : scopes.globals name with
    | some v => exact hglobal v hglobals
    | none => exact hp.scalar undefined rfl rfl

theorem Supplies.head (h : env.Supplies p) (hp : Innate p) {head : Head}
    (hv : (env.head head).result = .ok v) : v.every p = true := by
  cases head with
  | identifier name =>
    obtain rfl := Except.ok.inj hv
    exact h.resolve name
  | call target argument =>
    rw [Environment.head] at hv
    cases hfunction : env.scopes.functions target with
    | none =>
      rw [hfunction] at hv
      obtain rfl := Except.ok.inj hv
      exact hp.scalar undefined rfl rfl
    | some function =>
      rw [hfunction] at hv
      exact h.call (Traced.mapError_eq_ok.mp hv)

theorem Supplies.reads (h : env.Supplies p) (hp : Innate p) {tail : List Accessor}
    (hv : v.every p = true) (hw : env.reads chain v tail = .ok w) : w.every p = true := by
  induction tail generalizing chain v with
  | nil => exact Except.ok.inj hw ▸ hv
  | cons read rest ih =>
    rw [Environment.reads] at hw
    cases hnext : v.property env.host read.key with
    | error receiver => simp [hnext] at hw
    | ok next =>
      rw [hnext] at hw
      exact ih (every_property hp hv (fun _ _ => h.lookup) hnext) hw

theorem Supplies.reach (h : env.Supplies p) (hp : Innate p)
    (hv : (env.reach chain).result = .ok v) : v.every p = true := by
  obtain ⟨w, hhead, hreads⟩ := reach_eq_ok.mp hv
  exact h.reads hp (h.head hp hhead) hreads

mutual

-- What is so of all that an evaluation starts from is so of the value that it comes to, through and
-- through
theorem Supplies.evaluate (h : env.Supplies p) (hp : Innate p) : (e : Expr) → {v : Value} →
    (env.evaluate e).result = .ok v → v.every p = true
  | .null, _, hv | .boolean _, _, hv | .number _, _, hv | .string _, _, hv => by
    obtain rfl := Except.ok.inj hv
    exact hp.scalar _ rfl rfl
  | .access chain, v, hv => h.reach hp (access_eq_ok.mp hv).1
  | .array slots, v, hv => by
    obtain ⟨values, hvalues, rfl⟩ := evaluate_array_eq_ok.mp hv
    exact every_array hp (h.evaluateSlots hp slots hvalues)
  | .object pairs, v, hv => by
    obtain ⟨entries, hentries, rfl⟩ := evaluate_object_eq_ok.mp hv
    exact every_ofList hp (h.evaluatePairs hp pairs hentries)

theorem Supplies.evaluateSlots (h : env.Supplies p) (hp : Innate p) :
    (slots : List (Option Expr)) → {values : List (Option Value)} →
    (env.evaluateSlots slots).result = .ok values → slotsEvery p values = true
  | [], _, hv => by
    obtain rfl := Except.ok.inj hv
    rfl
  | none :: rest, _, hv => by
    obtain ⟨values, hvalues, hv⟩ := Traced.result_andThen_eq_ok.mp hv
    obtain rfl := Except.ok.inj hv
    rw [slotsEvery, h.evaluateSlots hp rest hvalues]
  | some e :: rest, _, hv => by
    obtain ⟨v, hvalue, hv⟩ := Traced.result_andThen_eq_ok.mp hv
    obtain ⟨values, hvalues, hv⟩ := Traced.result_andThen_eq_ok.mp hv
    obtain rfl := Except.ok.inj hv
    rw [slotsEvery, h.evaluate hp e hvalue, h.evaluateSlots hp rest hvalues]
    rfl

theorem Supplies.evaluatePairs (h : env.Supplies p) (hp : Innate p) :
    (pairs : List (String × Expr)) → {entries : List (String × Value)} →
    (env.evaluatePairs pairs).result = .ok entries → entriesEvery p entries = true
  | [], _, hv => by
    obtain rfl := Except.ok.inj hv
    rfl
  | (_, e) :: rest, _, hv => by
    obtain ⟨v, hvalue, hv⟩ := Traced.result_andThen_eq_ok.mp hv
    obtain ⟨entries, hentries, hv⟩ := Traced.result_andThen_eq_ok.mp hv
    obtain rfl := Except.ok.inj hv
    rw [entriesEvery, h.evaluate hp e hvalue, h.evaluatePairs hp rest hentries]
    rfl

end

-- Objects of different names in, objects of different names out: no record can break this
theorem isKeyed_evaluate (h : env.Supplies hasDistinctNames) {e : Expr}
    (hv : (env.evaluate e).result = .ok v) : v.isKeyed = true :=
  h.evaluate innate_hasDistinctNames e hv

-- No value that is taken from the surroundings has a capability in it, and no function fails
structure LendsNothing (env : Environment) : Prop where
  supplies : env.Supplies fun part => !part.isCapability
  answers (function : Nat) (argument : String) : ∃ v, env.host.call function argument = .ok v

-- The gate has nothing to hold back, and the only failure that is left is a read of what has no
-- properties
theorem LendsNothing.evaluate_error (h : env.LendsNothing) {e : Expr} {error : EvalError}
    (herror : (env.evaluate e).result = .error error) : ∃ fault, error = .propertyAccess fault := by
  obtain ⟨front, chain, back, -, -, hchain⟩ := evaluate_error_iff.mp herror
  cases error with
  | propertyAccess fault => exact ⟨fault, rfl⟩
  | security violation =>
    obtain ⟨lent, hreach, -, -⟩ := access_eq_security.mp hchain
    exact absurd (h.supplies.reach innate_not_isCapability hreach) Bool.false_ne_true
  | host cause =>
    obtain ⟨_, argument, function, _, -, -, hcall, -⟩ :=
      head_eq_error.mp (access_eq_host.mp hchain)
    obtain ⟨v, hv⟩ := h.answers function argument
    exact absurd (hv.symm.trans hcall) nofun

end DeclarativeOptions.Environment
