import DeclarativeOptions.Evaluation
import DeclarativeOptions.Proofs.Evaluation.Traced

namespace DeclarativeOptions

namespace Expr

mutual

-- The chains of an expression in the order in which they are written
def chains : Expr → List Access
  | array slots => slotsChains slots
  | object pairs => pairsChains pairs
  | access chain => [chain]
  | _ => []
termination_by structural e => e

def slotsChains : List (Option Expr) → List Access
  | [] => []
  | none :: rest => slotsChains rest
  | some e :: rest => chains e ++ slotsChains rest
termination_by structural slots => slots

-- The pairs of a repeated key are all evaluated, so all of them count
def pairsChains : List (String × Expr) → List Access
  | [] => []
  | (_, e) :: rest => chains e ++ pairsChains rest
termination_by structural pairs => pairs

end

mutual

-- The value of an expression whose chains have these values
def fill : List Value → Expr → Value
  | _, null => .null
  | _, boolean value => .boolean value
  | _, number value => .number value
  | _, string text => .string text
  | values, array slots => .array (fillSlots values slots)
  | values, object pairs => .object (.ofList (fillPairs values pairs))
  | values, access _ => values.head?.getD .undefined
termination_by structural _ e => e

def fillSlots : List Value → List (Option Expr) → List (Option Value)
  | _, [] => []
  | values, none :: rest => none :: fillSlots values rest
  | values, some e :: rest =>
    some (fill (values.take (chains e).length) e) ::
      fillSlots (values.drop (chains e).length) rest
termination_by structural _ slots => slots

def fillPairs : List Value → List (String × Expr) → List (String × Value)
  | _, [] => []
  | values, (key, e) :: rest =>
    (key, fill (values.take (chains e).length) e) ::
      fillPairs (values.drop (chains e).length) rest
termination_by structural _ pairs => pairs

end

end Expr

namespace Environment

-- The values of chains that are evaluated one after the other, up to the first failure
def accessAll (env : Environment) : List Access → Traced (List Value)
  | [] => pure []
  | chain :: rest =>
    (env.access chain).andThen fun value =>
      (env.accessAll rest).andThen fun values => pure (value :: values)

variable {env env' : Environment} {chains : List Access} {values : List Value} {e : Expr}
  {error : EvalError}

private theorem length_of_accessAll (h : (env.accessAll chains).result = .ok values) :
    values.length = chains.length := by
  induction chains generalizing values with
  | nil =>
    obtain rfl := Except.ok.inj h
    rfl
  | cons chain rest ih =>
    obtain ⟨value, -, h⟩ := Traced.result_andThen_eq_ok.mp h
    obtain ⟨more, hmore, h⟩ := Traced.result_andThen_eq_ok.mp h
    obtain rfl := Except.ok.inj h
    rw [List.length_cons, List.length_cons, ih hmore]

theorem accessAll_append (env : Environment) (front back : List Access) :
    env.accessAll (front ++ back) = (env.accessAll front).andThen fun values =>
      (env.accessAll back).andThen fun more => pure (values ++ more) := by
  induction front with
  | nil => exact (Traced.andThen_pure _).symm
  | cons chain front ih =>
    simp only [List.cons_append, accessAll, ih, Traced.andThen_assoc, Traced.pure_andThen]

-- What is done with the values of two lists of chains is done with the two parts of all values
theorem accessAll_append_andThen {α : Type} (env : Environment) (front back : List Access)
    (f : List Value → List Value → α) :
    ((env.accessAll (front ++ back)).andThen fun values =>
      pure (f (values.take front.length) (values.drop front.length))) =
    (env.accessAll front).andThen fun values =>
      (env.accessAll back).andThen fun more => pure (f values more) := by
  rw [accessAll_append, Traced.andThen_assoc]
  refine Traced.andThen_congr fun values hvalues => ?_
  have hlength := length_of_accessAll hvalues
  simp only [Traced.andThen_assoc, Traced.pure_andThen, ← hlength, List.take_left, List.drop_left]

mutual

theorem evaluate_eq_accessAll (env : Environment) : (e : Expr) →
    env.evaluate e = (env.accessAll e.chains).andThen fun values => pure (e.fill values)
  | .null | .boolean _ | .number _ | .string _ => rfl
  | .access chain => by
    simp only [evaluate, Expr.chains, accessAll, Traced.andThen_assoc, Traced.pure_andThen,
      Expr.fill, List.head?_cons, Option.getD_some, Traced.andThen_pure]
  | .array slots => by
    simp only [evaluate, evaluateSlots_eq_accessAll env slots, Traced.andThen_assoc,
      Traced.pure_andThen, Expr.chains, Expr.fill]
  | .object pairs => by
    simp only [evaluate, evaluatePairs_eq_accessAll env pairs, Traced.andThen_assoc,
      Traced.pure_andThen, Expr.chains, Expr.fill]

theorem evaluateSlots_eq_accessAll (env : Environment) : (slots : List (Option Expr)) →
    env.evaluateSlots slots = (env.accessAll (Expr.slotsChains slots)).andThen fun values =>
      pure (Expr.fillSlots values slots)
  | [] => rfl
  | none :: rest => by
    simp only [evaluateSlots, evaluateSlots_eq_accessAll env rest, Traced.andThen_assoc,
      Traced.pure_andThen, Expr.slotsChains, Expr.fillSlots]
  | some e :: rest => by
    have happend := accessAll_append_andThen env e.chains (Expr.slotsChains rest)
      fun values more => some (e.fill values) :: Expr.fillSlots more rest
    simp only [evaluateSlots, evaluate_eq_accessAll env e, evaluateSlots_eq_accessAll env rest,
      Traced.andThen_assoc, Traced.pure_andThen, Expr.slotsChains, Expr.fillSlots, happend]

theorem evaluatePairs_eq_accessAll (env : Environment) : (pairs : List (String × Expr)) →
    env.evaluatePairs pairs = (env.accessAll (Expr.pairsChains pairs)).andThen fun values =>
      pure (Expr.fillPairs values pairs)
  | [] => rfl
  | (key, e) :: rest => by
    have happend := accessAll_append_andThen env e.chains (Expr.pairsChains rest)
      fun values more => (key, e.fill values) :: Expr.fillPairs more rest
    simp only [evaluatePairs, evaluate_eq_accessAll env e, evaluatePairs_eq_accessAll env rest,
      Traced.andThen_assoc, Traced.pure_andThen, Expr.pairsChains, Expr.fillPairs, happend]

end

theorem accessAll_ok_iff :
    (∃ values, (env.accessAll chains).result = .ok values) ↔
      ∀ chain ∈ chains, ∃ v, (env.access chain).result = .ok v := by
  induction chains with
  | nil => exact ⟨fun _ => by simp, fun _ => ⟨[], rfl⟩⟩
  | cons chain rest ih =>
    rw [List.forall_mem_cons, ← ih]
    constructor
    · rintro ⟨values, h⟩
      obtain ⟨value, hvalue, h⟩ := Traced.result_andThen_eq_ok.mp h
      obtain ⟨more, hmore, -⟩ := Traced.result_andThen_eq_ok.mp h
      exact ⟨⟨value, hvalue⟩, more, hmore⟩
    · rintro ⟨⟨value, hvalue⟩, more, hmore⟩
      refine ⟨value :: more, Traced.result_andThen_eq_ok.mpr ⟨value, hvalue, ?_⟩⟩
      exact Traced.result_andThen_eq_ok.mpr ⟨more, hmore, rfl⟩

theorem accessAll_error_iff :
    (env.accessAll chains).result = .error error ↔
      ∃ front chain back, chains = front ++ chain :: back ∧
        (∀ earlier ∈ front, ∃ v, (env.access earlier).result = .ok v) ∧
        (env.access chain).result = .error error := by
  induction chains with
  | nil => simp [accessAll]
  | cons chain rest ih =>
    constructor
    · intro h
      obtain h | ⟨value, hvalue, h⟩ := Traced.result_andThen_eq_error.mp h
      · exact ⟨[], chain, rest, rfl, by simp, h⟩
      · obtain h | ⟨more, -, h⟩ := Traced.result_andThen_eq_error.mp h
        · obtain ⟨front, failing, back, rfl, hfront, hfailing⟩ := ih.mp h
          refine ⟨chain :: front, failing, back, rfl, ?_, hfailing⟩
          exact List.forall_mem_cons.mpr ⟨⟨value, hvalue⟩, hfront⟩
        · simp at h
    · rintro ⟨front, failing, back, hchains, hfront, hfailing⟩
      cases front with
      | nil =>
        obtain ⟨rfl, rfl⟩ := List.cons.inj hchains
        exact Traced.result_andThen_eq_error.mpr (.inl hfailing)
      | cons earlier front =>
        obtain ⟨rfl, rfl⟩ := List.cons.inj hchains
        obtain ⟨⟨value, hvalue⟩, hfront⟩ := List.forall_mem_cons.mp hfront
        have hrest := ih.mpr ⟨front, failing, back, rfl, hfront, hfailing⟩
        refine Traced.result_andThen_eq_error.mpr (.inr ⟨value, hvalue, ?_⟩)
        exact Traced.result_andThen_eq_error.mpr (.inl hrest)

theorem evaluate_ok_iff : (∃ v, (env.evaluate e).result = .ok v) ↔
    ∀ chain ∈ e.chains, ∃ v, (env.access chain).result = .ok v := by
  rw [evaluate_eq_accessAll, ← accessAll_ok_iff]
  constructor
  · rintro ⟨v, h⟩
    obtain ⟨values, hvalues, -⟩ := Traced.result_andThen_eq_ok.mp h
    exact ⟨values, hvalues⟩
  · rintro ⟨values, hvalues⟩
    exact ⟨e.fill values, Traced.result_andThen_eq_ok.mpr ⟨values, hvalues, rfl⟩⟩

theorem evaluate_error_iff : (env.evaluate e).result = .error error ↔
    ∃ front chain back, e.chains = front ++ chain :: back ∧
      (∀ earlier ∈ front, ∃ v, (env.access earlier).result = .ok v) ∧
      (env.access chain).result = .error error := by
  rw [evaluate_eq_accessAll, ← accessAll_error_iff]
  constructor
  · intro h
    obtain h | ⟨values, -, h⟩ := Traced.result_andThen_eq_error.mp h
    · exact h
    · simp at h
  · intro h
    exact Traced.result_andThen_eq_error.mpr (.inl h)

theorem accessAll_congr (h : ∀ chain ∈ chains, env.access chain = env'.access chain) :
    env.accessAll chains = env'.accessAll chains := by
  induction chains with
  | nil => rfl
  | cons chain rest ih =>
    obtain ⟨hchain, hrest⟩ := List.forall_mem_cons.mp h
    rw [accessAll, accessAll, hchain, ih hrest]

-- Surroundings in which the chains of an expression come to the same are the same to it
theorem evaluate_congr (h : ∀ chain ∈ e.chains, env.access chain = env'.access chain) :
    env.evaluate e = env'.evaluate e := by
  rw [evaluate_eq_accessAll, evaluate_eq_accessAll, accessAll_congr h]

-- Reads go to the values of the host and to nothing else of the surroundings
theorem reads_congr (hhost : env.host = env'.host) (chain : Access) (value : Value)
    (tail : List Accessor) : env.reads chain value tail = env'.reads chain value tail := by
  induction tail generalizing chain value with
  | nil => rfl
  | cons read rest ih =>
    rw [reads, reads, hhost]
    cases value.property env'.host read.key with
    | error receiver => rfl
    | ok next => exact ih (chain.push read) next

theorem reach_congr (hhost : env.host = env'.host) {chain : Access}
    (hhead : env.head chain.head = env'.head chain.head) : env.reach chain = env'.reach chain := by
  simp only [reach, hhead, reads_congr hhost]

end Environment

end DeclarativeOptions
