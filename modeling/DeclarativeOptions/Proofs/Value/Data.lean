import DeclarativeOptions.Evaluation
import DeclarativeOptions.Proofs.Evaluation.Traced
import DeclarativeOptions.Proofs.Grammar
import DeclarativeOptions.Proofs.Number.RoundTrip
import DeclarativeOptions.Proofs.Value.Every

namespace DeclarativeOptions

namespace Value

mutual

-- How many arrays and objects of a value are inside of one another
def nesting : Value → Nat
  | array slots => slotsNesting slots + 1
  | object ⟨entries⟩ => entriesNesting entries + 1
  | _ => 0
termination_by structural v => v

def slotsNesting : List (Option Value) → Nat
  | [] => 0
  | none :: rest => slotsNesting rest
  | some v :: rest => max (nesting v) (slotsNesting rest)
termination_by structural slots => slots

def entriesNesting : List (String × Value) → Nat
  | [] => 0
  | (_, v) :: rest => max (nesting v) (entriesNesting rest)
termination_by structural entries => entries

end

-- What the notation has a literal for
def hasLiteral : Value → Bool
  | number value => value.isFinite
  | capability _ => false
  | _ => true

-- No capabilities and only finite numbers, and no two properties of one name
def isData (v : Value) : Bool := v.isKeyed && v.every hasLiteral

mutual

-- What the literal of a value says. Undefined is a name that is not bound, and the literal of a
-- capability says nothing.
def expr : Value → Expr
  | undefined => .access ⟨.identifier "undefined", []⟩
  | null => .null
  | boolean value => .boolean value
  | number value => .number value.withoutZeroSign
  | string text => .string text
  | array slots => .array (slotsExpr slots)
  | object ⟨entries⟩ => .object (entriesExpr entries)
  | capability _ => .null
termination_by structural v => v

def slotsExpr : List (Option Value) → List (Option Expr)
  | [] => []
  | none :: rest => none :: slotsExpr rest
  | some v :: rest => some (expr v) :: slotsExpr rest
termination_by structural slots => slots

def entriesExpr : List (String × Value) → List (String × Expr)
  | [] => []
  | (name, v) :: rest => (name, expr v) :: entriesExpr rest
termination_by structural entries => entries

end

mutual

theorem nesting_expr : (v : Value) → v.expr.nesting = v.nesting
  | undefined | null | boolean _ | number _ | string _ | capability _ => rfl
  | array slots => by rw [expr, Expr.nesting, nesting, nesting_slotsExpr slots]
  | object ⟨entries⟩ => by rw [expr, Expr.nesting, nesting, nesting_entriesExpr entries]

theorem nesting_slotsExpr : (slots : List (Option Value)) →
    Expr.slotsNesting (slotsExpr slots) = slotsNesting slots
  | [] => rfl
  | none :: rest => nesting_slotsExpr rest
  | some v :: rest => by
    rw [slotsExpr, Expr.slotsNesting, slotsNesting, nesting_expr v, nesting_slotsExpr rest]

theorem nesting_entriesExpr : (entries : List (String × Value)) →
    Expr.pairsNesting (entriesExpr entries) = entriesNesting entries
  | [] => rfl
  | (_, v) :: rest => by
    rw [entriesExpr, Expr.pairsNesting, entriesNesting, nesting_expr v, nesting_entriesExpr rest]

end

end Value

theorem Number.withoutZeroSign_equal {n : Number} (hfinite : n.isFinite = true) :
    n.withoutZeroSign.equal n = true := by
  cases n with
  | nan => simp [isFinite] at hfinite
  | signed negative m => by_cases hzero : m.rank = 0 <;> simp [withoutZeroSign, equal, hzero]

namespace Environment

open Value

variable {host : Host} {approvals : Approvals}

-- Names that are not bound are undefined, and data needs no approval
private theorem evaluate_unbound (name : String) :
    (⟨host, approvals, Scopes.empty⟩ : Environment).evaluate (.access ⟨.identifier name, []⟩) =
      pure .undefined := rfl

mutual

theorem evaluate_expr (host : Host) (approvals : Approvals) : (v : Value) → v.isKeyed = true →
    v.every hasLiteral = true →
    ∃ w, (⟨host, approvals, Scopes.empty⟩ : Environment).evaluate v.expr = pure w ∧
      w.equal v = true
  | .undefined, _, _ => ⟨.undefined, evaluate_unbound "undefined", rfl⟩
  | .null, _, _ => ⟨.null, rfl, rfl⟩
  | .boolean value, _, _ => ⟨.boolean value, rfl, beq_self_eq_true value⟩
  | .number value, _, hliteral => ⟨.number value.withoutZeroSign, rfl,
    Number.withoutZeroSign_equal hliteral⟩
  | .string text, _, _ => ⟨.string text, rfl, beq_self_eq_true text⟩
  | .array slots, hkeyed, hliteral => by
    obtain ⟨values, hvalues, hequal⟩ := evaluate_slotsExpr host approvals slots hkeyed hliteral
    refine ⟨.array values, ?_, hequal⟩
    rw [expr, evaluate, hvalues, Traced.pure_andThen]
  | .object ⟨entries⟩, hkeyed, hliteral => by
    rw [isKeyed, every, Bool.and_eq_true] at hkeyed
    have hnames : (entries.map (·.1)).Nodup := of_decide_eq_true hkeyed.1
    obtain ⟨values, hvalues, hkeys, hequal⟩ := evaluate_entriesExpr host approvals entries
      hkeyed.2 hliteral
    refine ⟨.object ⟨values⟩, ?_, hequal⟩
    rw [expr, evaluate, hvalues, Traced.pure_andThen, Fields.ofList_of_nodup (hkeys ▸ hnames)]

theorem evaluate_slotsExpr (host : Host) (approvals : Approvals) :
    (slots : List (Option Value)) → slotsEvery hasDistinctNames slots = true →
    slotsEvery hasLiteral slots = true →
    ∃ values, (⟨host, approvals, Scopes.empty⟩ : Environment).evaluateSlots (slotsExpr slots) =
      pure values ∧ slotsEqual values slots = true
  | [], _, _ => ⟨[], rfl, rfl⟩
  | none :: rest, hkeyed, hliteral => by
    obtain ⟨values, hvalues, hequal⟩ := evaluate_slotsExpr host approvals rest hkeyed hliteral
    refine ⟨none :: values, ?_, hequal⟩
    rw [slotsExpr, evaluateSlots, hvalues, Traced.pure_andThen]
  | some v :: rest, hkeyed, hliteral => by
    rw [slotsEvery, Bool.and_eq_true] at hkeyed hliteral
    obtain ⟨w, hw, hequal⟩ := evaluate_expr host approvals v hkeyed.1 hliteral.1
    obtain ⟨values, hvalues, hrest⟩ := evaluate_slotsExpr host approvals rest hkeyed.2 hliteral.2
    refine ⟨some w :: values, ?_, by rw [slotsEqual, hequal, hrest]; rfl⟩
    rw [slotsExpr, evaluateSlots, hw, Traced.pure_andThen, hvalues, Traced.pure_andThen]

theorem evaluate_entriesExpr (host : Host) (approvals : Approvals) :
    (entries : List (String × Value)) → entriesEvery hasDistinctNames entries = true →
    entriesEvery hasLiteral entries = true →
    ∃ values, (⟨host, approvals, Scopes.empty⟩ : Environment).evaluatePairs
      (entriesExpr entries) = pure values ∧ values.map (·.1) = entries.map (·.1) ∧
      entriesEqual values entries = true
  | [], _, _ => ⟨[], rfl, rfl, rfl⟩
  | (name, v) :: rest, hkeyed, hliteral => by
    rw [entriesEvery, Bool.and_eq_true] at hkeyed hliteral
    obtain ⟨w, hw, hequal⟩ := evaluate_expr host approvals v hkeyed.1 hliteral.1
    obtain ⟨values, hvalues, hkeys, hrest⟩ := evaluate_entriesExpr host approvals rest hkeyed.2
      hliteral.2
    refine ⟨(name, w) :: values, ?_, by simp [hkeys], ?_⟩
    · rw [entriesExpr, evaluatePairs, hw, Traced.pure_andThen, hvalues, Traced.pure_andThen]
    · rw [entriesEqual, hequal, hrest, beq_self_eq_true]
      rfl

end

end Environment

end DeclarativeOptions
