import DeclarativeOptions.Evaluation
import DeclarativeOptions.Proofs.Evaluation.Traced
import DeclarativeOptions.Proofs.Fields
import Mathlib.Data.List.Forall2

namespace DeclarativeOptions

-- A place inside of a literal
inductive Place where
  | slot (index : Nat)
  | property (name : String)

-- The part of an expression in a place. A hole has no part, and of the pairs of a repeated key the
-- last one has it.
def Expr.at? : List Place → Expr → Option Expr
  | [], e => some e
  | .slot index :: rest, .array slots => slots[index]?.join.bind (Expr.at? rest)
  | .property name :: rest, .object pairs =>
    ((Expr.object pairs).get? name).bind (Expr.at? rest)
  | _, _ => none

-- The part of a value in a place
def Value.at? : List Place → Value → Option Value
  | [], v => some v
  | .slot index :: rest, .array slots => slots[index]?.join.bind (Value.at? rest)
  | .property name :: rest, .object fields => (fields.get? name).bind (Value.at? rest)
  | _, _ => none

namespace Environment

variable {env : Environment} {e part : Expr} {v : Value} {slots : List (Option Expr)}
  {pairs : List (String × Expr)} {values : List (Option Value)} {entries : List (String × Value)}

theorem evaluate_array_eq_ok : (env.evaluate (.array slots)).result = .ok v ↔
    ∃ values, (env.evaluateSlots slots).result = .ok values ∧ v = .array values := by
  rw [evaluate, Traced.result_andThen_eq_ok]
  simp [eq_comm]

theorem evaluate_object_eq_ok : (env.evaluate (.object pairs)).result = .ok v ↔
    ∃ entries, (env.evaluatePairs pairs).result = .ok entries ∧
      v = .object (.ofList entries) := by
  rw [evaluate, Traced.result_andThen_eq_ok]
  simp [eq_comm]

theorem evaluate_slot (h : (env.evaluateSlots slots).result = .ok values) {index : Nat}
    (hpart : slots[index]?.join = some part) :
    ∃ v, values[index]?.join = some v ∧ (env.evaluate part).result = .ok v := by
  induction slots generalizing values index with
  | nil => simp at hpart
  | cons slot rest ih =>
    cases slot with
    | none =>
      obtain ⟨more, hmore, h⟩ := Traced.result_andThen_eq_ok.mp h
      obtain rfl := Except.ok.inj h
      cases index with
      | zero => simp at hpart
      | succ index => exact ih hmore hpart
    | some e =>
      obtain ⟨v, hv, h⟩ := Traced.result_andThen_eq_ok.mp h
      obtain ⟨more, hmore, h⟩ := Traced.result_andThen_eq_ok.mp h
      obtain rfl := Except.ok.inj h
      cases index with
      | zero =>
        obtain rfl : e = part := by simpa using hpart
        exact ⟨v, rfl, hv⟩
      | succ index => exact ih hmore hpart

-- Pairs are evaluated one to one, those of a repeated key included
theorem evaluate_pairs (h : (env.evaluatePairs pairs).result = .ok entries) :
    List.Forall₂ (fun pair entry => pair.1 = entry.1 ∧ (env.evaluate pair.2).result = .ok entry.2)
      pairs entries := by
  induction pairs generalizing entries with
  | nil =>
    obtain rfl := Except.ok.inj h
    exact .nil
  | cons pair rest ih =>
    obtain ⟨key, e⟩ := pair
    obtain ⟨v, hv, h⟩ := Traced.result_andThen_eq_ok.mp h
    obtain ⟨more, hmore, h⟩ := Traced.result_andThen_eq_ok.mp h
    obtain rfl := Except.ok.inj h
    exact .cons ⟨rfl, hv⟩ (ih hmore)

private theorem find_of_evaluates {name : String} {pair : String × Expr}
    (h : List.Forall₂ (fun pair entry => pair.1 = entry.1 ∧
      (env.evaluate pair.2).result = .ok entry.2) pairs entries)
    (hpair : pairs.find? (fun pair => pair.1 == name) = some pair) :
    ∃ entry, entries.find? (fun entry => entry.1 == name) = some entry ∧
      (env.evaluate pair.2).result = .ok entry.2 := by
  induction h with
  | nil => simp at hpair
  | @cons first entry pairs entries hfirst hrest ih =>
    obtain ⟨hkey, hv⟩ := hfirst
    by_cases hname : first.1 = name
    · obtain rfl : first = pair := by simpa [hname] using hpair
      exact ⟨entry, by simp [← hkey, hname], hv⟩
    · obtain ⟨found, hfound, hv⟩ := ih (by simpa [hname] using hpair)
      exact ⟨found, by simpa [← hkey, hname] using hfound, hv⟩

theorem evaluate_property (h : (env.evaluatePairs pairs).result = .ok entries) {name : String}
    (hpart : (Expr.object pairs).get? name = some part) :
    ∃ v, (Fields.ofList entries).get? name = some v ∧ (env.evaluate part).result = .ok v := by
  obtain ⟨pair, hpair, rfl⟩ := Option.map_eq_some_iff.mp hpart
  have hreverse := List.forall₂_reverse_iff.mpr (evaluate_pairs h)
  obtain ⟨entry, hentry, hv⟩ := find_of_evaluates hreverse hpair
  exact ⟨entry.2, by rw [Fields.get_ofList, hentry, Option.map_some], hv⟩

-- What an expression evaluates to has in each place the value of the part of the expression in that
-- place
theorem evaluate_at (h : (env.evaluate e).result = .ok v) {path : List Place}
    (hpart : e.at? path = some part) :
    ∃ w, v.at? path = some w ∧ (env.evaluate part).result = .ok w := by
  induction path generalizing e v with
  | nil =>
    obtain rfl := Option.some.inj hpart
    exact ⟨v, rfl, h⟩
  | cons place rest ih =>
    cases place with
    | slot index =>
      cases e with
      | array slots =>
        obtain ⟨values, hvalues, rfl⟩ := evaluate_array_eq_ok.mp h
        obtain ⟨inner, hinner, hpart⟩ := Option.bind_eq_some_iff.mp hpart
        obtain ⟨w, hw, hinner⟩ := evaluate_slot hvalues hinner
        obtain ⟨found, hfound, hresult⟩ := ih hinner hpart
        exact ⟨found, Option.bind_eq_some_iff.mpr ⟨w, hw, hfound⟩, hresult⟩
      | _ => simp [Expr.at?] at hpart
    | property name =>
      cases e with
      | object pairs =>
        obtain ⟨entries, hentries, rfl⟩ := evaluate_object_eq_ok.mp h
        obtain ⟨inner, hinner, hpart⟩ := Option.bind_eq_some_iff.mp hpart
        obtain ⟨w, hw, hinner⟩ := evaluate_property hentries hinner
        obtain ⟨found, hfound, hresult⟩ := ih hinner hpart
        exact ⟨found, Option.bind_eq_some_iff.mpr ⟨w, hw, hfound⟩, hresult⟩
      | _ => simp [Expr.at?] at hpart

end Environment

end DeclarativeOptions
