import DeclarativeOptions.Proofs.Evaluation.Parts

namespace DeclarativeOptions

-- What is found under the keys, each one looked up in what the key before it has led to
def Expr.follow? (e : Expr) (keys : List String) : Option Expr :=
  keys.foldlM (fun e key => e.get? key) e

def Value.follow? (v : Value) (keys : List String) : Option Value :=
  keys.foldlM (fun v key => v.get? key) v

theorem Expr.follow_cons (e : Expr) (key : String) (rest : List String) :
    e.follow? (key :: rest) = (e.get? key).bind (·.follow? rest) :=
  List.foldlM_cons ..

theorem Value.follow_cons (v : Value) (key : String) (rest : List String) :
    v.follow? (key :: rest) = (v.get? key).bind (·.follow? rest) :=
  List.foldlM_cons ..

namespace Environment

variable {env : Environment} {e : Expr} {v : Value} {pairs : List (String × Expr)}
  {entries : List (String × Value)}

-- What has been found in an expression and in its value: nothing in either of them, or a part of
-- the expression and the value of that part
def Agree (env : Environment) : Option Expr → Option Value → Prop :=
  Option.Rel fun part w => (env.evaluate part).result = .ok w

private theorem keys_of_evaluatePairs (h : (env.evaluatePairs pairs).result = .ok entries) :
    entries.map (·.1) = pairs.map (·.1) := by
  have hpairs := evaluate_pairs h
  clear h
  induction hpairs with
  | nil => rfl
  | cons hfirst _ ih => rw [List.map_cons, List.map_cons, hfirst.1, ih]

theorem keys_evaluate (h : (env.evaluate (.object pairs)).result = .ok v) :
    ∃ fields, v = .object fields ∧ fields.keys = (pairs.map (·.1)).eraseDups := by
  obtain ⟨entries, hentries, rfl⟩ := evaluate_object_eq_ok.mp h
  exact ⟨_, rfl, by rw [Fields.keys_ofList, keys_of_evaluatePairs hentries]⟩

theorem agree_get (h : (env.evaluate (.object pairs)).result = .ok v) (key : String) :
    env.Agree ((Expr.object pairs).get? key) (v.get? key) := by
  cases hpart : (Expr.object pairs).get? key with
  | some part =>
    obtain ⟨entries, hentries, rfl⟩ := evaluate_object_eq_ok.mp h
    obtain ⟨w, hw, hresult⟩ := evaluate_property hentries hpart
    have hget : (Value.object (.ofList entries)).get? key = some w := hw
    rw [hget]
    exact .some hresult
  | none =>
    obtain ⟨fields, rfl, hkeys⟩ := keys_evaluate h
    have habsent : key ∉ fields.keys := by
      rw [hkeys, List.mem_eraseDups]
      intro hmem
      obtain ⟨pair, hpair, rfl⟩ := List.mem_map.mp hmem
      simp only [Expr.get?, Option.map_eq_none_iff, List.find?_eq_none, List.mem_reverse] at hpart
      exact hpart pair hpair (beq_self_eq_true _)
    have hget : (Value.object fields).get? key = none := by
      rw [← Fields.get_isSome] at habsent
      exact Option.not_isSome_iff_eq_none.mp habsent
    rw [hget]
    exact .none

-- By induction on the keys: what the first one leads to in the literal and in its value is a literal
-- and its value again, or there are no more keys
theorem agree_follow {keys : List String} (h : (env.evaluate e).result = .ok v)
    (hliteral : ∀ front key back part, keys = front ++ key :: back →
      e.follow? front = some part → ∃ inner, part = .object inner) :
    env.Agree (e.follow? keys) (v.follow? keys) := by
  induction keys generalizing e v with
  | nil => exact .some h
  | cons key rest ih =>
    obtain ⟨pairs, rfl⟩ := hliteral [] key rest e rfl rfl
    have hget := agree_get h key
    rw [Expr.follow_cons, Value.follow_cons]
    generalize hpart : (Expr.object pairs).get? key = found at hget ⊢
    generalize v.get? key = value at hget ⊢
    cases hget with
    | none => exact .none
    | some hresult =>
      refine ih hresult fun front next back part hrest hfound => ?_
      refine hliteral (key :: front) next back part (by rw [hrest, List.cons_append]) ?_
      rw [Expr.follow_cons, hpart]
      exact hfound

-- An object literal has a property under the same keys as its value, and the property of the value
-- is what the one of the literal evaluates to, through any number of literals inside of each other
theorem evaluate_keeps_lookup (h : (env.evaluate (.object pairs)).result = .ok v) :
    (∀ key, env.Agree ((Expr.object pairs).get? key) (v.get? key)) ∧
    (∀ keys, (∀ front key back part, keys = front ++ key :: back →
        (Expr.object pairs).follow? front = some part → ∃ inner, part = .object inner) →
      env.Agree ((Expr.object pairs).follow? keys) (v.follow? keys)) ∧
    ∃ fields, v = .object fields ∧ fields.keys = (pairs.map (·.1)).eraseDups :=
  ⟨agree_get h, fun _ => agree_follow h, keys_evaluate h⟩

-- Both keys are repeated, and in both places the last pair counts, while the key stays where it was
-- first
theorem evaluate_keeps_lookup_repeated_key :
    let env : Environment := ⟨.idle, .empty, { locals := fun _ => some (.boolean true) }⟩
    let chain : Expr := .access ⟨.identifier "m", []⟩
    let inner : List (String × Expr) := [("c", .null), ("c", chain)]
    let pairs := [("a", .null), ("b", .null), ("a", .object inner)]
    let v : Value := .object ⟨[("a", .object ⟨[("c", .boolean true)]⟩), ("b", .null)]⟩
    (env.evaluate (.object pairs)).result = .ok v ∧
      (Expr.object pairs).follow? ["a", "c"] = some chain ∧
      env.Agree (some chain) (v.follow? ["a", "c"]) ∧ env.Agree none (v.get? "d") ∧
      ∃ fields, v = .object fields ∧ fields.keys = ["a", "b"] := by
  intro env chain inner pairs v
  have hok : (env.evaluate (.object pairs)).result = .ok v := rfl
  obtain ⟨hget, hfollow, hkeys⟩ := evaluate_keeps_lookup hok
  refine ⟨hok, rfl, hfollow ["a", "c"] fun front key back part hkeys hpart => ?_, hget "d", hkeys⟩
  cases front with
  | nil => exact ⟨pairs, (Option.some.inj hpart).symm⟩
  | cons first front =>
    cases front with
    | nil =>
      obtain rfl := (List.cons.inj hkeys).1
      exact ⟨inner, (Option.some.inj hpart).symm⟩
    | cons second front => simp at hkeys

end Environment

end DeclarativeOptions
