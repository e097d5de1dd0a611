import DeclarativeOptions.Proofs.Evaluation.Chains

namespace DeclarativeOptions

namespace Head

def name? : Head → Option String
  | identifier name => some name
  | call _ _ => none

def target? : Head → Option String
  | identifier _ => none
  | call target _ => some target

end Head

namespace Expr

-- The names that an expression mentions
def names (e : Expr) : List String := e.chains.filterMap fun chain => chain.head.name?

-- The targets of the calls that an expression mentions
def targets (e : Expr) : List String := e.chains.filterMap fun chain => chain.head.target?

variable {e : Expr} {chain : Access}

private theorem mem_names {name : String} (hmem : chain ∈ e.chains)
    (hhead : chain.head = .identifier name) : name ∈ e.names :=
  List.mem_filterMap.mpr ⟨chain, hmem, by rw [hhead]; rfl⟩

private theorem mem_targets {target argument : String} (hmem : chain ∈ e.chains)
    (hhead : chain.head = .call target argument) : target ∈ e.targets :=
  List.mem_filterMap.mpr ⟨chain, hmem, by rw [hhead]; rfl⟩

end Expr

-- Scopes that bind what an expression mentions alike. A global binding counts only for a name that
-- is not bound locally.
structure Scopes.AgreesOn (s : Scopes) (e : Expr) (s' : Scopes) : Prop where
  names : ∀ name ∈ e.names,
    (∃ v, s.locals name = some v ∧ s'.locals name = some v) ∨
      s.locals name = none ∧ s'.locals name = none ∧ s.globals name = s'.globals name
  targets : ∀ target ∈ e.targets, s.functions target = s'.functions target

namespace Environment

variable {host : Host} {approvals : Approvals} {s s' : Scopes} {e : Expr} {chain : Access}

private theorem head_congr (h : s.AgreesOn e s') (hmem : chain ∈ e.chains) :
    (⟨host, approvals, s⟩ : Environment).head chain.head =
      (⟨host, approvals, s'⟩ : Environment).head chain.head := by
  cases hhead : chain.head with
  | identifier name =>
    obtain ⟨v, hlocal, hlocal'⟩ | ⟨hlocal, hlocal', hglobal⟩ :=
      h.names name (Expr.mem_names hmem hhead)
    · simp only [head, Scopes.resolve, hlocal, hlocal', Option.some_or]
    · simp only [head, Scopes.resolve, hlocal, hlocal', hglobal]
  | call target argument =>
    have htarget := h.targets target (Expr.mem_targets hmem hhead)
    simp only [head, htarget]

theorem evaluate_of_agreesOn (h : s.AgreesOn e s') :
    (⟨host, approvals, s⟩ : Environment).evaluate e =
      (⟨host, approvals, s'⟩ : Environment).evaluate e := by
  refine evaluate_congr fun chain hmem => ?_
  have hhead : (⟨host, approvals, s⟩ : Environment).head chain.head =
      (⟨host, approvals, s'⟩ : Environment).head chain.head := head_congr h hmem
  have hreach := reach_congr (by rfl) hhead
  rw [access, access, hreach]

-- An expression sees the bindings of the names and call targets that its chains begin with. A name
-- that is bound locally hides the global binding, names are never looked up among the functions,
-- and the targets of calls are looked up nowhere else.
theorem evaluate_sees_mentioned (host : Host) (approvals : Approvals) (s : Scopes) (e : Expr) :
    let outcome (s : Scopes) := (⟨host, approvals, s⟩ : Environment).evaluate e
    (∀ s', s.AgreesOn e s' → outcome s = outcome s') ∧
    (∀ globals, (∀ name ∈ e.names, s.locals name = none → s.globals name = globals name) →
      outcome s = outcome { s with globals }) ∧
    (e.targets = [] → ∀ functions, outcome s = outcome { s with functions }) ∧
    (e.names = [] → ∀ locals globals, outcome s = outcome { s with locals, globals }) ∧
    (∀ s' : Scopes, (∀ name ∈ e.names,
      s.locals name = s'.locals name ∧ s.globals name = s'.globals name) →
      (∀ target ∈ e.targets, s.functions target = s'.functions target) →
      outcome s = outcome s') := by
  have hsame (s' : Scopes) (name : String) (hlocal : s.locals name = s'.locals name)
      (hglobal : s.locals name = none → s.globals name = s'.globals name) :
      (∃ v, s.locals name = some v ∧ s'.locals name = some v) ∨
        s.locals name = none ∧ s'.locals name = none ∧ s.globals name = s'.globals name := by
    cases hbound : s.locals name with
    | none => exact .inr ⟨rfl, hlocal ▸ hbound, hglobal hbound⟩
    | some v => exact .inl ⟨v, rfl, hlocal ▸ hbound⟩
  refine ⟨fun s' h => evaluate_of_agreesOn h, fun globals hglobals => ?_,
    fun htargets functions => ?_, fun hnames locals globals => ?_, fun s' hnames htargets => ?_⟩
  · exact evaluate_of_agreesOn
      ⟨fun name hmem => hsame _ name rfl (hglobals name hmem), fun target _ => rfl⟩
  · refine evaluate_of_agreesOn ⟨fun name _ => hsame _ name rfl fun _ => rfl, ?_⟩
    simp [htargets]
  · refine evaluate_of_agreesOn ⟨?_, fun target _ => rfl⟩
    simp [hnames]
  · exact evaluate_of_agreesOn
      ⟨fun name hmem => hsame s' name (hnames name hmem).1 fun _ => (hnames name hmem).2, htargets⟩

-- A local binding to undefined hides the global one, and the function of the same name is called
-- in both surroundings, whatever else they bind
theorem evaluate_sees_mentioned_undefined :
    let s : Scopes := { locals := fun _ => some .undefined, globals := fun _ => some .null,
                        functions := fun _ => some 3 }
    let s' : Scopes := { locals := fun name => if name = "a" then some .undefined else none,
                         functions := fun name => if name = "a" then some 3 else none }
    let e : Expr := .array [some (.access ⟨.identifier "a", []⟩), none,
      some (.access ⟨.call "a" "x", [.name "length"]⟩)]
    s.AgreesOn e s' ∧ (⟨.idle, .empty, s⟩ : Environment).evaluate e =
      (⟨.idle, .empty, s'⟩ : Environment).evaluate e := by
  intro s s' e
  have hagrees : s.AgreesOn e s' := by
    refine ⟨List.forall_mem_singleton.mpr (.inl ⟨.undefined, rfl, rfl⟩), ?_⟩
    exact List.forall_mem_singleton.mpr rfl
  exact ⟨hagrees, (evaluate_sees_mentioned _ _ s e).1 s' hagrees⟩

end Environment

end DeclarativeOptions
