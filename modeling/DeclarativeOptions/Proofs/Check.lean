import DeclarativeOptions.Check
import DeclarativeOptions.Proofs.Evaluation.Invariant

namespace DeclarativeOptions

open Value

variable {read : String → Option JsonValue} {options : CheckOptions} {text : String}
  {fields : Fields Value} {locals globals elements : Option (Fields Value)} {error : CommandError}
  {e : Expr} {p : Value → Bool} {v : Value}

-- Scopes that are made of data by insertions, as far as they are given
def MadeScope (scope : Option (Fields Value)) : Prop :=
  ∀ fields, scope = some fields → ∀ p, Innate p → (object fields).every p = true

private theorem scopeOf_eq_ok (h : scopeOf read text = .ok fields) (hp : Innate p) :
    (object fields).every p = true := by
  unfold scopeOf at h
  split at h
  · simp at h
  · rename_i j _
    have hmade := j.every_toValue hp
    split at h
    · rename_i found hfound
      obtain rfl := Except.ok.inj h
      exact hfound ▸ hmade
    · simp at h

private theorem scopeOf_eq_error (h : scopeOf read text = .error error) (e : RecordError) :
    error ≠ .record e := by
  unfold scopeOf at h
  split at h
  · obtain rfl := Except.error.inj h
    nofun
  · split at h
    · simp at h
    · obtain rfl := Except.error.inj h
      nofun

theorem MadeScope.get (h : MadeScope locals) (hp : Innate p) {name : String}
    (hv : (locals.getD .empty).get? name = some v) : v.every p = true := by
  cases locals with
  | none => simp [Fields.get?, Fields.empty] at hv
  | some fields => exact every_of_get (h fields rfl p hp) hv

private theorem scopeOf?_cases (read : String → Option JsonValue) (given : Option String) :
    (∃ error, scopeOf? read given = .error error ∧ ∀ e, error ≠ .record e) ∨
      ∃ scope, scopeOf? read given = .ok scope ∧ MadeScope scope := by
  cases given with
  | none => exact .inr ⟨none, rfl, nofun⟩
  | some text =>
    cases hscope : scopeOf read text with
    | error error => exact .inl ⟨error, by rw [scopeOf?, hscope]; rfl, scopeOf_eq_error hscope⟩
    | ok fields =>
      refine .inr ⟨some fields, by rw [scopeOf?, hscope]; rfl, ?_⟩
      rintro _ ⟨rfl⟩
      exact fun p => scopeOf_eq_ok hscope

-- The names of a check are bound to what its scopes hold or to variables, and there are no global
-- objects
theorem supplies_checkEnvironment (approvals : Approvals)
    (processEnv : Option (String → Option String)) (hlocals : MadeScope locals)
    (hglobals : MadeScope globals) (helements : MadeScope elements) (hp : Innate p) :
    (checkEnvironment approvals locals globals elements processEnv).Supplies p where
  resolve name := by
    refine Environment.every_resolve hp (fun v => hlocals.get hp) fun v hv => ?_
    cases globals with
    | some fields => exact every_of_get (hglobals fields rfl p hp) hv
    | none =>
      cases processEnv with
      | none => exact absurd hv nofun
      | some lookup =>
        obtain ⟨text, -, rfl⟩ := Option.map_eq_some_iff.mp hv
        exact hp.scalar _ rfl rfl
  call {function argument v} hv := by
    obtain rfl := Except.ok.inj hv
    cases hget : (elements.getD .empty).get? argument with
    | none => exact hp.scalar null rfl rfl
    | some v => exact helements.get hp hget
  lookup _ hv := absurd hv nofun

-- The function of a check fails for no argument
private theorem lendsNothing_checkEnvironment (approvals : Approvals)
    (processEnv : Option (String → Option String)) (hlocals : MadeScope locals)
    (hglobals : MadeScope globals) (helements : MadeScope elements) :
    (checkEnvironment approvals locals globals elements processEnv).LendsNothing where
  supplies := supplies_checkEnvironment approvals processEnv hlocals hglobals helements
    innate_not_isCapability
  answers _ _ := ⟨_, rfl⟩

-- What a check may come to
inductive Concludes (options : CheckOptions) : Except CommandError CheckResult → Prop
  | malformed {e : SyntaxError} (hparse : Expr.parse options.record = .error e) :
    Concludes options (.error (.record (.malformed e)))
  | validSyntax {e : Expr} (hparse : Expr.parse options.record = .ok e)
    (honly : options.syntaxOnly = true) : Concludes options (.ok .validSyntax)
  -- A scope was not what it has to be
  | scope {e : Expr} {error : CommandError} (hparse : Expr.parse options.record = .ok e)
    (honly : options.syntaxOnly = false) (herror : ∀ e, error ≠ .record e) :
    Concludes options (.error error)
  | propertyAccess {e : Expr} {fault : PropertyAccessError}
    (hparse : Expr.parse options.record = .ok e) (honly : options.syntaxOnly = false) :
    Concludes options (.error (.record (.evaluation (.propertyAccess fault))))
  | success {e : Expr} {v : Value} (hparse : Expr.parse options.record = .ok e)
    (honly : options.syntaxOnly = false) (hmade : ∀ p, Innate p → v.every p = true) :
    Concludes options (.ok (.success v))

theorem Concludes.bind {f : Option (Fields Value) → Except CommandError CheckResult}
    (hparse : Expr.parse options.record = .ok e) (honly : options.syntaxOnly = false)
    (given : Option String) (hf : ∀ scope, MadeScope scope → Concludes options (f scope)) :
    Concludes options (scopeOf? read given >>= f) := by
  obtain ⟨error, hscope, herror⟩ | ⟨scope, hscope, hmade⟩ := scopeOf?_cases read given
  · rw [hscope]
    exact .scope hparse honly herror
  · rw [hscope]
    exact hf scope hmade

theorem concludes_checkWith (read : String → Option JsonValue) (approvals : Approvals)
    (options : CheckOptions) : Concludes options (checkWith read approvals options) := by
  rw [checkWith]
  cases hparse : Expr.parse options.record with
  | error e => exact .malformed hparse
  | ok e =>
    cases honly : options.syntaxOnly with
    | true => exact .validSyntax hparse honly
    | false =>
      refine .bind hparse honly options.locals fun locals hlocals => ?_
      refine .bind hparse honly options.globals fun globals hglobals => ?_
      refine .bind hparse honly options.elements fun elements helements => ?_
      dsimp only
      split
      · rename_i v hv
        refine .success hparse honly fun p hp => ?_
        exact (supplies_checkEnvironment approvals options.processEnv hlocals hglobals helements
          hp).evaluate hp e hv
      · rename_i error herror
        obtain ⟨fault, rfl⟩ := (lendsNothing_checkEnvironment approvals options.processEnv hlocals
          hglobals helements).evaluate_error herror
        exact .propertyAccess hparse honly

-- What comes out of a check is made of data by insertions
theorem every_of_check {approvals : Approvals}
    (h : checkWith read approvals options = .ok (.success v)) (hp : Innate p) :
    v.every p = true := by
  have hconcludes := concludes_checkWith read approvals options
  rw [h] at hconcludes
  cases hconcludes with
  | success _ _ hmade => exact hmade p hp

theorem isKeyed_of_check {approvals : Approvals}
    (h : checkWith read approvals options = .ok (.success v)) : v.isKeyed = true :=
  every_of_check h innate_hasDistinctNames

-- Whatever is given to a check, nothing is lent out by it and nothing held back, the syntax of the
-- record is all that decides about a syntax error, and it is all that is judged if asked for
theorem check_lends_nothing (read : String → Option JsonValue) (approvals : Approvals)
    (options : CheckOptions) :
    (∀ e, checkWith read approvals options ≠ .error (.record (.evaluation (.security e)))) ∧
    (∀ e, checkWith read approvals options ≠ .error (.record (.evaluation (.host e)))) ∧
    (∀ v, checkWith read approvals options = .ok (.success v) → v.isPlain = true) ∧
    (∀ e, checkWith read approvals options = .error (.record (.malformed e)) ↔
      Expr.parse options.record = .error e) ∧
    (options.syntaxOnly = true →
      (checkWith read approvals options = .ok .validSyntax ↔
        ∃ e, Expr.parse options.record = .ok e) ∧
      ∀ error, checkWith read approvals options = .error error →
        ∃ e, error = .record (.malformed e)) := by
  have h := concludes_checkWith read approvals options
  have hplain (v : Value) (hv : checkWith read approvals options = .ok (.success v)) :
      v.isPlain = true := every_of_check hv innate_not_isCapability
  generalize checkWith read approvals options = result at h hplain ⊢
  cases h with
  | malformed hparse => simp [hparse]
  | validSyntax hparse honly => simp [hparse]
  | scope hparse honly herror => simp [hparse, honly, herror]
  | propertyAccess hparse honly => simp [hparse, honly]
  | success hparse honly _ => simp [hparse, honly, hplain]

-- A hole, checked with a scope, and its syntax alone, with a scope that is no JSON
theorem check_lends_nothing_hole :
    let read := fun text => if text = "scope" then some (.object ⟨[("a", .null)]⟩) else none
    checkWith read .empty { record := "[,]", locals := some "scope" } =
        .ok (.success (.array [none])) ∧
      (Value.array [none]).isPlain = true ∧
      checkWith read .empty { record := "[,]", locals := some "[", syntaxOnly := true } =
        .ok .validSyntax := by
  intro read
  have hopening : Lexeme.first '[' [',', ']'] = ⟨.leftBracket, ['['], 0⟩ := rfl
  have hcomma : Lexeme.first ',' [']'] = ⟨.comma, [','], 0⟩ := rfl
  have hclosing : Lexeme.first ']' [] = ⟨.rightBracket, [']'], 0⟩ := rfl
  have hscan : Token.scan "[,]" =
      [⟨.leftBracket, "[", 0⟩, ⟨.comma, ",", 1⟩, ⟨.rightBracket, "]", 2⟩, ⟨.eof, "", 3⟩] := by
    have hchars : "[,]".toList = ['[', ',', ']'] := rfl
    rw [Token.scan, hchars]
    simp [Token.scanFrom, hopening, hcomma, hclosing]
    decide
  have hparse : Expr.parse "[,]" = .ok (.array [none]) := by
    rw [Expr.parse, Parser.ofText, hscan]
    rfl
  have hsuccess : checkWith read .empty { record := "[,]", locals := some "scope" } =
      .ok (.success (.array [none])) := by
    rw [checkWith, hparse]
    rfl
  have hplain := (check_lends_nothing read .empty _).2.2.1 _ hsuccess
  have honly := (check_lends_nothing read .empty
    { record := "[,]", locals := some "[", syntaxOnly := true }).2.2.2.2 rfl
  exact ⟨hsuccess, hplain, honly.1.mpr ⟨_, hparse⟩⟩

end DeclarativeOptions
