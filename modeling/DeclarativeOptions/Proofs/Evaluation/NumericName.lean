import DeclarativeOptions.Proofs.Evaluation.Reading
import DeclarativeOptions.Proofs.Number.Key
import DeclarativeOptions.Proofs.Parser.Acceptance
import DeclarativeOptions.Proofs.Token.NumberKey
import DeclarativeOptions.Proofs.Token.Significant

namespace DeclarativeOptions

open Grammar Token

namespace Grammar

variable {name : String} {t : Token} {x : Number} {e : Expr} {pairs : List (String × Expr)}
  {tokens : List Token}

theorem PropertyName.eq_key (h : PropertyName name t) (hx : t.number? = some x) : name = x.key := by
  cases h with
  | text hkind =>
    rw [kind_of_number hx] at hkind
    simp at hkind
  | number hkind hn =>
    obtain rfl := Option.some.inj (hx.symm.trans hn)
    rfl

-- Behind the brace stands the name of the first pair
theorem Derives.propertyName (h : Derives (.value (.object ((name, e) :: pairs))) tokens) :
    ∃ t, tokens[1]? = some t ∧ PropertyName name t := by
  cases h with
  | scalar h => cases h
  | object hopening hpairs hclosing =>
    cases hpairs with
    | lastMember hname => exact ⟨_, rfl, hname⟩
    | member hname => exact ⟨_, rfl, hname⟩

end Grammar

namespace Token

-- A record with one pair, and the token that names it
structure NamesPair (text : String) (t : Token) : Prop where
  parse : ∃ name e, Expr.parse text = .ok (.object [(name, e)])
  name : (significant 0 text.toList)[1]? = some t

-- A name with one token between brackets behind it
def Indexes (text o : String) (u : Token) : Prop :=
  ∃ i j k l, significant 0 text.toList = [⟨.identifier, o, i⟩, ⟨.leftBracket, "[", j⟩, u,
    ⟨.rightBracket, "]", k⟩, ⟨.eof, "", l⟩]

variable {text o : String} {t u : Token} {x y : Number}

theorem NamesPair.parse_key (h : NamesPair text t) (hx : t.number? = some x) :
    ∃ e, Expr.parse text = .ok (.object [(x.key, e)]) := by
  obtain ⟨⟨name, e, hparse⟩, ht⟩ := h
  obtain ⟨front, endOffset, htokens, hderives, -⟩ := Parser.derives_of_parse hparse
  obtain ⟨found, hfound, hname⟩ := hderives.propertyName
  have hsame : (significant 0 text.toList)[1]? = some found := by
    have hlt := (List.getElem?_eq_some_iff.mp hfound).1
    rw [← hfound, ← List.getElem?_append_left hlt]
    exact congrArg (·[1]?) htokens
  obtain rfl := Option.some.inj (ht.symm.trans hsame)
  obtain rfl := hname.eq_key hx
  exact ⟨e, hparse⟩

theorem Indexes.parse (h : Indexes text o u) (hy : u.number? = some y) :
    Expr.parse text = .ok (.access ⟨.identifier o, [.index (.number y)]⟩) := by
  obtain ⟨i, j, k, l, htokens⟩ := h
  have hstart : Start (.identifier o) [⟨.identifier, o, i⟩] :=
    @Start.identifier ⟨.identifier, o, i⟩ rfl
  have hindex : Suffix (.index (.number y))
      [⟨.leftBracket, "[", j⟩, u, ⟨.rightBracket, "]", k⟩] :=
    .index rfl (.number (kind_of_number hy) hy) rfl
  have hderives := Derives.access hstart (.cons hindex .nil)
  exact @Parser.parse_of_derives text [⟨.identifier, o, i⟩, ⟨.leftBracket, "[", j⟩, u,
    ⟨.rightBracket, "]", k⟩] l _ htokens hderives (Nat.zero_le _)

end Token

namespace Environment

variable {env env' : Environment} {text text' o : String} {t u : Token} {x y : Number}
  {v w : Value} {fields : Fields Value}

-- What an object has under the name of the number, if it is data
private theorem access_index (hbound : env.scopes.resolve o = .object fields)
    (hv : (fields.get? y.key).getD .undefined = v) (hdata : v.isCapability = false) :
    env.access ⟨.identifier o, [.index (.number y)]⟩ = pure v := by
  have hhead : env.head (.identifier o) = pure (.object fields) := by rw [head, hbound]
  have hreads : env.reads ⟨.identifier o, []⟩ (.object fields) [.index (.number y)] = .ok v :=
    congrArg Except.ok hv
  have hreach : env.reach ⟨.identifier o, [.index (.number y)]⟩ = pure v := by
    rw [reach, hhead, Traced.pure_andThen, hreads]
    rfl
  have hadmits : env.approvals.requireAt
      (⟨.identifier o, [.index (.number y)]⟩ : Access).path v = .ok v := by
    refine Approvals.requireAt_eq_ok.mpr ⟨rfl, ?_⟩
    rintro lent rfl
    simp [Value.isCapability, Value.capability?] at hdata
  rw [access, hreach, Traced.pure_andThen, hadmits]
  rfl

private theorem evaluateText_namesPair (h : NamesPair text t) (hx : t.number? = some x)
    (hv : (env.evaluateText text).2 = .ok v) : ∃ w, v = .object ⟨[(x.key, w)]⟩ := by
  obtain ⟨e, hparse⟩ := h.parse_key hx
  simp only [evaluateText, hparse] at hv
  obtain ⟨entries, hentries, rfl⟩ := evaluate_object_eq_ok.mp (Traced.mapError_eq_ok.mp hv)
  cases evaluate_pairs hentries with
  | @cons pair entry pairs more hpair hmore =>
    obtain ⟨name, w⟩ := entry
    obtain rfl : x.key = name := hpair.1
    cases hmore
    exact ⟨w, rfl⟩

private theorem evaluateText_indexes (h : Indexes text o u) (hy : u.number? = some y)
    (hbound : env.scopes.resolve o = .object ⟨[(x.key, w)]⟩) (hdata : w.isCapability = false) :
    env.evaluateText text = ([], .ok (if x.key = y.key then w else .undefined)) := by
  have hget : ((⟨[(x.key, w)]⟩ : Fields Value).get? y.key).getD .undefined =
      if x.key = y.key then w else .undefined := by
    by_cases hkey : x.key = y.key <;> simp [Fields.get?, hkey]
  have hplain : (if x.key = y.key then w else .undefined).isCapability = false := by
    split
    · exact hdata
    · rfl
  have hvalue : env.evaluate (.access ⟨.identifier o, [.index (.number y)]⟩) =
      pure (if x.key = y.key then w else .undefined) := access_index hbound hget hplain
  simp only [evaluateText, h.parse hy, hvalue]
  rfl

-- However they are spelled, a number between brackets reads the property that a number has named
-- exactly when the two are equal
theorem evaluate_numeric_name (ht : t ∈ scan text) (hx : t.number? = some x)
    (hy : u.number? = some y) :
    (x.key = y.key ↔ x.equal y = true) ∧
    ∀ (env env' : Environment) (v : Value) (o : String), NamesPair text t →
      (env.evaluateText text).2 = .ok v → Indexes text' o u → env'.scopes.resolve o = v →
      ∃ w, v = .object ⟨[(x.key, w)]⟩ ∧ (w.isCapability = false →
        env'.evaluateText text' = ([], .ok (if x.equal y then w else .undefined))) := by
  have hkey : x.key = y.key ↔ x.equal y = true :=
    Number.key_eq_key_iff_equal (ne_nan_of_mem ht hx)
  refine ⟨hkey, fun env env' v o hnames hv hindexes hbound => ?_⟩
  obtain ⟨w, rfl⟩ := evaluateText_namesPair hnames hx hv
  refine ⟨w, rfl, fun hdata => ?_⟩
  rw [evaluateText_indexes hindexes hy hbound hdata]
  simp only [hkey]

private theorem significant_hexadecimal_name : significant 0 "\x7b0xA:2\x7d".toList =
    [⟨.leftBrace, "\x7b", 0⟩, ⟨.numberLiteral, "0xA", 1⟩, ⟨.colon, ":", 4⟩,
      ⟨.numberLiteral, "2", 5⟩, ⟨.rightBrace, "\x7d", 6⟩, ⟨.eof, "", 7⟩] := by
  have hbrace : Lexeme.first '{' ['0', 'x', 'A', ':', '2', '}'] = ⟨.leftBrace, ['{'], 0⟩ := rfl
  have hname : Lexeme.first '0' ['x', 'A', ':', '2', '}'] =
      ⟨.numberLiteral, ['0', 'x', 'A'], 2⟩ := rfl
  have hcolon : Lexeme.first ':' ['2', '}'] = ⟨.colon, [':'], 0⟩ := rfl
  have hvalue : Lexeme.first '2' ['}'] = ⟨.numberLiteral, ['2'], 0⟩ := rfl
  have hclosing : Lexeme.first '}' [] = ⟨.rightBrace, ['}'], 0⟩ := rfl
  have hchars : "\x7b0xA:2\x7d".toList = ['{', '0', 'x', 'A', ':', '2', '}'] := rfl
  rw [significant, hchars]
  simp [scanFrom, hbrace, hname, hcolon, hvalue, hclosing]
  decide

private theorem significant_exponent_index : significant 0 "o[1e1]".toList =
    [⟨.identifier, "o", 0⟩, ⟨.leftBracket, "[", 1⟩, ⟨.numberLiteral, "1e1", 2⟩,
      ⟨.rightBracket, "]", 5⟩, ⟨.eof, "", 6⟩] := by
  have hrun : Name.run Name.isStart ['o', '[', '1', 'e', '1', ']'] = ⟨['o'], 1, true⟩ := by
    refine @Lexeme.run_raw ['[', '1', 'e', '1', ']'] Name.isStart ['o']
      (List.forall_mem_singleton.mpr (by decide)) fun c hc => ?_
    obtain rfl := Option.some.inj hc
    decide
  have hhead : Lexeme.first 'o' ['[', '1', 'e', '1', ']'] = ⟨.identifier, ['o'], 0⟩ := by
    have hkind : Name.kind (String.ofList ['o']) = .identifier := by decide
    rw [Lexeme.first_name (.inl (by decide)), Lexeme.name, hrun]
    simp [hkind]
  have hopening : Lexeme.first '[' ['1', 'e', '1', ']'] = ⟨.leftBracket, ['['], 0⟩ := rfl
  have hindex : Lexeme.first '1' ['e', '1', ']'] = ⟨.numberLiteral, ['1', 'e', '1'], 2⟩ := rfl
  have hclosing : Lexeme.first ']' [] = ⟨.rightBracket, [']'], 0⟩ := rfl
  have hchars : "o[1e1]".toList = ['o', '[', '1', 'e', '1', ']'] := rfl
  rw [significant, hchars]
  simp [scanFrom, hhead, hopening, hindex, hclosing]
  decide

-- The name is hexadecimal and the index has an exponent
theorem evaluate_numeric_name_ten :
    let ten : Number := .ofNat 10
    let v : Value := .object ⟨[(ten.key, .number (.ofNat 2))]⟩
    let env : Environment := ⟨.idle, .empty, .empty⟩
    let env' : Environment := ⟨.idle, .empty, { locals := fun _ => some v }⟩
    ⟨.numberLiteral, "0xA", 1⟩ ∈ scan "\x7b0xA:2\x7d" ∧
      number? ⟨.numberLiteral, "0xA", 1⟩ = some ten ∧
      number? ⟨.numberLiteral, "1e1", 2⟩ = some ten ∧
      (env.evaluateText "\x7b0xA:2\x7d").2 = .ok v ∧
      env'.evaluateText "o[1e1]" = ([], .ok (.number (.ofNat 2))) := by
  intro ten v env env'
  have hx : number? ⟨.numberLiteral, "0xA", 1⟩ = some ten := by decide +kernel
  have hy : number? ⟨.numberLiteral, "1e1", 2⟩ = some ten := by decide +kernel
  have htwo : number? ⟨.numberLiteral, "2", 5⟩ = some (.ofNat 2) := by decide +kernel
  have hname : (significant 0 "\x7b0xA:2\x7d".toList)[1]? = some ⟨.numberLiteral, "0xA", 1⟩ := by
    rw [significant_hexadecimal_name]
    rfl
  have hmem : ⟨.numberLiteral, "0xA", 1⟩ ∈ scan "\x7b0xA:2\x7d" :=
    (List.mem_filter.mp (List.mem_of_getElem? hname)).1
  have hparse : Expr.parse "\x7b0xA:2\x7d" = .ok (.object [(ten.key, .number (.ofNat 2))]) := by
    have hpair : Derives (.members [(ten.key, .number (.ofNat 2))])
        [⟨.numberLiteral, "0xA", 1⟩, ⟨.colon, ":", 4⟩, ⟨.numberLiteral, "2", 5⟩] :=
      .lastMember (.number rfl hx) rfl (.scalar (.number rfl htwo))
    have hobject : Derives (.value (.object [(ten.key, .number (.ofNat 2))]))
        [⟨.leftBrace, "\x7b", 0⟩, ⟨.numberLiteral, "0xA", 1⟩, ⟨.colon, ":", 4⟩,
          ⟨.numberLiteral, "2", 5⟩, ⟨.rightBrace, "\x7d", 6⟩] := .object rfl hpair rfl
    refine @Parser.parse_of_derives _ _ 7 _ ?_ hobject (by decide)
    exact significant_hexadecimal_name
  have hv : (env.evaluateText "\x7b0xA:2\x7d").2 = .ok v := by
    simp only [evaluateText, hparse]
    rfl
  obtain ⟨-, hread⟩ := evaluate_numeric_name hmem hx hy
  obtain ⟨w, hobject, hvalue⟩ := hread env env' v "o" ⟨⟨_, _, hparse⟩, hname⟩ hv
    ⟨0, 1, 5, 6, significant_exponent_index⟩ rfl
  obtain rfl : w = .number (.ofNat 2) := by
    simp only [v, Value.object.injEq, Fields.mk.injEq, List.cons.injEq, Prod.mk.injEq] at hobject
    exact hobject.1.2.symm
  have hequal : ten.equal ten = true :=
    Number.equal_iff.mpr ⟨fun hnan => Number.noConfusion hnan, rfl⟩
  have hten := hvalue rfl
  rw [if_pos hequal] at hten
  exact ⟨hmem, hx, hy, hv, hten⟩

end Environment

end DeclarativeOptions
