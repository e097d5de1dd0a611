import DeclarativeOptions.Proofs.Grammar

namespace DeclarativeOptions.Grammar

variable {t u : Token} {tokens others rest rest' : List Token}

theorem scalar_kind {e : Expr} (h : Scalar e t) :
    t.kind ∈ [TokenKind.falseLiteral, .nullLiteral, .trueLiteral, .stringLiteral,
      .numberLiteral] := by
  cases h <;> simp [*]

theorem scalar_unique {e e' : Expr} (h : Scalar e t) (h' : Scalar e' t) : e = e' := by
  cases h <;> cases h' <;> simp_all

theorem key_unique {key key' : IndexKey} (h : Key key t) (h' : Key key' t) : key = key' := by
  cases h <;> cases h' <;> simp_all

theorem propertyName_unique {key key' : String} (h : PropertyName key t)
    (h' : PropertyName key' t) : key = key' := by
  cases h <;> cases h' <;> simp_all

-- What cannot go on with a chain, and what begins no value
def EndsChain (rest : List Token) : Prop :=
  ∀ t ∈ rest.head?, t.kind ≠ .dot ∧ t.kind ≠ .leftBracket ∧ t.kind ≠ .leftParen

theorem suffix_unique {read read' : Accessor} (h : Suffix read tokens) (h' : Suffix read' others)
    (heq : tokens ++ rest = others ++ rest') : read = read' ∧ tokens = others := by
  cases h with
  | name hpoint ht =>
    cases h' with
    | name => simp_all
    | index => simp_all
  | index hopening hkey hclosing =>
    cases h' with
    | name => simp_all
    | index hopening' hkey' hclosing' =>
      simp only [List.cons_append, List.nil_append, List.cons.injEq] at heq
      obtain ⟨rfl, rfl, rfl, -⟩ := heq
      exact ⟨by rw [key_unique hkey hkey'], rfl⟩

theorem suffix_first {read : Accessor} (h : Suffix read tokens) :
    ∃ t rest, tokens = t :: rest ∧ (t.kind = .dot ∨ t.kind = .leftBracket) := by
  cases h with
  | name hpoint _ => exact ⟨_, _, rfl, .inl hpoint⟩
  | index hopening _ _ => exact ⟨_, _, rfl, .inr hopening⟩

theorem suffixes_unique {reads reads' : List Accessor} (h : Suffixes reads tokens)
    (h' : Suffixes reads' others) (hrest : EndsChain rest) (hrest' : EndsChain rest')
    (heq : tokens ++ rest = others ++ rest') : reads = reads' ∧ tokens = others := by
  induction h generalizing reads' others with
  | nil =>
    cases h' with
    | nil => exact ⟨rfl, rfl⟩
    | cons hread' hreads' =>
      obtain ⟨t, more, rfl, ht⟩ := suffix_first hread'
      obtain rfl : rest = _ := heq
      have hends := hrest t (by simp)
      simp_all
  | cons hread hreads ih =>
    cases h' with
    | nil =>
      obtain ⟨t, more, rfl, ht⟩ := suffix_first hread
      obtain rfl : _ = rest' := heq
      have hends := hrest' t (by simp)
      simp_all
    | cons hread' hreads' =>
      rw [List.append_assoc, List.append_assoc] at heq
      obtain ⟨rfl, rfl⟩ := suffix_unique hread hread' heq
      obtain ⟨rfl, rfl⟩ := ih hreads' (List.append_cancel_left heq)
      exact ⟨rfl, rfl⟩

-- A head is a call exactly if a parenthesis follows its name
theorem start_unique {head head' : Head} (h : Start head tokens) (h' : Start head' others)
    (hrest : ∀ t ∈ rest.head?, t.kind ≠ .leftParen)
    (hrest' : ∀ t ∈ rest'.head?, t.kind ≠ .leftParen)
    (heq : tokens ++ rest = others ++ rest') : head = head' ∧ tokens = others := by
  cases h with
  | identifier ht =>
    cases h' with
    | identifier => simp_all
    | call ht' hopening' =>
      obtain ⟨-, rfl⟩ := List.cons.inj heq
      simp_all
  | call ht hopening =>
    cases h' with
    | identifier =>
      obtain ⟨-, rfl⟩ := List.cons.inj heq
      simp_all
    | call => simp_all

-- The first token of a value tells how the value is derived

theorem value_first {e : Expr} (h : Derives (.value e) tokens)
    (heq : t :: rest = tokens ++ rest') : t.kind ∈ Parser.valueStart := by
  cases h with
  | scalar h =>
    obtain ⟨rfl, -⟩ := List.cons.inj heq
    cases h <;> simp [Parser.valueStart, *]
  | access hstart _ =>
    cases hstart <;> obtain ⟨rfl, -⟩ := List.cons.inj heq <;> simp [Parser.valueStart, *]
  | array hopening _ _ =>
    obtain ⟨rfl, -⟩ := List.cons.inj heq
    simp [Parser.valueStart, hopening]
  | object hopening _ _ =>
    obtain ⟨rfl, -⟩ := List.cons.inj heq
    simp [Parser.valueStart, hopening]

-- No value begins where the slots of an array end or where a slot is left out
theorem not_value_of_kind {e : Expr} (ht : t.kind = .rightBracket ∨ t.kind = .comma)
    (heq : t :: rest = tokens ++ rest') : ¬Derives (.value e) tokens := by
  intro h
  have hfirst := value_first h heq
  rcases ht with ht | ht <;> simp [ht, Parser.valueStart] at hfirst

private theorem value_of_scalar {e e' : Expr} (hv : Scalar e t) (h : Derives (.value e') tokens)
    (heq : t :: rest = tokens ++ rest') : e = e' ∧ [t] = tokens := by
  have hkind := scalar_kind hv
  cases h with
  | scalar hv' =>
    obtain ⟨rfl, -⟩ := List.cons.inj heq
    exact ⟨scalar_unique hv hv', rfl⟩
  | access hstart _ =>
    cases hstart <;> obtain ⟨rfl, -⟩ := List.cons.inj heq <;> simp_all
  | array hopening _ _ =>
    obtain ⟨rfl, -⟩ := List.cons.inj heq
    simp [hopening] at hkind
  | object hopening _ _ =>
    obtain ⟨rfl, -⟩ := List.cons.inj heq
    simp [hopening] at hkind

private theorem value_of_identifier {e : Expr} (ht : t.kind = .identifier)
    (h : Derives (.value e) tokens) (heq : t :: rest = tokens ++ rest') :
    ∃ head reads start suffixes, e = .access ⟨head, reads⟩ ∧ tokens = start ++ suffixes ∧
      Start head start ∧ Suffixes reads suffixes := by
  cases h with
  | scalar hv =>
    obtain ⟨rfl, -⟩ := List.cons.inj heq
    simpa [ht] using scalar_kind hv
  | access hstart hreads => exact ⟨_, _, _, _, rfl, rfl, hstart, hreads⟩
  | array hopening _ _ =>
    obtain ⟨rfl, -⟩ := List.cons.inj heq
    simp [ht] at hopening
  | object hopening _ _ =>
    obtain ⟨rfl, -⟩ := List.cons.inj heq
    simp [ht] at hopening

private theorem value_of_leftBracket {e : Expr} (ht : t.kind = .leftBracket)
    (h : Derives (.value e) tokens) (heq : t :: rest = tokens ++ rest') :
    ∃ slots inside closing, e = .array slots ∧ tokens = t :: inside ++ [closing] ∧
      Derives (.elements slots) inside ∧ closing.kind = .rightBracket := by
  cases h with
  | scalar hv =>
    obtain ⟨rfl, -⟩ := List.cons.inj heq
    simpa [ht] using scalar_kind hv
  | access hstart _ =>
    cases hstart <;> obtain ⟨rfl, -⟩ := List.cons.inj heq <;> simp_all
  | array _ hslots hclosing =>
    obtain ⟨rfl, -⟩ := List.cons.inj heq
    exact ⟨_, _, _, rfl, rfl, hslots, hclosing⟩
  | object hopening _ _ =>
    obtain ⟨rfl, -⟩ := List.cons.inj heq
    simp [ht] at hopening

private theorem value_of_leftBrace {e : Expr} (ht : t.kind = .leftBrace)
    (h : Derives (.value e) tokens) (heq : t :: rest = tokens ++ rest') :
    ∃ pairs inside closing, e = .object pairs ∧ tokens = t :: inside ++ [closing] ∧
      Derives (.members pairs) inside ∧ closing.kind = .rightBrace := by
  cases h with
  | scalar hv =>
    obtain ⟨rfl, -⟩ := List.cons.inj heq
    simpa [ht] using scalar_kind hv
  | access hstart _ =>
    cases hstart <;> obtain ⟨rfl, -⟩ := List.cons.inj heq <;> simp_all
  | array hopening _ _ =>
    obtain ⟨rfl, -⟩ := List.cons.inj heq
    simp [ht] at hopening
  | object _ hpairs hclosing =>
    obtain ⟨rfl, -⟩ := List.cons.inj heq
    exact ⟨_, _, _, rfl, rfl, hpairs, hclosing⟩

-- That the tokens of a phrase determine it, whatever may follow them
def Determines : Phrase → List Token → Prop
  | .value e, tokens => ∀ {e' others rest rest'}, Derives (.value e') others → EndsChain rest →
      EndsChain rest' → tokens ++ rest = others ++ rest' → e = e' ∧ tokens = others
  | .elements slots, tokens => ∀ {slots' others closing closing' rest rest'},
      Derives (.elements slots') others → closing.kind = .rightBracket →
      closing'.kind = .rightBracket → tokens ++ closing :: rest = others ++ closing' :: rest' →
      slots = slots' ∧ tokens = others
  | .members pairs, tokens => ∀ {pairs' others closing closing' rest rest'},
      Derives (.members pairs') others → closing.kind = .rightBrace →
      closing'.kind = .rightBrace → tokens ++ closing :: rest = others ++ closing' :: rest' →
      pairs = pairs' ∧ tokens = others

theorem endsChain_of_kind (ht : t.kind ∈ [TokenKind.comma, .rightBracket, .rightBrace]) :
    EndsChain (t :: rest) := by
  intro u hu
  obtain rfl := Option.some.inj hu
  refine ⟨?_, ?_, ?_⟩ <;> intro hkind <;> simp [hkind] at ht

theorem start_first {head : Head} (h : Start head tokens) :
    ∃ t rest, tokens = t :: rest ∧ t.kind = .identifier := by
  cases h with
  | identifier ht => exact ⟨_, _, rfl, ht⟩
  | call ht => exact ⟨_, _, rfl, ht⟩

private theorem determines_access {head : Head} {reads : List Accessor}
    {start suffixes : List Token} (hstart : Start head start) (hreads : Suffixes reads suffixes) :
    Determines (.value (.access ⟨head, reads⟩)) (start ++ suffixes) := by
  intro e' others rest rest' h' hrest hrest' heq
  -- Neither a read nor what ends a chain begins with a parenthesis
  have hparen {reads : List Accessor} {suffixes rest : List Token} (h : Suffixes reads suffixes)
      (hrest : EndsChain rest) : ∀ t ∈ (suffixes ++ rest).head?, t.kind ≠ .leftParen := by
    intro t ht
    cases h with
    | nil => exact (hrest t ht).2.2
    | cons hread _ =>
      obtain ⟨u, more, rfl, hu⟩ := suffix_first hread
      obtain rfl := Option.some.inj ht
      rcases hu with hu | hu <;> simp [hu]
  obtain ⟨t, more, rfl, ht⟩ := start_first hstart
  obtain ⟨head', reads', start', suffixes', rfl, rfl, hstart', hreads'⟩ :=
    value_of_identifier ht h' heq
  rw [List.append_assoc, List.append_assoc] at heq
  obtain ⟨rfl, rfl⟩ := start_unique hstart hstart' (hparen hreads hrest) (hparen hreads' hrest') heq
  obtain ⟨rfl, rfl⟩ := suffixes_unique hreads hreads' hrest hrest' (List.append_cancel_left heq)
  exact ⟨rfl, rfl⟩

private theorem determines_array {slots : List (Option Expr)} {opening closing : Token}
    (hopening : opening.kind = .leftBracket) (hslots : Determines (.elements slots) tokens)
    (hclosing : closing.kind = .rightBracket) :
    Determines (.value (.array slots)) (opening :: tokens ++ [closing]) := by
  intro e' others rest rest' h' _ _ heq
  obtain ⟨slots', inside, closing', rfl, rfl, hslots', hclosing'⟩ :=
    value_of_leftBracket hopening h' heq
  simp only [List.cons_append, List.append_assoc, List.nil_append, List.cons.injEq,
    true_and] at heq
  obtain ⟨rfl, rfl⟩ := hslots hslots' hclosing hclosing' heq
  obtain ⟨rfl, -⟩ := List.cons.inj (List.append_cancel_left heq)
  exact ⟨rfl, rfl⟩

private theorem determines_object {pairs : List (String × Expr)} {opening closing : Token}
    (hopening : opening.kind = .leftBrace) (hpairs : Determines (.members pairs) tokens)
    (hclosing : closing.kind = .rightBrace) :
    Determines (.value (.object pairs)) (opening :: tokens ++ [closing]) := by
  intro e' others rest rest' h' _ _ heq
  obtain ⟨pairs', inside, closing', rfl, rfl, hpairs', hclosing'⟩ :=
    value_of_leftBrace hopening h' heq
  simp only [List.cons_append, List.append_assoc, List.nil_append, List.cons.injEq,
    true_and] at heq
  obtain ⟨rfl, rfl⟩ := hpairs hpairs' hclosing hclosing' heq
  obtain ⟨rfl, -⟩ := List.cons.inj (List.append_cancel_left heq)
  exact ⟨rfl, rfl⟩

private theorem determines_noElements : Determines (.elements []) [] := by
  intro slots' others closing closing' rest rest' h' hclosing hclosing' heq
  cases h' with
  | noElements => exact ⟨rfl, rfl⟩
  | hole hcomma _ =>
    obtain ⟨rfl, -⟩ := List.cons.inj heq
    simp [hclosing] at hcomma
  | lastElement he => exact absurd he (not_value_of_kind (.inl hclosing) heq)
  | element he _ _ =>
    rw [List.append_assoc] at heq
    exact absurd he (not_value_of_kind (.inl hclosing) heq)

private theorem determines_hole {slots : List (Option Expr)} {comma : Token}
    (hcomma : comma.kind = .comma) (hslots : Determines (.elements slots) tokens) :
    Determines (.elements (none :: slots)) (comma :: tokens) := by
  intro slots' others closing closing' rest rest' h' hclosing hclosing' heq
  cases h' with
  | noElements =>
    obtain ⟨rfl, -⟩ := List.cons.inj heq
    simp [hclosing'] at hcomma
  | hole hcomma' hslots' =>
    obtain ⟨rfl, hinside⟩ := List.cons.inj heq
    obtain ⟨rfl, rfl⟩ := hslots hslots' hclosing hclosing' hinside
    exact ⟨rfl, rfl⟩
  | lastElement he => exact absurd he (not_value_of_kind (.inr hcomma) heq)
  | element he _ _ =>
    rw [List.append_assoc] at heq
    exact absurd he (not_value_of_kind (.inr hcomma) heq)

private theorem determines_lastElement {e : Expr} (hderives : Derives (.value e) tokens)
    (he : Determines (.value e) tokens) : Determines (.elements [some e]) tokens := by
  intro slots' others closing closing' rest rest' h' hclosing hclosing' heq
  have hends : EndsChain (closing :: rest) := endsChain_of_kind (by simp [hclosing])
  cases h' with
  | noElements => exact absurd hderives (not_value_of_kind (.inl hclosing') heq.symm)
  | hole hcomma' _ => exact absurd hderives (not_value_of_kind (.inr hcomma') heq.symm)
  | lastElement he' =>
    obtain ⟨rfl, rfl⟩ := he he' hends (endsChain_of_kind (by simp [hclosing'])) heq
    exact ⟨rfl, rfl⟩
  | element he' hcomma' _ =>
    rw [List.append_assoc] at heq
    obtain ⟨rfl, rfl⟩ := he he' hends (endsChain_of_kind (by simp [hcomma'])) heq
    obtain ⟨rfl, -⟩ := List.cons.inj (List.append_cancel_left heq)
    simp [hclosing] at hcomma'

private theorem determines_element {e : Expr} {slots : List (Option Expr)} {comma : Token}
    {more : List Token} (hderives : Derives (.value e) tokens)
    (he : Determines (.value e) tokens) (hcomma : comma.kind = .comma)
    (hslots : Determines (.elements slots) more) :
    Determines (.elements (some e :: slots)) (tokens ++ comma :: more) := by
  intro slots' others closing closing' rest rest' h' hclosing hclosing' heq
  rw [List.append_assoc] at heq
  have hends : EndsChain (comma :: more ++ closing :: rest) :=
    endsChain_of_kind (by simp [hcomma])
  cases h' with
  | noElements => exact absurd hderives (not_value_of_kind (.inl hclosing') heq.symm)
  | hole hcomma' _ => exact absurd hderives (not_value_of_kind (.inr hcomma') heq.symm)
  | lastElement he' =>
    obtain ⟨rfl, rfl⟩ := he he' hends (endsChain_of_kind (by simp [hclosing'])) heq
    obtain ⟨rfl, -⟩ := List.cons.inj (List.append_cancel_left heq)
    simp [hclosing'] at hcomma
  | element he' hcomma' hslots' =>
    rw [List.append_assoc] at heq
    obtain ⟨rfl, rfl⟩ := he he' hends (endsChain_of_kind (by simp [hcomma'])) heq
    obtain ⟨rfl, hinside⟩ := List.cons.inj (List.append_cancel_left heq)
    obtain ⟨rfl, rfl⟩ := hslots hslots' hclosing hclosing' hinside
    exact ⟨rfl, rfl⟩

private theorem determines_noMembers : Determines (.members []) [] := by
  intro pairs' others closing closing' rest rest' h' hclosing hclosing' heq
  cases h' with
  | noMembers => exact ⟨rfl, rfl⟩
  | lastMember hname _ _ =>
    obtain ⟨rfl, -⟩ := List.cons.inj heq
    exact absurd hclosing (propertyName_kind hname)
  | member hname _ _ _ _ =>
    obtain ⟨rfl, -⟩ := List.cons.inj heq
    exact absurd hclosing (propertyName_kind hname)

private theorem determines_lastMember {key : String} {e : Expr} {name colon : Token}
    (hname : PropertyName key name) (he : Determines (.value e) tokens) :
    Determines (.members [(key, e)]) (name :: colon :: tokens) := by
  intro pairs' others closing closing' rest rest' h' hclosing hclosing' heq
  have hends : EndsChain (closing :: rest) := endsChain_of_kind (by simp [hclosing])
  cases h' with
  | noMembers =>
    obtain ⟨rfl, -⟩ := List.cons.inj heq
    exact absurd hclosing' (propertyName_kind hname)
  | lastMember hname' _ he' =>
    simp only [List.cons_append, List.cons.injEq] at heq
    obtain ⟨rfl, rfl, heq⟩ := heq
    obtain ⟨rfl, rfl⟩ := he he' hends (endsChain_of_kind (by simp [hclosing'])) heq
    exact ⟨by rw [propertyName_unique hname hname'], rfl⟩
  | member hname' _ he' hcomma' _ =>
    simp only [List.cons_append, List.append_assoc, List.cons.injEq] at heq
    obtain ⟨rfl, rfl, heq⟩ := heq
    obtain ⟨rfl, rfl⟩ := he he' hends (endsChain_of_kind (by simp [hcomma'])) heq
    obtain ⟨rfl, -⟩ := List.cons.inj (List.append_cancel_left heq)
    simp [hclosing] at hcomma'

private theorem determines_member {key : String} {e : Expr} {pairs : List (String × Expr)}
    {name colon comma : Token} {more : List Token} (hname : PropertyName key name)
    (he : Determines (.value e) tokens) (hcomma : comma.kind = .comma)
    (hpairs : Determines (.members pairs) more) :
    Determines (.members ((key, e) :: pairs)) (name :: colon :: tokens ++ comma :: more) := by
  intro pairs' others closing closing' rest rest' h' hclosing hclosing' heq
  simp only [List.cons_append, List.append_assoc] at heq
  have hends : EndsChain (comma :: (more ++ closing :: rest)) :=
    endsChain_of_kind (by simp [hcomma])
  cases h' with
  | noMembers =>
    obtain ⟨rfl, -⟩ := List.cons.inj heq
    exact absurd hclosing' (propertyName_kind hname)
  | lastMember hname' _ he' =>
    simp only [List.cons_append, List.cons.injEq] at heq
    obtain ⟨rfl, rfl, heq⟩ := heq
    obtain ⟨rfl, rfl⟩ := he he' hends (endsChain_of_kind (by simp [hclosing'])) heq
    obtain ⟨rfl, -⟩ := List.cons.inj (List.append_cancel_left heq)
    simp [hclosing'] at hcomma
  | member hname' _ he' hcomma' hpairs' =>
    simp only [List.cons_append, List.append_assoc, List.cons.injEq] at heq
    obtain ⟨rfl, rfl, heq⟩ := heq
    obtain ⟨rfl, rfl⟩ := he he' hends (endsChain_of_kind (by simp [hcomma'])) heq
    obtain ⟨rfl, hinside⟩ := List.cons.inj (List.append_cancel_left heq)
    obtain ⟨rfl, rfl⟩ := hpairs hpairs' hclosing hclosing' hinside
    exact ⟨by rw [propertyName_unique hname hname'], rfl⟩

theorem determines_of_derives {p : Phrase} (h : Derives p tokens) : Determines p tokens := by
  induction h with
  | scalar hv => exact fun h' _ _ heq => value_of_scalar hv h' heq
  | access hstart hreads => exact determines_access hstart hreads
  | array hopening _ hclosing ih => exact determines_array hopening ih hclosing
  | object hopening _ hclosing ih => exact determines_object hopening ih hclosing
  | noElements => exact determines_noElements
  | hole hcomma _ ih => exact determines_hole hcomma ih
  | lastElement he ih => exact determines_lastElement he ih
  | element he hcomma _ ihe ihslots => exact determines_element he ihe hcomma ihslots
  | noMembers => exact determines_noMembers
  | lastMember hname _ _ ih => exact determines_lastMember hname ih
  | member hname _ _ hcomma _ ihe ihpairs => exact determines_member hname ihe hcomma ihpairs

-- A list of tokens is a value of one tree at most, however deep it is
theorem derives_unique {e e' : Expr} (h : Derives (.value e) tokens)
    (h' : Derives (.value e') tokens) : e = e' := by
  have hends : EndsChain [] := by simp [EndsChain]
  exact (determines_of_derives h h' hends hends rfl).1

end DeclarativeOptions.Grammar
