import DeclarativeOptions.Proofs.Cursor.Following

namespace DeclarativeOptions.Cursor

open DeclarativeOptions.Parser

variable {c : Cursor} {s : State} {mode : Mode} {t : Token} {frames : List Frame}
  {chain : Access} {n : Nat}

-- Whether something has to follow what has been read last
def inPart : Mode → Bool
  | .after _ | .head _ | .chain _ => false
  | _ => true

theorem complete_eq_none (hmode : inPart mode = true) :
    (⟨mode, frames⟩ : State).complete? = none := by
  cases mode with
  | after _ | head _ | chain _ => simp [inPart] at hmode
  | _ => cases frames <;> rfl

theorem refuses_of_step (hstep : s.step? t = none) (hcomplete : s.complete? = none) :
    s.Refuses t := ⟨hstep, fun _ => hcomplete⟩

theorem follows_takeNumber {next : Number → State} (h : c.Stands)
    (ht : c.tokens[c.position]? = some t) (hkind : t.kind = .numberLiteral)
    (hstep : s.step? t = t.number?.map next)
    (hexpected : s.expected .numberLiteral = .one .numberLiteral) :
    Follows takeNumber s next c := by
  refine follows_current h fun u hu => ?_
  obtain rfl := Option.some.inj (ht.symm.trans hu)
  cases hn : t.number? with
  | some n =>
    rw [hn] at hstep
    refine follows_advance h ht hstep fun c' hleads _ => ?_
    exact follows_pure hleads.stands rfl
  | none =>
    rw [hn] at hstep
    exact follows_unexpected h ht ⟨hstep, by simp [hkind]⟩ (hkind ▸ hexpected)

theorem follows_expect (kind : TokenKind) (s' : State) (h : c.Stands)
    (hcomplete : s.complete? = none)
    (hstep : ∀ t, s.step? t = if t.kind = kind then some s' else none)
    (hexpected : ∀ unexpected, s.expected unexpected = .one kind) :
    Follows (expect kind) s (fun _ => s') c := by
  refine follows_current h fun t ht => ?_
  by_cases hkind : t.kind = kind
  · rw [if_pos hkind, ← bind_pure advance]
    refine follows_advance h ht ((hstep t).trans (if_pos hkind)) fun c' hleads _ => ?_
    exact follows_pure hleads.stands rfl
  · rw [if_neg hkind]
    exact follows_unexpected h ht (refuses_of_step ((hstep t).trans (if_neg hkind)) hcomplete)
      (hexpected t.kind)

private theorem follows_propertyName {pairs : List (String × Expr)} (h : c.Stands)
    (ht : c.tokens[c.position]? = some t) (hbrace : t.kind ≠ .rightBrace) :
    Follows propertyName ⟨.property pairs, frames⟩ (fun key => ⟨.named pairs key, frames⟩) c := by
  have hstep : (⟨.property pairs, frames⟩ : State).step? t =
      (propertyName? t).map fun key => ⟨.named pairs key, frames⟩ := if_neg hbrace
  unfold propertyName? at hstep
  refine follows_current h fun u hu => ?_
  obtain rfl := Option.some.inj (ht.symm.trans hu)
  cases hkind : t.kind <;> simp only [hkind] at hstep ⊢
  case identifier | reservedWord | thisKeyword | trueLiteral | falseLiteral | nullLiteral |
      stringLiteral => exact follows_takeText _ h ht hstep
  case numberLiteral =>
    rw [Option.map_map] at hstep
    refine Follows.bind (follows_takeNumber h ht hkind hstep rfl) fun n c' hleads => ?_
    exact follows_pure hleads.stands rfl
  all_goals
    exact follows_unexpected h ht (refuses_of_step hstep (complete_eq_none rfl))
      (by rw [hkind]; rfl)

private theorem follows_indexKey (h : c.Stands) :
    Follows indexKey ⟨.bracket chain, frames⟩ (fun key => ⟨.key chain key, frames⟩) c := by
  refine follows_current h fun t ht => ?_
  have hstep : (⟨.bracket chain, frames⟩ : State).step? t =
      (indexKey? t).map fun key => ⟨.key chain key, frames⟩ := rfl
  unfold indexKey? at hstep
  cases hkind : t.kind <;> simp only [hkind] at hstep ⊢
  case stringLiteral =>
    refine Follows.bind (follows_takeText (fun text => ⟨.key chain (.name text), frames⟩)
      h ht hstep) fun text c' hleads => ?_
    exact follows_pure hleads.stands rfl
  case numberLiteral =>
    rw [Option.map_map] at hstep
    refine Follows.bind (follows_takeNumber h ht hkind hstep rfl) fun n c' hleads => ?_
    exact follows_pure hleads.stands rfl
  all_goals
    exact follows_unexpected h ht (refuses_of_step hstep (complete_eq_none rfl))
      (by rw [hkind]; rfl)

-- The token behind a complete chain that does not extend it
private theorem runs_chain (h : c.Stands) (ht : c.tokens[c.position]? = some t)
    (hdot : t.kind ≠ .dot) (hbracket : t.kind ≠ .leftBracket) :
    c.runs ⟨.chain chain, frames⟩ = c.runs ⟨.after (.access chain), frames⟩ := by
  have hstep : extendChain? chain frames t = endValue? (.access chain) frames t := by
    unfold extendChain?
    split
    · contradiction
    · contradiction
    · rfl
  exact runs_of_agree h ht hstep (by cases frames <;> rfl) rfl

private theorem follows_extended (h : c.Stands) (hn : c.tokens.length ≤ c.position + n) :
    Follows chain.extended ⟨.chain chain, frames⟩ (fun e => ⟨.after (.access e), frames⟩) c := by
  induction n generalizing c chain with
  | zero =>
    have hlt := h.position_lt
    omega
  | succ n ih =>
    rw [Access.extended]
    refine follows_current h fun t ht => ?_
    split
    · rename_i hdot
      have hstep : (⟨.chain chain, frames⟩ : State).step? t = some ⟨.point chain, frames⟩ := by
        simp only [State.step?, extendChain?, hdot]
      refine follows_advance h ht hstep fun c' hleads hlt => ?_
      have hlength := hleads.length_eq
      refine follows_current hleads.stands fun t ht => ?_
      by_cases hname : t.kind = .identifier ∨ t.kind = .reservedWord
      · have hstep : (⟨.point chain, frames⟩ : State).step? t =
            some ⟨.chain (chain.push (.name t.text)), frames⟩ := if_pos hname
        rw [if_pos hname]
        refine Follows.bind (follows_takeText (fun text =>
          ⟨.chain (chain.push (.name text)), frames⟩) hleads.stands ht hstep)
          fun text c'' hleads' => ?_
        have hle := hleads'.position_le
        have hlength' := hleads'.length_eq
        exact ih hleads'.stands (by omega)
      · have hstep : (⟨.point chain, frames⟩ : State).step? t = none := if_neg hname
        rw [if_neg hname]
        exact follows_unexpected hleads.stands ht
          (refuses_of_step hstep (complete_eq_none rfl)) rfl
    · rename_i hbracket
      have hstep : (⟨.chain chain, frames⟩ : State).step? t = some ⟨.bracket chain, frames⟩ := by
        simp only [State.step?, extendChain?, hbracket]
      refine follows_advance h ht hstep fun c₁ hleads₁ hlt => ?_
      refine Follows.bind (follows_indexKey hleads₁.stands) fun key c₂ hleads₂ => ?_
      refine Follows.bind (follows_expect .rightBracket ⟨.chain (chain.push (.index key)), frames⟩
        hleads₂.stands (complete_eq_none rfl) (fun _ => rfl) (fun _ => rfl))
        fun _ c₃ hleads₃ => ?_
      have hlength := (hleads₁.trans (hleads₂.trans hleads₃)).length_eq
      have hle := (hleads₂.trans hleads₃).position_le
      exact ih hleads₃.stands (by omega)
    · rename_i hdot hbracket
      exact follows_pure h (runs_chain h ht hdot hbracket)

-- The head of a chain, as the first token of a value
private theorem follows_head (h : c.Stands) (ht : c.tokens[c.position]? = some t)
    (hkind : t.kind = .identifier) :
    Follows head ⟨.value, frames⟩ (fun head => ⟨.chain ⟨head, []⟩, frames⟩) c := by
  have hstep : (⟨.value, frames⟩ : State).step? t = some ⟨.head t.text, frames⟩ := by
    simp only [State.step?, startValue?, hkind]
  refine Follows.bind (follows_takeText (fun name => ⟨.head name, frames⟩) h ht hstep)
    fun name c₁ hleads₁ => ?_
  refine follows_current hleads₁.stands fun t ht => ?_
  by_cases hparen : t.kind = .leftParen
  · have hstep : (⟨.head name, frames⟩ : State).step? t = some ⟨.call name, frames⟩ :=
      if_pos hparen
    rw [if_pos hparen]
    refine follows_advance hleads₁.stands ht hstep fun c₂ hleads₂ _ => ?_
    refine follows_current hleads₂.stands fun t ht => ?_
    by_cases hstring : t.kind = .stringLiteral
    · have hstep : (⟨.call name, frames⟩ : State).step? t =
          some ⟨.argument name t.text, frames⟩ := if_pos hstring
      rw [if_pos hstring]
      refine Follows.bind (follows_takeText (fun argument => ⟨.argument name argument, frames⟩)
        hleads₂.stands ht hstep) fun argument c₃ hleads₃ => ?_
      refine Follows.bind (follows_expect .rightParen ⟨.chain ⟨.call name argument, []⟩, frames⟩
        hleads₃.stands (complete_eq_none rfl) (fun _ => rfl) (fun _ => rfl))
        fun _ c₄ hleads₄ => ?_
      exact follows_pure hleads₄.stands rfl
    · have hstep : (⟨.call name, frames⟩ : State).step? t = none := if_neg hstring
      rw [if_neg hstring]
      exact follows_unexpected hleads₂.stands ht
        (refuses_of_step hstep (complete_eq_none rfl)) rfl
  · rw [if_neg hparen]
    refine follows_pure hleads₁.stands (runs_of_agree hleads₁.stands ht ?_ ?_ rfl)
    · exact if_neg hparen
    · cases frames <;> rfl

private theorem follows_within {inside : Reading Expr} {next : Expr → State}
    (h : Follows inside s next c.deeper) : Follows (within inside) s next c := by
  obtain ⟨result, c', hresult, hleads, hruns⟩ := h
  have happly : within inside c =
      (inside c.deeper).bind fun outcome => some (outcome.1, outcome.2.shallower) := rfl
  have hdepth : c'.depth - 1 = c.depth := by rw [hleads.depth, deeper, Nat.add_sub_cancel]
  refine ⟨result, c'.shallower, by rw [happly, hresult]; rfl, ?_, hruns⟩
  exact ⟨⟨hleads.stands.position_lt, hleads.stands.ends⟩, hleads.input, hdepth,
    hleads.position_le, hleads.token⟩

-- The state in which the parser begins a part that lies inside of the open literals
def startOf (frames : List Frame) : Part → State
  | .value => ⟨.value, frames⟩
  | .properties pairs => ⟨.property pairs, frames⟩
  | .slots filled => ⟨.slot filled, frames⟩

-- The literals that have been opened to get to the start of a part
def openedBy : Part → Nat
  | .value => 0
  | .properties _ | .slots _ => 1

-- What is to be shown of a part, for cursors with at most `n` tokens left
def PartFollows (part : Part) (n : Nat) : Prop :=
  ∀ (c : Cursor) (frames : List Frame), c.Stands → c.tokens.length ≤ c.position + n →
    c.depth = frames.length + openedBy part →
    Follows part.read (startOf frames part) (fun e => ⟨.after e, frames⟩) c

-- A literal that opens, unless it would be too deep
private theorem follows_literal {rest : Reading Expr} {inside : State} {next : Expr → State}
    (h : c.Stands) (ht : c.tokens[c.position]? = some t) (hdepth : c.depth = frames.length)
    (hstep : (⟨.value, frames⟩ : State).step? t =
      if frames.length < maxDepth then some inside else none)
    (hexpected : State.expectedValue t.kind = .oneOf scalarStart)
    (hrest : ∀ c', c.deeper.LeadsTo c' → c.position < c'.position → Follows rest inside next c') :
    Follows (do
      if maxDepth ≤ (← get).depth then unexpected (.oneOf scalarStart)
      else within do
        advance
        rest) ⟨.value, frames⟩ next c := by
  refine follows_get ?_
  by_cases hdeep : maxDepth ≤ c.depth
  · rw [if_pos hdeep]
    rw [if_neg (by omega)] at hstep
    exact follows_unexpected h ht (refuses_of_step hstep (complete_eq_none rfl)) hexpected
  · rw [if_neg hdeep]
    rw [if_pos (by omega)] at hstep
    have hstands : c.deeper.Stands := ⟨h.position_lt, h.ends⟩
    exact follows_within (follows_advance hstands ht hstep hrest)

private theorem follows_value (hproperties : PartFollows (.properties []) n)
    (hslots : PartFollows (.slots []) n) : PartFollows .value (n + 1) := by
  intro c frames h hn (hdepth : c.depth = frames.length)
  have hdeeper {c'} (hleads : c.deeper.LeadsTo c') (hlt : c.position < c'.position) :
      c'.tokens.length ≤ c'.position + n ∧ c'.depth = frames.length + 1 := by
    have hlength : c'.tokens.length = c.tokens.length := hleads.length_eq
    have hdepth' : c'.depth = c.depth + 1 := hleads.depth
    omega
  rw [Part.read]
  refine follows_current h fun t ht => ?_
  have hstep : (⟨.value, frames⟩ : State).step? t = startValue? frames t := rfl
  unfold startValue? at hstep
  cases hkind : t.kind <;> simp only [hkind] at hstep ⊢
  case falseLiteral | trueLiteral | nullLiteral =>
    exact follows_advance h ht hstep fun c' hleads _ => follows_pure hleads.stands rfl
  case numberLiteral =>
    refine Follows.bind (follows_takeNumber h ht hkind hstep rfl) fun n c' hleads => ?_
    exact follows_pure hleads.stands rfl
  case stringLiteral =>
    refine Follows.bind (follows_takeText (fun text => ⟨.after (.string text), frames⟩)
      h ht hstep) fun text c' hleads => ?_
    exact follows_pure hleads.stands rfl
  case leftBrace =>
    refine follows_literal h ht hdepth hstep (by rw [hkind]; rfl) fun c' hleads hlt => ?_
    obtain ⟨hn', hdepth'⟩ := hdeeper hleads hlt
    exact hproperties c' frames hleads.stands hn' hdepth'
  case leftBracket =>
    refine follows_literal h ht hdepth hstep (by rw [hkind]; rfl) fun c' hleads hlt => ?_
    obtain ⟨hn', hdepth'⟩ := hdeeper hleads hlt
    exact hslots c' frames hleads.stands hn' hdepth'
  case identifier =>
    refine Follows.bind (follows_head h ht hkind) fun head c₁ hleads₁ => ?_
    refine Follows.bind (follows_extended hleads₁.stands (Nat.le_add_left _ _))
      fun e c₂ hleads₂ => ?_
    exact follows_pure hleads₂.stands rfl
  all_goals
    exact follows_unexpected h ht (refuses_of_step hstep (complete_eq_none rfl))
      (by rw [hkind]; rfl)

private theorem follows_properties {pairs : List (String × Expr)}
    (hvalue : PartFollows .value (n + 1)) (ih : ∀ pairs, PartFollows (.properties pairs) n) :
    PartFollows (.properties pairs) (n + 1) := by
  intro c frames h hn (hdepth : c.depth = frames.length + 1)
  rw [Part.read]
  refine follows_current h fun t ht => ?_
  by_cases hbrace : t.kind = .rightBrace
  · have hstep : (⟨.property pairs, frames⟩ : State).step? t =
        some ⟨.after (.object pairs.reverse), frames⟩ := if_pos hbrace
    rw [if_pos hbrace]
    exact follows_advance h ht hstep fun c' hleads _ => follows_pure hleads.stands rfl
  · rw [if_neg hbrace]
    refine Follows.bind (follows_propertyName h ht hbrace) fun key c₁ hleads₁ => ?_
    refine Follows.bind (follows_expect .colon ⟨.value, .object pairs key :: frames⟩
      hleads₁.stands (complete_eq_none rfl) (fun _ => rfl) (fun _ => rfl))
      fun _ c₂ hleads₂ => ?_
    have hleads := hleads₁.trans hleads₂
    have hlength := hleads.length_eq
    have hle := hleads.position_le
    have hdepth₂ := hleads.depth
    refine Follows.bind (hvalue c₂ (.object pairs key :: frames) hleads₂.stands (by omega)
      (hdepth₂.trans hdepth)) fun e c₃ hleads₃ => ?_
    refine follows_current hleads₃.stands fun t ht => ?_
    have hstep : (⟨.after e, .object pairs key :: frames⟩ : State).step? t =
      endValue? e (.object pairs key :: frames) t := rfl
    unfold endValue? at hstep
    cases hkind : t.kind <;> simp only [hkind] at hstep ⊢
    case comma =>
      refine follows_advance hleads₃.stands ht hstep fun c₄ hleads₄ hlt => ?_
      have hleads' := hleads₃.trans hleads₄
      have hlength' := hleads'.length_eq
      have hle' := hleads₃.position_le
      exact ih _ c₄ frames hleads₄.stands (by omega) (hleads'.depth.trans (hdepth₂.trans hdepth))
    case rightBrace =>
      exact follows_advance hleads₃.stands ht hstep fun c' hleads _ =>
        follows_pure hleads.stands rfl
    all_goals exact follows_unexpected hleads₃.stands ht (refuses_of_step hstep rfl) rfl

private theorem follows_slots {filled : List (Option Expr)} (hvalue : PartFollows .value (n + 1))
    (ih : ∀ filled, PartFollows (.slots filled) n) : PartFollows (.slots filled) (n + 1) := by
  intro c frames h hn (hdepth : c.depth = frames.length + 1)
  have hafter {c' : Cursor} (hleads : c.LeadsTo c') (hlt : c.position < c'.position) :
      c'.tokens.length ≤ c'.position + n ∧ c'.depth = frames.length + 1 := by
    have hlength := hleads.length_eq
    have hdepth' := hleads.depth
    omega
  rw [Part.read]
  refine follows_current h fun t ht => ?_
  split
  · rename_i hbracket
    have hstep : (⟨.slot filled, frames⟩ : State).step? t =
        some ⟨.after (.array filled.reverse), frames⟩ := if_pos hbracket
    exact follows_advance h ht hstep fun c' hleads _ => follows_pure hleads.stands rfl
  · rename_i hcomma
    have hstep : (⟨.slot filled, frames⟩ : State).step? t =
        some ⟨.slot (none :: filled), frames⟩ := by
      simp only [State.step?, hcomma]
      rfl
    refine follows_advance h ht hstep fun c' hleads hlt => ?_
    obtain ⟨hn', hdepth'⟩ := hafter hleads hlt
    exact ih _ c' frames hleads.stands hn' hdepth'
  · rename_i hbracket hcomma
    have hstep : (⟨.slot filled, frames⟩ : State).step? t =
        (⟨.value, .array filled :: frames⟩ : State).step? t :=
      (if_neg hbracket).trans (if_neg hcomma)
    have hruns : c.runs ⟨.slot filled, frames⟩ = c.runs ⟨.value, .array filled :: frames⟩ :=
      runs_of_agree h ht hstep (complete_eq_none rfl) rfl
    refine Follows.of_runs (Follows.bind (hvalue c (.array filled :: frames) h hn hdepth)
      fun e c₁ hleads₁ => ?_) hruns
    refine follows_current hleads₁.stands fun t ht => ?_
    have hstep : (⟨.after e, .array filled :: frames⟩ : State).step? t =
      endValue? e (.array filled :: frames) t := rfl
    unfold endValue? at hstep
    cases hkind : t.kind <;> simp only [hkind] at hstep ⊢
    case comma =>
      refine follows_advance hleads₁.stands ht hstep fun c₂ hleads₂ hlt => ?_
      have hle := hleads₁.position_le
      obtain ⟨hn', hdepth'⟩ := hafter (hleads₁.trans hleads₂) (by omega)
      exact ih _ c₂ frames hleads₂.stands hn' hdepth'
    case rightBracket =>
      exact follows_advance hleads₁.stands ht hstep fun c' hleads _ =>
        follows_pure hleads.stands rfl
    all_goals exact follows_unexpected hleads₁.stands ht (refuses_of_step hstep rfl) rfl

-- The induction is on the tokens that are left: what is inside of a literal lies behind the brace
-- or bracket that opens it, and what is behind an element lies behind the comma
theorem follows (n : Nat) (part : Part) : PartFollows part n := by
  induction n generalizing part with
  | zero =>
    intro c frames h hn
    have hlt := h.position_lt
    omega
  | succ n ih =>
    have hvalue := follows_value (ih _) (ih _)
    cases part with
    | value => exact hvalue
    | properties pairs => exact follows_properties hvalue fun _ => ih _
    | slots filled => exact follows_slots hvalue fun _ => ih _

-- The end of a record, which is passed unless it is the last token
private theorem expect_eof (h : c.Stands) (e : Expr) :
    ∃ result c', (do expect .eof; return e) c = some (result, c') ∧ c.LeadsTo c' ∧
      c.runs ⟨.after e, []⟩ = (result, c'.position) := by
  obtain ⟨t, ht⟩ := h.exists_current
  rw [bind_apply, expect_apply ht]
  by_cases heof : t.kind = .eof
  · refine ⟨.ok e, c.forward, by rw [if_pos heof]; rfl, leadsTo_forward h, ?_⟩
    rw [runs, drop_position ht, runToEnd_of_complete rfl heof, forward]
    by_cases hlt : c.position + 1 < c.tokens.length
    · rw [if_pos hlt, if_neg (by simpa using hlt)]
    · rw [if_neg hlt, if_pos (by simpa using hlt)]
  · have hrefuses : (⟨.after e, []⟩ : State).Refuses t := ⟨rfl, fun h => absurd h heof⟩
    exact ⟨_, c, by rw [if_neg heof]; rfl, .refl h, runs_of_refuses h ht hrefuses⟩

-- A record is read as the parser reads it
theorem record_eq (h : c.Stands) (hdepth : c.depth = 0) :
    ∃ result c', record c = some (result, c') ∧ c.LeadsTo c' ∧
      c.runs .start = (result, c'.position) := by
  have hvalue := follows c.tokens.length .value c [] h (Nat.le_add_left _ _) hdepth
  obtain ⟨result, c₁, hresult, hleads, hruns⟩ := hvalue
  cases result with
  | error e =>
    refine ⟨.error e, c₁, ?_, hleads, hruns⟩
    rw [record, bind_apply, hresult]
    rfl
  | ok e =>
    obtain ⟨result, c₂, hend, hleads', hruns'⟩ := expect_eof hleads.stands e
    refine ⟨result, c₂, ?_, hleads.trans hleads', hruns.trans hruns'⟩
    rw [record, bind_apply, hresult]
    exact hend

end DeclarativeOptions.Cursor
