import DeclarativeOptions.Proofs.Parser.Run

namespace DeclarativeOptions

-- The kinds that open a literal. A bracket also opens a key behind a chain.
def TokenKind.opens : TokenKind → Bool
  | leftBrace | leftBracket => true
  | _ => false

-- What a token adds to the brackets and braces that are open
def TokenKind.nests : TokenKind → Int
  | leftBrace | leftBracket => 1
  | rightBrace | rightBracket => -1
  | _ => 0

-- The brackets and braces that are open behind a list of tokens
def Token.openAfter : List Token → Int
  | [] => 0
  | t :: rest => t.kind.nests + openAfter rest

namespace Parser

open Grammar

namespace State

-- The literals that are open
def literals (s : State) : Nat :=
  match s.mode with
  | .property _ | .named _ _ | .slot _ => s.frames.length + 1
  | _ => s.frames.length

-- The brackets and braces that are open, which besides the literals are those of a key
def opened (s : State) : Nat :=
  match s.mode with
  | .bracket _ | .key _ _ => s.literals + 1
  | _ => s.literals

end State

variable {v : Expr} {access : Access} {key : String} {index : IndexKey} {frames : List Frame}
  {s s' : State} {t : Token} {tokens : List Token}

private theorem nests_of_scalar (h : Scalar v t) : t.kind.nests = 0 := by
  cases h with
  | _ ht => simp [ht, TokenKind.nests]

private theorem nests_of_key (h : Key index t) : t.kind.nests = 0 := by
  cases h with
  | _ ht => simp [ht, TokenKind.nests]

private theorem nests_of_propertyName (h : PropertyName key t) : t.kind.nests = 0 := by
  cases h with
  | text ht =>
    simp only [List.mem_cons, List.not_mem_nil, or_false] at ht
    obtain ht | ht | ht | ht | ht | ht | ht := ht
    all_goals simp [ht, TokenKind.nests]
  | number ht => simp [ht, TokenKind.nests]

-- The beginning of a value opens a literal only while there is room for one
private theorem opened_of_startValue (h : startValue? frames t = some s') :
    (s'.opened : Int) = frames.length + t.kind.nests ∧
      s'.literals ≤ max frames.length maxDepth := by
  obtain ⟨v, hv, rfl⟩ | ⟨ht, hroom, rfl⟩ | ⟨ht, hroom, rfl⟩ | ⟨ht, rfl⟩ := startValue_eq_some h
  · have hnests := nests_of_scalar hv
    simp only [State.opened, State.literals]
    omega
  all_goals
    simp only [State.opened, State.literals, ht, TokenKind.nests]
    omega

private theorem opened_of_endValue (h : endValue? v frames t = some s') :
    (s'.opened : Int) = frames.length + t.kind.nests ∧
      s'.literals ≤ max frames.length maxDepth := by
  obtain ⟨_, _, rfl, ⟨ht, rfl⟩ | ⟨ht, rfl⟩⟩ | ⟨_, _, _, rfl, ⟨ht, rfl⟩ | ⟨ht, rfl⟩⟩ :=
    endValue_eq_some h
  all_goals
    simp only [State.opened, State.literals, ht, TokenKind.nests, List.length_cons]
    omega

private theorem opened_of_extendChain (h : extendChain? access frames t = some s') :
    (s'.opened : Int) = frames.length + t.kind.nests ∧
      s'.literals ≤ max frames.length maxDepth := by
  obtain ⟨ht, rfl⟩ | ⟨ht, rfl⟩ | hend := extendChain_eq_some h
  · simp only [State.opened, State.literals, ht, TokenKind.nests]
    omega
  · simp only [State.opened, State.literals, ht, TokenKind.nests]
    omega
  · exact opened_of_endValue hend

theorem opened_of_step (h : s.step? t = some s') :
    (s'.opened : Int) = s.opened + t.kind.nests ∧ s'.literals ≤ max s.literals maxDepth := by
  cases takes_of_step h with
  | value hstart => exact opened_of_startValue hstart
  | element hstart => exact opened_of_startValue hstart
  | after hend => exact opened_of_endValue hend
  | head hextend => exact opened_of_extendChain hextend
  | chain hextend => exact opened_of_extendChain hextend
  | name hname =>
    have hnests := nests_of_propertyName hname
    simp only [State.opened, State.literals]
    omega
  | key hkey =>
    have hnests := nests_of_key hkey
    simp only [State.opened, State.literals]
    omega
  | read ht =>
    obtain ht | ht := ht
    all_goals
      simp only [State.opened, State.literals, ht, TokenKind.nests]
      omega
  | _ ht =>
    simp only [State.opened, State.literals, ht, TokenKind.nests, List.length_cons]
    omega

theorem opened_of_steps (h : s.steps? tokens = some s') :
    (s'.opened : Int) = s.opened + Token.openAfter tokens ∧
      s'.literals ≤ max s.literals maxDepth := by
  induction tokens generalizing s with
  | nil =>
    obtain rfl := Option.some.inj h
    exact ⟨by simp [Token.openAfter], Nat.le_max_left _ _⟩
  | cons t rest ih =>
    obtain ⟨next, hstep, hsteps⟩ := Option.bind_eq_some_iff.mp h
    obtain ⟨hopened, hfits⟩ := opened_of_step hstep
    obtain ⟨hopened', hfits'⟩ := ih hsteps
    rw [Token.openAfter]
    omega

-- The depth behind tokens that a parser has read from the beginning
theorem opened_of_start (h : State.start.steps? tokens = some s) :
    (s.opened : Int) = Token.openAfter tokens ∧ s.literals ≤ maxDepth := by
  have hstart : State.start.opened = 0 ∧ State.start.literals = 0 := ⟨rfl, rfl⟩
  have hrun := opened_of_steps h
  omega

end Parser

end DeclarativeOptions
