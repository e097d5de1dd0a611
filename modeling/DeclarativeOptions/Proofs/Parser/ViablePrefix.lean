import DeclarativeOptions.Proofs.Parser.Acceptance

namespace DeclarativeOptions.Parser

open Grammar

-- A token that a run stops at with an error
structure State.Refuses (s : State) (t : Token) : Prop where
  step : s.step? t = none
  complete : t.kind = .eof → s.complete? = none

-- Tokens that the parser accepts as one record: with an end behind them and none before, without
-- separators, and with numbers that can be read
structure Accepts (tokens : List Token) : Prop where
  ends : ∃ front last, tokens = front ++ [last] ∧ last.kind = .eof ∧ ∀ t ∈ front, t.IsRegular
  reads : ∃ e : Expr, e.nesting ≤ maxDepth ∧ ∀ input, (ofTokens input tokens).parse.1 = .ok e

variable {input : String} {endOffset index : Nat} {s s' : State} {t : Token}
  {front more tokens : List Token} {e : Expr} {err : SyntaxError}

-- Closing brackets and braces complete a record behind any value, however deep it is inside
private theorem exists_closes (v : Expr) (frames : List Frame) :
    ∃ e tokens, Closes e v frames tokens := by
  induction frames generalizing v with
  | nil => exact ⟨v, [], .outermost⟩
  | cons frame outer ih =>
    cases frame with
    | array slots =>
      obtain ⟨e, tokens, h⟩ := ih (.array (slots.reverse ++ [some v]))
      exact ⟨e, [] ++ ⟨.rightBracket, "]", 0⟩ :: tokens,
        .array .done rfl (by simp [Expr.slotsNesting]) h⟩
    | object pairs key =>
      obtain ⟨e, tokens, h⟩ := ih (.object (pairs.reverse ++ [(key, v)]))
      exact ⟨e, [] ++ ⟨.rightBrace, "\x7d", 0⟩ :: tokens,
        .object .done rfl (by simp [Expr.pairsNesting]) h⟩

private theorem exists_completes_value (frames : List Frame) :
    ∃ e tokens, Completes e ⟨.value, frames⟩ tokens := by
  obtain ⟨e, tokens, h⟩ := exists_closes .null frames
  have hnull : Scalar .null ⟨.nullLiteral, "null", 0⟩ := .nullLiteral rfl
  exact ⟨e, _, .value (.scalar hnull) (by simp [Expr.nesting]) h⟩

private theorem exists_completes_chain (access : Access) (frames : List Frame) :
    ∃ e tokens, Completes e ⟨.chain access, frames⟩ tokens := by
  obtain ⟨e, tokens, h⟩ := exists_closes (.access ⟨access.head, access.tail ++ []⟩) frames
  exact ⟨e, _, .chain .nil h⟩

-- Every state can be completed. The cases are in the order in which one leads to the next.
theorem exists_completes (s : State) : ∃ e tokens, Completes e s tokens := by
  obtain ⟨mode, frames⟩ := s
  cases mode with
  | value => exact exists_completes_value frames
  | named pairs key =>
    obtain ⟨e, tokens, h⟩ := exists_completes_value (.object pairs key :: frames)
    exact ⟨e, ⟨.colon, ":", 0⟩ :: tokens, .named rfl h⟩
  | property pairs =>
    obtain ⟨e, tokens, h⟩ := exists_closes (.object (pairs.reverse ++ [])) frames
    exact ⟨e, [] ++ ⟨.rightBrace, "\x7d", 0⟩ :: tokens,
      .property .noMembers rfl (by simp [Expr.pairsNesting]) h⟩
  | slot slots =>
    obtain ⟨e, tokens, h⟩ := exists_closes (.array (slots.reverse ++ [])) frames
    exact ⟨e, [] ++ ⟨.rightBracket, "]", 0⟩ :: tokens,
      .slot .noElements rfl (by simp [Expr.slotsNesting]) h⟩
  | after v =>
    obtain ⟨e, tokens, h⟩ := exists_closes v frames
    exact ⟨e, tokens, .after h⟩
  | chain access => exact exists_completes_chain access frames
  | head name =>
    obtain ⟨e, tokens, h⟩ := exists_completes_chain ⟨.identifier name, []⟩ frames
    exact ⟨e, tokens, .name h⟩
  | argument target argument =>
    obtain ⟨e, tokens, h⟩ := exists_completes_chain ⟨.call target argument, []⟩ frames
    exact ⟨e, ⟨.rightParen, ")", 0⟩ :: tokens, .argument rfl h⟩
  | call target =>
    obtain ⟨e, tokens, h⟩ := exists_completes_chain ⟨.call target "", []⟩ frames
    exact ⟨e, ⟨.stringLiteral, "", 0⟩ :: ⟨.rightParen, ")", 0⟩ :: tokens,
      .call rfl (.argument rfl h)⟩
  | point access =>
    obtain ⟨e, tokens, h⟩ := exists_completes_chain (access.push (.name "")) frames
    exact ⟨e, ⟨.identifier, "", 0⟩ :: tokens, .point (.inl rfl) h⟩
  | key access key =>
    obtain ⟨e, tokens, h⟩ := exists_completes_chain (access.push (.index key)) frames
    exact ⟨e, ⟨.rightBracket, "]", 0⟩ :: tokens, .key rfl h⟩
  | bracket access =>
    let name : Token := ⟨.stringLiteral, "", 0⟩
    obtain ⟨e, tokens, h⟩ := exists_completes_chain (access.push (.index (.name name.text))) frames
    exact ⟨e, name :: ⟨.rightBracket, "]", 0⟩ :: tokens, .bracket (.string rfl) (.key rfl h)⟩

-- The tokens that lead from the beginning to a record are accepted with an end behind them
theorem accepts_of_completes (h : Completes e .start front) (ht : t.kind = .eof) :
    Accepts (front ++ [t]) := by
  have hregular := h.isRegular
  obtain ⟨-, hfits⟩ := completes_start.mp h
  refine ⟨⟨_, _, rfl, ht, hregular⟩, e, hfits, fun input => ?_⟩
  rw [ofTokens_append (fun u hu => (hregular u hu).kind_ne_separator) ht]
  exact (run_eq_ok_iff fun u hu => (hregular u hu).kind_ne_eof).mpr h

-- What a run has read over is the beginning of a record
theorem exists_accepts (hsteps : State.start.steps? front = some s) :
    ∃ tokens, Accepts tokens ∧ front <+: tokens := by
  obtain ⟨e, tokens, h⟩ := exists_completes s
  refine ⟨front ++ tokens ++ [⟨.eof, "", 0⟩], ?_, by simp⟩
  exact accepts_of_completes (Completes.of_steps hsteps h) rfl

private theorem refuses_eof (ht : t.kind = .eof) (hcomplete : s.complete? = none) :
    s.Refuses t := by
  refine ⟨?_, fun _ => hcomplete⟩
  cases hstep : s.step? t with
  | none => rfl
  | some next => exact absurd ht (isRegular_of_step hstep).kind_ne_eof

-- An error of a run is told of a token that the state before it refuses, with what that state
-- expects. The end that follows the tokens counts as a token.
theorem exists_refused (h : (run input endOffset s index tokens).1 = .error err) :
    ∃ front t more s', tokens ++ [⟨.eof, "", endOffset⟩] = front ++ t :: more ∧
      s.steps? front = some s' ∧ s'.Refuses t ∧
      err = ⟨input, t.kind, s'.expected t.kind, index + front.length, t.offset⟩ := by
  induction tokens generalizing s index with
  | nil =>
    rw [run] at h
    cases hcomplete : s.complete? with
    | some e => simp [hcomplete] at h
    | none =>
      rw [hcomplete] at h
      obtain rfl := Except.error.inj h
      exact ⟨[], ⟨.eof, "", endOffset⟩, [], s, rfl, rfl, refuses_eof rfl hcomplete, rfl⟩
  | cons t rest ih =>
    cases hstep : s.step? t with
    | some next =>
      rw [run_cons hstep] at h
      obtain ⟨front, u, more, s', htokens, hsteps, hrefuses, rfl⟩ := ih h
      refine ⟨t :: front, u, more, s', by simp [htokens], ?_, hrefuses, ?_⟩
      · simp [State.steps?, hstep, hsteps]
      · simp only [List.length_cons, Nat.add_comm front.length, Nat.add_assoc]
    | none =>
      unfold run at h
      split at h
      · simp at h
      · rename_i hnot
        rw [hstep] at h
        obtain rfl := Except.error.inj h
        refine ⟨[], t, rest ++ [⟨.eof, "", endOffset⟩], s, rfl, rfl, ⟨hstep, ?_⟩, rfl⟩
        intro ht
        cases hcomplete : s.complete? with
        | none => rfl
        | some e => exact absurd ht (hnot e hcomplete)

-- The error of a text is told of one of its tokens
theorem exists_refused_of_parse {text : String} (h : Expr.parse text = .error err) :
    ∃ front t more s, (Token.scan text).filter (·.kind != .separator) = front ++ t :: more ∧
      State.start.steps? front = some s ∧ s.Refuses t ∧
      err = ⟨text, t.kind, s.expected t.kind, front.length, t.offset⟩ := by
  obtain ⟨kept, endOffset, hkept, hparser⟩ := exists_ofText text
  have hrun : (run text endOffset .start 0 kept).1 = .error err := by
    simpa [Expr.parse, hparser, parse] using h
  obtain ⟨front, t, more, s, htokens, hsteps, hrefuses, rfl⟩ := exists_refused hrun
  exact ⟨front, t, more, s, hkept.trans htokens, hsteps, hrefuses, by rw [Nat.zero_add]⟩

-- A run does not succeed over a token that is refused, whatever follows it
private theorem run_ne_ok (hsteps : s.steps? front = some s') (ht : s'.Refuses t) :
    (run input endOffset s index (front ++ t :: more)).1 ≠ .ok e := by
  rw [run_append hsteps]
  unfold run
  split
  · rename_i hcomplete heof
    rw [ht.complete heof] at hcomplete
    simp at hcomplete
  · rw [ht.step]
    simp

private theorem run_ne_ok_end (hsteps : s.steps? tokens = some s')
    (hcomplete : s'.complete? = none) : (run input endOffset s index tokens).1 ≠ .ok e := by
  have hrun := @run_append input endOffset index s s' tokens [] hsteps
  rw [List.append_nil] at hrun
  rw [hrun, run, hcomplete]
  simp

-- What a parser keeps of a list of tokens
theorem ofTokens_eq (input : String) (tokens : List Token) :
    (∃ front last, tokens.filter (·.kind != .separator) = front ++ [last] ∧ last.kind = .eof ∧
      ofTokens input tokens = ⟨input, front, last.offset, 0⟩) ∨
    ∃ endOffset, ofTokens input tokens =
      ⟨input, tokens.filter (·.kind != .separator), endOffset, 0⟩ := by
  unfold ofTokens
  dsimp only
  split
  · rename_i text offset hlast
    refine .inl ⟨_, _, (List.dropLast_append_getLast? _ hlast).symm, rfl, rfl⟩
  · exact .inr ⟨_, rfl⟩

theorem parse_ne_ok (hsteps : State.start.steps? front = some s) (ht : s.Refuses t)
    (hseparator : t.kind ≠ .separator) (hbegins : front ++ [t] <+: tokens) :
    (ofTokens input tokens).parse.1 ≠ .ok e := by
  have hfront : front.filter (·.kind != .separator) = front := by
    rw [List.filter_eq_self]
    intro u hu
    simpa using (isRegular_of_steps hsteps u hu).kind_ne_separator
  obtain ⟨more, rfl⟩ := hbegins
  have hkept : (front ++ [t] ++ more).filter (·.kind != .separator) =
      front ++ t :: more.filter (·.kind != .separator) := by
    simp [hfront, hseparator]
  obtain ⟨inner, last, hinner, hlast, hparser⟩ | ⟨endOffset, hparser⟩ :=
    ofTokens_eq input (front ++ [t] ++ more)
  · rw [hparser]
    rw [hkept] at hinner
    cases List.eq_nil_or_concat (more.filter (·.kind != .separator)) with
    | inl hnil =>
      rw [hnil] at hinner
      obtain ⟨rfl, hends⟩ := List.append_inj' hinner rfl
      obtain rfl := List.singleton_inj.mp hends
      exact run_ne_ok_end hsteps (ht.complete hlast)
    | inr hconcat =>
      obtain ⟨between, u, hmore⟩ := hconcat
      rw [hmore, List.concat_eq_append, ← List.cons_append, ← List.append_assoc] at hinner
      obtain ⟨rfl, -⟩ := List.append_inj' hinner rfl
      exact run_ne_ok hsteps ht
  · rw [hparser, hkept]
    exact run_ne_ok hsteps ht

-- An error is reported at the first token that cannot be right. Whatever has been read can still be
-- completed to a record, by closing what is open, and nothing that begins with the tokens up to the
-- one at fault is a record.
theorem error_at_first_wrong_token (text : String) (err : SyntaxError)
    (h : Expr.parse text = .error err) :
    let tokens := (Token.scan text).filter (·.kind != .separator)
    ∃ t, tokens[err.offset]? = some t ∧ err.unexpected = t.kind ∧ err.position = t.offset ∧
      (∃ list, Accepts list ∧ tokens.take err.offset <+: list) ∧
      ∀ list, tokens.take (err.offset + 1) <+: list →
        ∀ input e, (ofTokens input list).parse.1 ≠ .ok e := by
  intro tokens
  obtain ⟨front, t, more, s, htokens, hsteps, hrefuses, rfl⟩ := exists_refused_of_parse h
  have hall : tokens = front ++ t :: more := htokens
  have hseparator : t.kind ≠ .separator := by
    have hmem : t ∈ tokens := by simp [hall]
    simpa using (List.mem_filter.mp hmem).2
  refine ⟨t, by simp [hall], rfl, rfl, ?_, ?_⟩
  · rw [hall, List.take_left]
    exact exists_accepts hsteps
  · intro list hlist input e
    rw [hall, List.take_length_add_append] at hlist
    exact parse_ne_ok hsteps hrefuses hseparator hlist

theorem scan_hole_brace : Token.scan "[,\x7d" =
    [⟨.leftBracket, "[", 0⟩, ⟨.comma, ",", 1⟩, ⟨.rightBrace, "\x7d", 2⟩, ⟨.eof, "", 3⟩] := by
  have hopening : Lexeme.first '[' [',', '}'] = ⟨.leftBracket, ['['], 0⟩ := rfl
  have hcomma : Lexeme.first ',' ['}'] = ⟨.comma, [','], 0⟩ := rfl
  have hclosing : Lexeme.first '}' [] = ⟨.rightBrace, ['}'], 0⟩ := rfl
  have hchars : "[,\x7d".toList = ['[', ',', '}'] := rfl
  rw [Token.scan, hchars]
  simp [Token.scanFrom, hopening, hcomma, hclosing]
  decide

theorem parse_hole_brace : Expr.parse "[,\x7d" =
    .error ⟨"[,\x7d", .rightBrace, .oneOf valueStart, 2, 2⟩ := by
  rw [Expr.parse, ofText, scan_hole_brace]
  rfl

-- Behind `[,` a brace is the first token that is wrong
theorem error_at_first_wrong_token_brace :
    let tokens := (Token.scan "[,\x7d").filter (·.kind != .separator)
    Expr.parse "[,\x7d" = .error ⟨"[,\x7d", .rightBrace, .oneOf valueStart, 2, 2⟩ ∧
      (∃ list, Accepts list ∧ tokens.take 2 <+: list) ∧
      ∀ list, tokens.take 3 <+: list → ∀ input e, (ofTokens input list).parse.1 ≠ .ok e := by
  obtain ⟨-, -, -, -, hviable, hwrong⟩ := error_at_first_wrong_token _ _ parse_hole_brace
  exact ⟨parse_hole_brace, hviable, hwrong⟩

end DeclarativeOptions.Parser
