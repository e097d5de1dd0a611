import DeclarativeOptions.Proofs.Parser.Acceptance
import DeclarativeOptions.Proofs.Token.Spacing

namespace DeclarativeOptions

-- What a syntax error says of the tokens, wherever they stand in the text
def SyntaxError.finding (e : SyntaxError) : TokenKind × Expected × Nat :=
  (e.unexpected, e.expected, e.offset)

namespace Parser

open Token

variable {input input' : String} {endOffset endOffset' index stop stop' : Nat} {s : State}
  {t t' : Token} {tokens tokens' : List Token}

-- No step looks at the place of a token
private theorem step_moved (s : State) (t : Token) (offset : Nat) :
    s.step? { t with offset } = s.step? t := by
  obtain ⟨mode, frames⟩ := s
  cases mode <;> rfl

private theorem step_error (ht : t.kind = .error) : s.step? t = none := by
  obtain ⟨mode, frames⟩ := s
  cases mode <;>
    simp [State.step?, startValue?, endValue?, extendChain?, propertyName?, indexKey?, ht]

private theorem step_alike (h : Alike stop stop' t t') : s.step? t' = s.step? t := by
  obtain htext | ⟨hopened, hopened'⟩ := h.text
  · have hmoved : t' = { t with offset := t'.offset } := by
      obtain ⟨kind, text, offset⟩ := t'
      rw [h.kind, htext]
    rw [hmoved, step_moved]
  · rw [step_error hopened.kind, step_error hopened'.kind]

-- Two runs side by side, from the same state
theorem run_alike (h : List.Forall₂ (Alike stop stop') tokens tokens') :
    (run input' endOffset' s index tokens').1.mapError SyntaxError.finding =
      (run input endOffset s index tokens).1.mapError SyntaxError.finding := by
  induction h generalizing s index with
  | nil =>
    rw [run, run]
    cases s.complete? with
    | some e => rfl
    | none => rfl
  | @cons t t' tokens tokens' halike _ ih =>
    have hsteps := step_alike (s := s) halike
    cases hstep : s.step? t with
    | some next => rw [run_cons hstep, run_cons (hsteps.trans hstep), ih]
    | none =>
      -- the run ends here, with a record where the token is an end and with an error elsewhere
      rw [run, run, hsteps.trans hstep, hstep, ← halike.kind]
      split
      · rfl
      · rfl

-- Whitespace put in where tokens begin changes neither the kinds of the tokens nor their texts,
-- but for a string that is left open at the end, and with that neither the record nor the error
theorem parse_insertAt (text : String) (blanks : Nat → List Char)
    (hblanks : ∀ offset, ∀ c ∈ blanks offset, Lexeme.isSeparator c = true)
    (hbetween : ∀ offset, blanks offset ≠ [] → ∃ t ∈ scan text, t.offset = offset) :
    let spaced := String.ofList (Text.insertAt blanks 0 text.toList)
    List.Forall₂ (Alike (Text.unitCount text.toList) (Text.unitCount spaced.toList))
      ((scan text).filter (·.kind != .separator)) ((scan spaced).filter (·.kind != .separator)) ∧
    (Expr.parse spaced).mapError SyntaxError.finding =
      (Expr.parse text).mapError SyntaxError.finding := by
  intro spaced
  have hspaced : spaced.toList = Text.insertAt blanks 0 text.toList := String.toList_ofList
  have halike : List.Forall₂ (Alike (Text.unitCount text.toList) (Text.unitCount spaced.toList))
      ((scan text).filter (·.kind != .separator))
      ((scan spaced).filter (·.kind != .separator)) := by
    rw [scan, scan, hspaced]
    exact alike_significant hblanks (fun offset _ => hbetween offset) (by simp) (by simp)
  refine ⟨halike, ?_⟩
  obtain ⟨front, endOffset, htokens, hparser⟩ := exists_ofText text
  obtain ⟨front', endOffset', htokens', hparser'⟩ := exists_ofText spaced
  rw [htokens, htokens'] at halike
  have hfront : List.Forall₂ (Alike (Text.unitCount text.toList) (Text.unitCount spaced.toList))
      front front' := by
    have hlength := halike.length_eq
    simp only [List.length_append, List.length_singleton, Nat.add_right_cancel_iff] at hlength
    have htake := List.forall₂_take front.length halike
    rwa [List.take_left, hlength, List.take_left] at htake
  rw [Expr.parse, Expr.parse, hparser, hparser']
  exact run_alike hfront

-- Whitespace on both sides of a quote that opens a string, which takes what is behind it
theorem parse_insertAt_quote :
    let blanks := fun offset => if offset = 1 ∨ offset = 2 then [' '] else []
    let spaced := String.ofList (Text.insertAt blanks 0 ['[', '\''])
    spaced = "[ ' " ∧ (∀ offset, ∀ c ∈ blanks offset, Lexeme.isSeparator c = true) ∧
      (∀ offset, blanks offset ≠ [] → ∃ t ∈ scan "['", t.offset = offset) ∧
      List.Forall₂ (Alike 2 4) ((scan "['").filter (·.kind != .separator))
        ((scan "[ ' ").filter (·.kind != .separator)) ∧
      (Expr.parse "[ ' ").mapError SyntaxError.finding =
        (Expr.parse "['").mapError SyntaxError.finding := by
  intro blanks spaced
  have hopening : Lexeme.first '[' ['\''] = ⟨.leftBracket, ['['], 0⟩ := rfl
  have hquote : Lexeme.first '\'' [] = ⟨.error, ['\''], 0⟩ := by
    rw [Lexeme.first_quote (.inr rfl), Lexeme.stringLiteral, StringLiteral.read?]
    rfl
  have hscan : scan "['" = [⟨.leftBracket, "[", 0⟩, ⟨.error, "'", 1⟩, ⟨.eof, "", 2⟩] := by
    have hchars : "['".toList = ['[', '\''] := rfl
    rw [scan, hchars]
    simp [scanFrom, hopening, hquote]
    decide
  have hblanks : ∀ offset, ∀ c ∈ blanks offset, Lexeme.isSeparator c = true := by
    intro offset c hc
    simp only [blanks] at hc
    split_ifs at hc
    · obtain rfl := List.mem_singleton.mp hc
      decide
    · simp at hc
  have hbetween : ∀ offset, blanks offset ≠ [] → ∃ t ∈ scan "['", t.offset = offset := by
    intro offset hne
    rw [hscan]
    by_cases hoffset : offset = 1 ∨ offset = 2
    · obtain rfl | rfl := hoffset
      · exact ⟨⟨.error, "'", 1⟩, by simp, rfl⟩
      · exact ⟨⟨.eof, "", 2⟩, by simp, rfl⟩
    · exact absurd (if_neg hoffset) hne
  have hspaced : String.ofList (Text.insertAt blanks 0 "['".toList) = "[ ' " := rfl
  have hstop : Text.unitCount "['".toList = 2 := by decide
  have hstop' : Text.unitCount "[ ' ".toList = 4 := by decide
  have h := parse_insertAt "['" blanks hblanks hbetween
  simp only [hspaced, hstop, hstop'] at h
  exact ⟨hspaced, hblanks, hbetween, h⟩

end Parser

end DeclarativeOptions
