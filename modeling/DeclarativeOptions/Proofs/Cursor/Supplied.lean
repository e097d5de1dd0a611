import DeclarativeOptions.Proofs.Cursor.Records
import DeclarativeOptions.Proofs.Parser.ViablePrefix

namespace DeclarativeOptions

attribute [ext] Parser

namespace Token

variable {text : String} {t : Token} {tokens list : List Token}

-- Tokens with some separators left out and any others put in
inductive Respaced : List Token → List Token → Prop where
  | nil : Respaced [] []
  | keep {t : Token} {tokens list : List Token} (h : Respaced tokens list) :
      Respaced (t :: tokens) (t :: list)
  | leaveOut {t : Token} {tokens list : List Token} (ht : t.kind = .separator)
      (h : Respaced tokens list) : Respaced (t :: tokens) list
  | putIn {t : Token} {tokens list : List Token} (ht : t.kind = .separator)
      (h : Respaced tokens list) : Respaced tokens (t :: list)

-- The tokens of a text but for separators, with the end token or without it
def Supplies (text : String) (list : List Token) : Prop :=
  Respaced (scan text) list ∨ Respaced (scan text).dropLast list

theorem Respaced.filter_eq (h : Respaced tokens list) :
    list.filter (·.kind != .separator) = tokens.filter (·.kind != .separator) := by
  induction h with
  | nil => rfl
  | keep _ ih => rw [List.filter_cons, List.filter_cons, ih]
  | leaveOut ht _ ih => simp [ht, ih]
  | putIn ht _ ih => simp [ht, ih]

end Token

namespace Cursor

open Token

variable {text : String} {list : List Token}

theorem ofTokens_supplies (h : Supplies text list) :
    ofTokens text list = ofTokens text (scan text) := by
  obtain ⟨front, kept, htokens, hkept, hne, hall⟩ := exists_kept text
  have hscan : ofTokens text (scan text) =
      ⟨text, kept ++ [⟨.eof, "", Text.unitCount text.toList⟩], 0, 0⟩ := by
    simp [ofTokens, hall]
  cases h with
  | inl hwhole => rw [ofTokens, ofTokens, hwhole.filter_eq]
  | inr hfront =>
    have hfilter := hfront.filter_eq
    rw [htokens, List.dropLast_concat, hkept] at hfilter
    -- what is left does not end with an end token, so that one is set
    have hends : kept.getLast?.map Token.kind ≠ some .eof := by
      intro hlast
      obtain ⟨t, ht, heof⟩ := Option.map_eq_some_iff.mp hlast
      exact hne t (List.mem_of_getLast? ht) heof
    rw [hscan, ofTokens, hfilter, if_neg hends]

private theorem parser_supplies (h : Supplies text list) :
    Parser.ofTokens text list = Parser.ofText text := by
  obtain ⟨last, -, hoffset, hlist⟩ := ofTokens_eq text list
  obtain ⟨last', -, hoffset', hscan⟩ := ofTokens_eq text (scan text)
  rw [ofTokens_supplies h, hscan, Cursor.mk.injEq] at hlist
  obtain ⟨htokens, hlast⟩ := List.append_inj' hlist.2.1 rfl
  obtain rfl := List.singleton_inj.mp hlast
  obtain ⟨hinput, hposition⟩ := Parser.ofTokens_start text list
  obtain ⟨hinput', hposition'⟩ := Parser.ofTokens_start text (scan text)
  rw [Parser.ofText]
  exact Parser.ext (hinput.trans hinput'.symm) htokens.symm (hoffset.symm.trans hoffset')
    (hposition.trans hposition'.symm)

-- A text that ends too early is at fault at its end
private theorem error_at_end {err : SyntaxError} (h : Expr.parse text = .error err)
    (heof : err.unexpected = .eof) : err.position = Text.unitCount text.toList ∧
      err.offset + 1 = ((scan text).filter (·.kind != .separator)).length := by
  obtain ⟨front, t, more, s, htokens, -, -, rfl⟩ := Parser.exists_refused_of_parse h
  obtain ⟨-, kept, -, -, hne, hall⟩ := exists_kept text
  obtain rfl | ⟨inner, last, rfl⟩ := more.eq_nil_or_concat
  · obtain ⟨-, hlast⟩ := List.append_inj' (hall.symm.trans htokens) rfl
    obtain rfl := List.singleton_inj.mp hlast
    simp [htokens]
  · rw [List.concat_eq_append, ← List.cons_append, ← List.append_assoc] at htokens
    obtain ⟨rfl, -⟩ := List.append_inj' (hall.symm.trans htokens) rfl
    exact absurd heof (hne t (by simp))

-- Supplied tokens are read like the text, however many records are read from them, and an error at
-- the end is the one of the text, whether or not an end token has been supplied
theorem records_supplied (text : String) (list : List Token) (h : Supplies text list) :
    (∃ c, record (ofTokens text list) = some (Expr.parse text, c)) ∧
    (∀ n, records n (ofTokens text list) = records n (ofTokens text (scan text))) ∧
    (Parser.ofTokens text list).parse = (Parser.ofText text).parse ∧
    ∀ err, (Parser.ofTokens text list).parse.1 = .error err → err.unexpected = .eof →
      err.position = Text.unitCount text.toList ∧
        err.offset + 1 = ((scan text).filter (·.kind != .separator)).length := by
  have hcursor := ofTokens_supplies h
  have hparser := parser_supplies h
  refine ⟨?_, fun n => by rw [hcursor], by rw [hparser], fun err herr => ?_⟩
  · rw [hcursor]
    exact record_eq_parse text
  · rw [hparser] at herr
    exact error_at_end herr

-- An array that is left open, with its blank and its end left out and other separators put in
theorem records_supplied_open :
    let list : List Token := [⟨.separator, "\n", 7⟩, ⟨.leftBracket, "[", 0⟩, ⟨.separator, "", 0⟩]
    Supplies "[ " list ∧
      ∃ c, record (ofTokens "[ " list) =
        some (.error ⟨"[ ", .eof, .oneOf Parser.valueStart, 1, 2⟩, c) := by
  intro list
  have hscan : scan "[ " = [⟨.leftBracket, "[", 0⟩, ⟨.separator, " ", 1⟩, ⟨.eof, "", 2⟩] := by
    have hopening : Lexeme.first '[' [' '] = ⟨.leftBracket, ['['], 0⟩ := rfl
    have hblank : Lexeme.first ' ' [] = ⟨.separator, [' '], 0⟩ := rfl
    have hchars : "[ ".toList = ['[', ' '] := rfl
    rw [scan, hchars]
    simp [scanFrom, hopening, hblank]
    decide
  have hsupplies : Supplies "[ " list := by
    refine .inr ?_
    rw [hscan]
    exact .putIn rfl (.keep (.leaveOut rfl (.putIn rfl .nil)))
  have hparse : Expr.parse "[ " = .error ⟨"[ ", .eof, .oneOf Parser.valueStart, 1, 2⟩ := by
    rw [Expr.parse, Parser.ofText, hscan]
    rfl
  obtain ⟨⟨c, hrecord⟩, -⟩ := records_supplied "[ " list hsupplies
  rw [hparse] at hrecord
  exact ⟨hsupplies, c, hrecord⟩

end Cursor

end DeclarativeOptions
