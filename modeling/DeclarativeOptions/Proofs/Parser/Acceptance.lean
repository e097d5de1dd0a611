import DeclarativeOptions.Proofs.Grammar.Unambiguity
import DeclarativeOptions.Proofs.Parser.Run
import DeclarativeOptions.Proofs.Token.Tiling

namespace DeclarativeOptions.Parser

open Grammar

-- What is demanded of a whole record is one value
theorem completes_start {e : Expr} {tokens : List Token} :
    Completes e State.start tokens ↔ Derives (.value e) tokens ∧ e.nesting ≤ maxDepth := by
  constructor
  · intro h
    cases h with
    | value hv hfits hrest =>
      cases hrest with
      | outermost => exact ⟨by simpa using hv, hfits⟩
  · rintro ⟨hv, hfits⟩
    have h : Completes e ⟨.value, []⟩ (tokens ++ []) := .value hv hfits .outermost
    rwa [List.append_nil] at h

-- The parser accepts the tokens of a record exactly if they derive a value whose literals do not
-- nest too deeply, and the tree it builds is the only one that the grammar assigns to them
theorem parse_eq_ok_iff (input : String) (front : List Token) (last : Token)
    (hfront : ∀ t ∈ front, t.kind ≠ .separator ∧ t.kind ≠ .eof) (hlast : last.kind = .eof) :
    (∀ e, (ofTokens input (front ++ [last])).parse.1 = .ok e ↔
      Derives (.value e) front ∧ e.nesting ≤ maxDepth) ∧
    ∀ e e', Derives (.value e) front → Derives (.value e') front → e = e' := by
  refine ⟨fun e => ?_, fun e e' => derives_unique⟩
  rw [ofTokens_append (fun t ht => (hfront t ht).1) hlast, ← completes_start]
  exact run_eq_ok_iff fun t ht => (hfront t ht).2

-- The record `[a('b').if,,{null:'c',}]` and the tree of it
theorem parse_eq_ok_iff_nested :
    Derives (.value (.array [some (.access ⟨.call "a" "b", [.name "if"]⟩), none,
      some (.object [("null", .string "c")])]))
      [⟨.leftBracket, "[", 0⟩, ⟨.identifier, "a", 1⟩, ⟨.leftParen, "(", 2⟩,
        ⟨.stringLiteral, "b", 3⟩, ⟨.rightParen, ")", 6⟩, ⟨.dot, ".", 7⟩, ⟨.reservedWord, "if", 8⟩,
        ⟨.comma, ",", 10⟩, ⟨.comma, ",", 11⟩, ⟨.leftBrace, "\x7b", 12⟩,
        ⟨.nullLiteral, "null", 13⟩, ⟨.colon, ":", 17⟩, ⟨.stringLiteral, "c", 18⟩,
        ⟨.comma, ",", 21⟩, ⟨.rightBrace, "\x7d", 22⟩, ⟨.rightBracket, "]", 23⟩] :=
  (((parse_eq_ok_iff "" _ ⟨.eof, "", 24⟩ (by decide) rfl).1 _).mp rfl).1

-- The tokens of a text that count, and the parser over them
theorem exists_ofText (text : String) : ∃ front endOffset,
    (Token.scan text).filter (·.kind != .separator) = front ++ [⟨.eof, "", endOffset⟩] ∧
      ofText text = ⟨text, front, endOffset, 0⟩ := by
  obtain ⟨front, _, htokens, rfl, -, hall⟩ := Token.exists_kept text
  refine ⟨_, _, hall, ?_⟩
  have hkept : ∀ t ∈ front.filter (·.kind != .separator), t.kind ≠ .separator :=
    fun t ht => by simpa using (List.mem_filter.mp ht).2
  have hparser := @ofTokens_append text _ ⟨.eof, "", Text.unitCount text.toList⟩ hkept rfl
  rw [← hparser, ofText, htokens]
  simp [ofTokens, List.filter_append]

-- A text whose tokens derive a value is read as the value
theorem parse_of_derives {text : String} {front : List Token} {endOffset : Nat} {e : Expr}
    (htokens : (Token.scan text).filter (·.kind != .separator) =
      front ++ [⟨.eof, "", endOffset⟩])
    (hderives : Derives (.value e) front) (hfits : e.nesting ≤ maxDepth) :
    Expr.parse text = .ok e := by
  obtain ⟨kept, _, hkept, hparser⟩ := exists_ofText text
  obtain ⟨rfl, -⟩ := List.append_inj' (hkept.symm.trans htokens) rfl
  have hcompletes := completes_start.mpr ⟨hderives, hfits⟩
  have hregular := hcompletes.isRegular
  rw [Expr.parse, hparser]
  exact (run_eq_ok_iff fun t ht => (hregular t ht).kind_ne_eof).mpr hcompletes

-- A text that is read as a value consists of tokens that derive it
theorem derives_of_parse {text : String} {e : Expr} (h : Expr.parse text = .ok e) :
    ∃ front endOffset, (Token.scan text).filter (·.kind != .separator) =
        front ++ [⟨.eof, "", endOffset⟩] ∧
      Derives (.value e) front ∧ e.nesting ≤ maxDepth := by
  obtain ⟨kept, endOffset, hkept, hparser⟩ := exists_ofText text
  obtain ⟨-, _, -, -, heof, hall⟩ := Token.exists_kept text
  obtain ⟨rfl, -⟩ := List.append_inj' (hall.symm.trans hkept) rfl
  rw [Expr.parse, hparser] at h
  exact ⟨_, endOffset, hkept, completes_start.mp ((run_eq_ok_iff heof).mp h)⟩

end DeclarativeOptions.Parser
