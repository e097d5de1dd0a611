import DeclarativeOptions.Proofs.Parser.Acceptance
import DeclarativeOptions.Proofs.Token.Significant
import DeclarativeOptions.Proofs.Value.Data
import DeclarativeOptions.Value.Literal

namespace DeclarativeOptions

open Grammar Lexeme Token

namespace Layout

private theorem separators_line (count : Nat) :
    ∀ c ∈ '\n' :: List.replicate count ' ', isSeparator c = true := by
  intro c hc
  cases List.mem_cons.mp hc with
  | inl hline =>
    rw [hline]
    decide
  | inr hblank =>
    rw [List.eq_of_mem_replicate hblank]
    decide

theorem separators_inner (layout : Layout) (depth : Nat) :
    ∀ c ∈ layout.inner depth, isSeparator c = true := by
  cases layout with
  | compact => simp [inner]
  | pretty => exact separators_line _

theorem separators_outer (layout : Layout) (depth : Nat) :
    ∀ c ∈ layout.outer depth, isSeparator c = true := by
  cases layout with
  | compact => simp [outer]
  | pretty => exact separators_line _

-- Between two entries there is one comma
theorem exists_between (layout : Layout) (depth : Nat) : ∃ blanks,
    layout.between depth = ',' :: blanks ∧ ∀ c ∈ blanks, isSeparator c = true := by
  cases layout with
  | compact => exact ⟨[' '], rfl, List.forall_mem_singleton.mpr (by decide)⟩
  | pretty => exact ⟨_, rfl, separators_inner .pretty depth⟩

end Layout

namespace Value

variable {layout : Layout} {depth offset : Nat} {inside rest : List Char} {v : Value}

private theorem stops_between (layout : Layout) (depth : Nat) (rest : List Char) :
    Stops (layout.between depth ++ rest) := by
  obtain ⟨blanks, hblanks, -⟩ := layout.exists_between depth
  rw [hblanks]
  exact stops_cons (by decide)

private theorem stops_outer (layout : Layout) (depth : Nat) {closing : Char}
    (hclosing : closing ∈ stops) (rest : List Char) :
    Stops (layout.outer depth ++ closing :: rest) := by
  cases layout with
  | compact => exact stops_cons hclosing
  | pretty => exact stops_cons (by decide)

private theorem scans_between (layout : Layout) (depth offset : Nat) (rest : List Char) :
    Scans offset (layout.between depth) rest [⟨.comma, ",", offset⟩] := by
  obtain ⟨blanks, hblanks, hseparators⟩ := layout.exists_between depth
  have hcomma : Scans offset [','] (blanks ++ rest) [⟨.comma, ",", offset⟩] :=
    scans_leads (leads_punctuation rfl) (by decide)
  rw [hblanks]
  exact hcomma.append (scans_whitespace hseparators)

private theorem exists_scans_between {chars more : List Char} {tokens moreTokens : List Token}
    (h : Scans offset chars (layout.between depth ++ (more ++ rest)) tokens)
    (hmore : Scans (offset + Text.unitCount (chars ++ layout.between depth)) more rest moreTokens) :
    ∃ comma, Scans offset (chars ++ layout.between depth ++ more) rest
      (tokens ++ comma :: moreTokens) ∧ comma.kind = .comma := by
  have hall := (h.append (scans_between layout depth _ _)).append hmore
  rw [List.append_assoc tokens, List.singleton_append] at hall
  exact ⟨_, hall, rfl⟩

theorem scans_literal (text : String) : Scans offset (Text.literal text.toList) rest
    [⟨.stringLiteral, text, offset⟩] :=
  scans_text (leads_literal text.toList rest) (by simp)

-- A name is quoted if it would not be read as a name
private theorem exists_scans_nameChars (name : String) (hrest : Stops rest) : ∃ t,
    Scans offset (nameChars name) rest [t] ∧ PropertyName name t := by
  unfold nameChars
  split_ifs with hidentifier
  · obtain ⟨hstart, hpart, hkind⟩ := of_isIdentifier hidentifier
    have hscans : Scans offset name.toList rest _ := scans_word hstart hpart hrest.ends
    rw [hkind] at hscans
    exact ⟨_, hscans, @PropertyName.text ⟨.identifier, name, offset⟩ (by simp)⟩
  · exact ⟨_, scans_literal name, @PropertyName.text ⟨.stringLiteral, name, offset⟩ (by simp)⟩

private theorem exists_scans_named {chars : List Char} {tokens : List Token} (name : String)
    (hvalue : Scans (offset + Text.unitCount (nameChars name ++ [':', ' '])) chars rest tokens) :
    ∃ t colon, Scans offset (nameChars name ++ [':', ' '] ++ chars) rest (t :: colon :: tokens) ∧
      PropertyName name t ∧ colon.kind = .colon := by
  have hstops : Stops ([':', ' '] ++ (chars ++ rest)) := stops_cons (by decide)
  obtain ⟨t, hscans, hname⟩ := exists_scans_nameChars name hstops
  have hcolon (offset : Nat) : Scans offset [':'] ([' '] ++ (chars ++ rest))
      [⟨.colon, ":", offset⟩] := scans_leads (leads_punctuation rfl) (by decide)
  have hblank (offset : Nat) : Scans offset [' '] (chars ++ rest) [] :=
    scans_separator (by decide)
  have hall := (hscans.append ((hcolon _).append (hblank _))).append hvalue
  exact ⟨t, _, by simpa using hall, hname, rfl⟩

mutual

theorem exists_scans_value (layout : Layout) (depth offset : Nat) (rest : List Char)
    (hrest : Stops rest) : (v : Value) → v.every hasLiteral = true → ∃ tokens,
      Scans offset (literalChars layout depth v) rest tokens ∧ Derives (.value v.expr) tokens
  | .undefined, _ => by
    have hscans : Scans offset "undefined".toList rest [⟨.identifier, "undefined", offset⟩] :=
      scans_word (by decide) (by decide) hrest.ends
    exact ⟨_, hscans, .access (@Start.identifier ⟨.identifier, "undefined", offset⟩ rfl) .nil⟩
  | .null, _ => by
    have hscans : Scans offset "null".toList rest [⟨.nullLiteral, "null", offset⟩] :=
      scans_word (by decide) (by decide) hrest.ends
    exact ⟨_, hscans, .scalar (.nullLiteral rfl)⟩
  | .boolean true, _ => by
    have hscans : Scans offset "true".toList rest [⟨.trueLiteral, "true", offset⟩] :=
      scans_word (by decide) (by decide) hrest.ends
    exact ⟨_, hscans, .scalar (.trueLiteral rfl)⟩
  | .boolean false, _ => by
    have hscans : Scans offset "false".toList rest [⟨.falseLiteral, "false", offset⟩] :=
      scans_word (by decide) (by decide) hrest.ends
    exact ⟨_, hscans, .scalar (.falseLiteral rfl)⟩
  | .number value, hliteral => by
    obtain ⟨t, hscans, hkind, hnumber⟩ := exists_scans_number hliteral hrest
    exact ⟨_, hscans, .scalar (.number hkind hnumber)⟩
  | .string value, _ =>
    ⟨_, scans_literal value, .scalar (@Scalar.string ⟨.stringLiteral, value, offset⟩ rfl)⟩
  | .array [], _ => by
    obtain ⟨offset', hscans⟩ := @scans_enclosed offset rest [] '[' ']' .leftBracket .rightBracket
      [] [] [] rfl rfl (by simp) (by simp) scans_nil
    exact ⟨_, hscans, .array rfl .noElements rfl⟩
  | .array (slot :: slots), hliteral => by
    have hstops := stops_outer layout depth (show ']' ∈ stops by decide) rest
    obtain ⟨tokens, hinside, hderives⟩ := exists_scans_slots layout depth _ _ hstops
      (slot :: slots) hliteral
    obtain ⟨offset', hscans⟩ := @scans_enclosed offset rest _ '[' ']' .leftBracket .rightBracket
      _ _ _ rfl rfl (layout.separators_inner depth) (layout.separators_outer depth) hinside
    exact ⟨_, hscans, .array rfl hderives rfl⟩
  | .object ⟨[]⟩, _ => by
    obtain ⟨offset', hscans⟩ := @scans_enclosed offset rest [] '{' '}' .leftBrace .rightBrace
      [] [] [] rfl rfl (by simp) (by simp) scans_nil
    exact ⟨_, hscans, .object rfl .noMembers rfl⟩
  | .object ⟨entry :: entries⟩, hliteral => by
    have hstops := stops_outer layout depth (show '}' ∈ stops by decide) rest
    obtain ⟨tokens, hinside, hderives⟩ := exists_scans_entries layout depth _ _ hstops
      (entry :: entries) hliteral
    obtain ⟨offset', hscans⟩ := @scans_enclosed offset rest _ '{' '}' .leftBrace .rightBrace
      _ _ _ rfl rfl (layout.separators_inner depth) (layout.separators_outer depth) hinside
    exact ⟨_, hscans, .object rfl hderives rfl⟩

theorem exists_scans_slots (layout : Layout) (depth offset : Nat) (rest : List Char)
    (hrest : Stops rest) : (slots : List (Option Value)) → slotsEvery hasLiteral slots = true →
      ∃ tokens,
      Scans offset (slotsChars layout depth slots) rest tokens ∧
        Derives (.elements (slotsExpr slots)) tokens
  | [], _ => ⟨[], scans_nil, .noElements⟩
  | [none], _ => by
    have hcomma : Scans offset [','] rest [⟨.comma, ",", offset⟩] :=
      scans_leads (leads_punctuation rfl) (by decide)
    exact ⟨_, hcomma, .hole rfl .noElements⟩
  | [some v], hliteral => by
    simp only [slotsEvery, Bool.and_true] at hliteral
    obtain ⟨tokens, hscans, hderives⟩ := exists_scans_value layout (depth + 1) offset rest hrest v
      hliteral
    exact ⟨tokens, hscans, .lastElement hderives⟩
  | none :: next :: slots, hliteral => by
    obtain ⟨tokens, hscans, hderives⟩ := exists_scans_slots layout depth _ rest hrest
      (next :: slots) hliteral
    exact ⟨_, (scans_between layout depth offset _).append hscans, .hole rfl hderives⟩
  | some v :: next :: slots, hliteral => by
    rw [slotsEvery, Bool.and_eq_true] at hliteral
    obtain ⟨hv, hslots⟩ := hliteral
    have hstops := stops_between layout depth (slotsChars layout depth (next :: slots) ++ rest)
    obtain ⟨tokens, hscans, hderives⟩ := exists_scans_value layout (depth + 1) offset _ hstops v hv
    obtain ⟨more, hmore, hmoreDerives⟩ := exists_scans_slots layout depth
      (offset + Text.unitCount (literalChars layout (depth + 1) v ++ layout.between depth)) rest
      hrest (next :: slots) hslots
    obtain ⟨comma, hall, hcomma⟩ := exists_scans_between hscans hmore
    exact ⟨_, hall, .element hderives hcomma hmoreDerives⟩

theorem exists_scans_entries (layout : Layout) (depth offset : Nat) (rest : List Char)
    (hrest : Stops rest) : (entries : List (String × Value)) →
    entriesEvery hasLiteral entries = true → ∃ tokens,
      Scans offset (entriesChars layout depth entries) rest tokens ∧
        Derives (.members (entriesExpr entries)) tokens
  | [], _ => ⟨[], scans_nil, .noMembers⟩
  | [(name, v)], hliteral => by
    simp only [entriesEvery, Bool.and_true] at hliteral
    obtain ⟨tokens, hscans, hderives⟩ := exists_scans_value layout (depth + 1)
      (offset + Text.unitCount (nameChars name ++ [':', ' '])) rest hrest v hliteral
    obtain ⟨t, colon, hnamed, hname, hcolon⟩ := exists_scans_named name hscans
    exact ⟨_, hnamed, .lastMember hname hcolon hderives⟩
  | (name, v) :: next :: entries, hliteral => by
    rw [entriesEvery, Bool.and_eq_true] at hliteral
    obtain ⟨hv, hentries⟩ := hliteral
    have hstops := stops_between layout depth
      (entriesChars layout depth (next :: entries) ++ rest)
    obtain ⟨tokens, hscans, hderives⟩ := exists_scans_value layout (depth + 1)
      (offset + Text.unitCount (nameChars name ++ [':', ' '])) _ hstops v hv
    obtain ⟨t, colon, hnamed, hname, hcolon⟩ := exists_scans_named name hscans
    obtain ⟨more, hmore, hmoreDerives⟩ := exists_scans_entries layout depth
      (offset + Text.unitCount (nameChars name ++ [':', ' '] ++
        literalChars layout (depth + 1) v ++ layout.between depth)) rest hrest (next :: entries)
      hentries
    obtain ⟨comma, hall, hcomma⟩ := exists_scans_between hnamed hmore
    exact ⟨_, hall, .member hname hcolon hderives hcomma hmoreDerives⟩

end

end Value

-- Printing and reading: data comes back as it was, but for the sign of zero
theorem Environment.evaluateText_literal (host : Host) (approvals : Approvals) (layout : Layout)
    (v : Value) (hdata : v.isData = true) (hfits : v.nesting ≤ Parser.maxDepth) :
    ∃ w, (⟨host, approvals, Scopes.empty⟩ : Environment).evaluateText (v.literal layout) =
      ([], .ok w) ∧ w.equal v = true := by
  obtain ⟨hkeyed, hliteral⟩ := Bool.and_eq_true_iff.mp hdata
  have hstops : Stops [] := by simp [Stops]
  obtain ⟨tokens, hscans, hderives⟩ := v.exists_scans_value layout 0 0 [] hstops hliteral
  have htokens : (scan (v.literal layout)).filter (·.kind != .separator) =
      tokens ++ [⟨.eof, "", 0 + Text.unitCount (v.literalChars layout 0)⟩] := by
    unfold Scans at hscans
    rw [List.append_nil] at hscans
    simpa [scan, significant, scanFrom, Value.literal] using hscans
  have hparse := Parser.parse_of_derives htokens hderives (v.nesting_expr ▸ hfits)
  obtain ⟨w, hevaluate, hequal⟩ := evaluate_expr host approvals v hkeyed hliteral
  refine ⟨w, ?_, hequal⟩
  simp only [evaluateText, hparse, hevaluate]
  rfl

-- An array that ends with a hole, with a keyword, a quote and a line end inside of it
theorem Environment.evaluateText_literal_hole :
    let v := Value.array [some (.number (.signed true .zero)),
      some (.object ⟨[("if", .undefined), ("it's", .string "a\n")]⟩), none]
    (v.isData = true ∧ v.nesting ≤ Parser.maxDepth) ∧
      ∃ w, (⟨.idle, .empty, Scopes.empty⟩ : Environment).evaluateText (v.literal .pretty) =
        ([], .ok w) ∧ w.equal v = true :=
  ⟨⟨by decide, by decide⟩, evaluateText_literal _ _ .pretty _ (by decide) (by decide)⟩

end DeclarativeOptions
