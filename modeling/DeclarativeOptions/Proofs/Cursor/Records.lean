import DeclarativeOptions.Proofs.Cursor.Descent

namespace DeclarativeOptions

namespace Parser

variable {input : String} {index stop : Nat} {s : State} {tokens : List Token} {e : Expr}
  {err : SyntaxError}

-- The parser at another token
def moved (p : Parser) (position : Nat) : Parser := { p with position }

-- Reads records one after the other
def parses (p : Parser) : Nat → List (Except SyntaxError Expr) × Parser
  | 0 => ([], p)
  | n + 1 =>
    let (result, p) := p.parse
    let (results, p) := p.parses n
    (result :: results, p)

theorem ofTokens_start (input : String) (tokens : List Token) :
    (ofTokens input tokens).input = input ∧ (ofTokens input tokens).position = 0 := by
  unfold ofTokens
  dsimp only
  split <;> exact ⟨rfl, rfl⟩

-- A run that succeeds stops at the first end token, and passes it unless it is the last token
private theorem runToEnd_eq_ok (hends : tokens.getLast?.map Token.kind = some .eof)
    (h : runToEnd input s index tokens = (.ok e, stop)) :
    ∃ i t, tokens[i]? = some t ∧ t.kind = .eof ∧
      (∀ j u, j < i → tokens[j]? = some u → u.kind ≠ .eof) ∧ (i = 0 → s.complete? = some e) ∧
      (stop = index + i + 1 ∨ stop = index + i ∧ i + 1 = tokens.length) := by
  induction tokens generalizing s index with
  | nil => simp at hends
  | cons t rest ih =>
    have hlast : rest = [] → t.kind = .eof := by
      rintro rfl
      simpa using hends
    obtain ⟨s', hstep⟩ | ⟨heof, v, hv⟩ | hrefuses := s.meets t
    · have ht := (isRegular_of_step hstep).kind_ne_eof
      have hrest : rest ≠ [] := fun hnil => ht (hlast hnil)
      rw [runToEnd_of_step hstep hrest] at h
      rw [List.getLast?_cons_of_ne_nil hrest] at hends
      obtain ⟨i, u, hu, heof, hbefore, -, hstop⟩ := ih hends h
      refine ⟨i + 1, u, hu, heof, fun j w hj hw => ?_, by simp, ?_⟩
      · cases j with
        | zero => exact Option.some.inj hw ▸ ht
        | succ j => exact hbefore j w (by omega) hw
      · rw [List.length_cons]
        omega
    · rw [runToEnd_of_complete hv heof] at h
      obtain ⟨hresult, hstop⟩ := Prod.mk.inj h
      refine ⟨0, t, rfl, heof, by simp, fun _ => Except.ok.inj hresult ▸ hv, ?_⟩
      by_cases hnil : rest = []
      · exact .inr ⟨by simpa [hnil] using hstop.symm, by simp [hnil]⟩
      · exact .inl (by simpa [hnil] using hstop.symm)
    · rw [runToEnd_of_refuses hrefuses hlast] at h
      simp at h

-- A run that fails stops at the token that it reports
private theorem runToEnd_eq_error (hends : tokens.getLast?.map Token.kind = some .eof)
    (h : runToEnd input s index tokens = (.error err, stop)) :
    ∃ i t, tokens[i]? = some t ∧ stop = index + i ∧ err.input = input ∧ err.offset = stop ∧
      err.unexpected = t.kind ∧ err.position = t.offset := by
  induction tokens generalizing s index with
  | nil => simp at hends
  | cons t rest ih =>
    have hlast : rest = [] → t.kind = .eof := by
      rintro rfl
      simpa using hends
    obtain ⟨s', hstep⟩ | ⟨heof, v, hv⟩ | hrefuses := s.meets t
    · have hrest : rest ≠ [] := fun hnil => (isRegular_of_step hstep).kind_ne_eof (hlast hnil)
      rw [runToEnd_of_step hstep hrest] at h
      rw [List.getLast?_cons_of_ne_nil hrest] at hends
      obtain ⟨i, u, hu, hstop, herr⟩ := ih hends h
      exact ⟨i + 1, u, hu, by omega, herr⟩
    · rw [runToEnd_of_complete hv heof] at h
      simp at h
    · rw [runToEnd_of_refuses hrefuses hlast] at h
      obtain ⟨hresult, rfl⟩ := Prod.mk.inj h
      obtain rfl := Except.error.inj hresult
      exact ⟨0, t, rfl, rfl, rfl, rfl, rfl, rfl⟩

end Parser

namespace Cursor

open DeclarativeOptions.Parser

variable {c c' : Cursor} {n : Nat}

-- Where a reading of a record has left the cursor
def StopsAt (c c' : Cursor) : Except SyntaxError Expr → Prop
  | .ok _ => ∃ i t, c.position < i ∧ c'.tokens[i]? = some t ∧ t.kind = .eof ∧
      (∀ j u, c.position ≤ j → j < i → c'.tokens[j]? = some u → u.kind ≠ .eof) ∧
      (c'.position = i + 1 ∨ c'.position = i ∧ i + 1 = c'.tokens.length)
  | .error e => ∃ t, c'.tokens[c'.position]? = some t ∧ e.input = c.input ∧
      e.offset = c'.position ∧ e.unexpected = t.kind ∧ e.position = t.offset

-- A cursor and a parser over the same tokens begin with the same last token
theorem ofTokens_eq (input : String) (tokens : List Token) : ∃ last, last.kind = .eof ∧
    last.offset = (Parser.ofTokens input tokens).endOffset ∧
    ofTokens input tokens = ⟨input, (Parser.ofTokens input tokens).tokens ++ [last], 0, 0⟩ := by
  unfold ofTokens Parser.ofTokens
  dsimp only
  generalize tokens.filter (·.kind != .separator) = kept
  split
  · rename_i text offset hlast
    refine ⟨⟨.eof, text, offset⟩, rfl, rfl, ?_⟩
    rw [hlast, Option.map_some, if_pos rfl, List.dropLast_append_getLast? _ hlast]
  · rename_i hnone
    refine ⟨_, rfl, rfl, if_neg fun hends => ?_⟩
    obtain ⟨⟨kind, text, offset⟩, hlast, rfl⟩ := Option.map_eq_some_iff.mp hends
    exact hnone _ _ hlast

theorem stands_ofTokens (input : String) (tokens : List Token) :
    (ofTokens input tokens).Stands := by
  obtain ⟨last, heof, -, h⟩ := ofTokens_eq input tokens
  rw [h]
  exact ⟨by simp, by simp [heof]⟩

theorem ofTokens_input (input : String) (tokens : List Token) :
    (ofTokens input tokens).input = input := by
  obtain ⟨last, -, -, h⟩ := ofTokens_eq input tokens
  rw [h]

theorem ofTokens_depth (input : String) (tokens : List Token) :
    (ofTokens input tokens).depth = 0 := by
  obtain ⟨last, -, -, h⟩ := ofTokens_eq input tokens
  rw [h]

theorem Stands.ends_drop (h : c.Stands) :
    (c.tokens.drop c.position).getLast?.map Token.kind = some .eof := by
  rw [List.getLast?_drop, if_neg (by have hlt := h.position_lt; omega), h.ends]

theorem LeadsTo.kind_eq (h : c.LeadsTo c') (i : Nat) :
    c'.tokens[i]?.map Token.kind = c.tokens[i]?.map Token.kind := by
  obtain hi | ⟨-, hi⟩ := h.token i
  · rw [hi]
  · rw [hi, Option.map_map]
    rfl

private theorem stopsAt_of_runs {result : Except SyntaxError Expr} (h : c.Stands)
    (hleads : c.LeadsTo c') (hruns : c.runs .start = (result, c'.position)) :
    StopsAt c c' result := by
  cases result with
  | ok e =>
    obtain ⟨i, t, ht, heof, hbefore, hstart, hstop⟩ := runToEnd_eq_ok h.ends_drop hruns
    rw [List.getElem?_drop] at ht
    have hkind := hleads.kind_eq (c.position + i)
    rw [ht, Option.map_some, heof] at hkind
    obtain ⟨t', ht', heof'⟩ := Option.map_eq_some_iff.mp hkind
    have hpos : 0 < i := Nat.pos_of_ne_zero fun hi => Option.some_ne_none e (hstart hi).symm
    refine ⟨c.position + i, t', by omega, ht', heof', fun j u hle hj hu hend => ?_, ?_⟩
    · obtain ⟨k, rfl⟩ := Nat.exists_eq_add_of_le hle
      have hkind := hleads.kind_eq (c.position + k)
      rw [hu, Option.map_some, hend] at hkind
      obtain ⟨v, hv, hend⟩ := Option.map_eq_some_iff.mp hkind.symm
      exact hbefore k v (by omega) (List.getElem?_drop.trans hv) hend
    · have hlt := h.position_lt
      rw [hleads.length_eq]
      rw [List.length_drop] at hstop
      omega
  | error err =>
    obtain ⟨i, t, ht, hstop, herr⟩ := runToEnd_eq_error h.ends_drop hruns
    refine ⟨t, ?_, herr⟩
    rw [List.getElem?_drop, ← hstop] at ht
    obtain hsame | ⟨hlt, -⟩ := hleads.token c'.position
    · exact hsame.trans ht
    · omega

theorem exists_record (h : c.Stands) (hdepth : c.depth = 0) : ∃ result c',
    record c = some (result, c') ∧ c.LeadsTo c' ∧ StopsAt c c' result := by
  obtain ⟨result, c', hresult, hleads, hruns⟩ := record_eq h hdepth
  exact ⟨result, c', hresult, hleads, stopsAt_of_runs h hleads hruns⟩

theorem records_succ {result : Except SyntaxError Expr} {results : List (Except SyntaxError Expr)}
    {c₁ c₂ : Cursor} (hresult : record c = some (result, c₁))
    (hresults : records n c₁ = some (results, c₂)) :
    records (n + 1) c = some (result :: results, c₂) := by
  rw [records, hresult]
  change Option.bind (records n c₁) _ = _
  rw [hresults]
  rfl

theorem exists_records (n : Nat) (h : c.Stands) (hdepth : c.depth = 0) : ∃ results c',
    records n c = some (results, c') ∧ results.length = n ∧ c.LeadsTo c' := by
  induction n generalizing c with
  | zero => exact ⟨[], c, rfl, rfl, .refl h⟩
  | succ n ih =>
    obtain ⟨result, c₁, hresult, hleads, -⟩ := exists_record h hdepth
    obtain ⟨results, c₂, hresults, hlength, hleads'⟩ :=
      ih hleads.stands (hleads.depth.trans hdepth)
    exact ⟨result :: results, c₂, records_succ hresult hresults,
      by rw [List.length_cons, hlength], hleads.trans hleads'⟩

-- A parser over the same tokens reads on from wherever the cursor has got to as the cursor does
theorem parse_eq_runs {input : String} {tokens : List Token}
    (h : (ofTokens input tokens).LeadsTo c) :
    ((Parser.ofTokens input tokens).moved c.position).parse =
      ((c.runs .start).1, (Parser.ofTokens input tokens).moved (c.runs .start).2) := by
  obtain ⟨last, -, hoffset, hstart⟩ := ofTokens_eq input tokens
  have hlt := h.stands.position_lt
  have hdrop := h.drop_eq
  rw [h.length_eq, hstart, List.length_append, List.length_singleton] at hlt
  rw [hstart, List.drop_append_of_le_length (by omega)] at hdrop
  have hinput : (Parser.ofTokens input tokens).input = c.input := by
    rw [h.input, ofTokens_input, (Parser.ofTokens_start input tokens).1]
  have hruns : c.runs .start = run (Parser.ofTokens input tokens).input
      (Parser.ofTokens input tokens).endOffset .start c.position
      ((Parser.ofTokens input tokens).tokens.drop c.position) := by
    rw [runs, runToEnd, hdrop, List.getLast?_concat, List.dropLast_concat, Option.map_some, hoffset,
      hinput]
    rfl
  rw [hruns]
  rfl

-- The records that a cursor reads are those that a parser over the same tokens reads
private theorem exists_records_eq_parses {input : String} {tokens : List Token} (n : Nat)
    (h : (ofTokens input tokens).LeadsTo c) : ∃ c',
    records n c =
      some ((((Parser.ofTokens input tokens).moved c.position).parses n).1, c') ∧
    c'.position = (((Parser.ofTokens input tokens).moved c.position).parses n).2.position := by
  induction n generalizing c with
  | zero => exact ⟨c, rfl, rfl⟩
  | succ n ih =>
    obtain ⟨result, c₁, hresult, hleads, hruns⟩ :=
      record_eq h.stands (h.depth.trans (ofTokens_depth input tokens))
    obtain ⟨c₂, hresults, hposition⟩ := ih (h.trans hleads)
    rw [Parser.parses, parse_eq_runs h, hruns]
    exact ⟨c₂, records_succ hresult hresults, hposition⟩

theorem moved_start (input : String) (tokens : List Token) :
    (Parser.ofTokens input tokens).moved (ofTokens input tokens).position =
      Parser.ofTokens input tokens := by
  obtain ⟨last, -, -, hstart⟩ := ofTokens_eq input tokens
  rw [hstart, ← (Parser.ofTokens_start input tokens).2]
  rfl

theorem records_eq_parses (input : String) (tokens : List Token) (n : Nat) : ∃ c,
    records n (ofTokens input tokens) =
      some (((Parser.ofTokens input tokens).parses n).1, c) ∧
    c.position = ((Parser.ofTokens input tokens).parses n).2.position := by
  have h := exists_records_eq_parses n (.refl (stands_ofTokens input tokens))
  rwa [moved_start] at h

-- So the expression of a text is the first record of its tokens
theorem record_eq_parse (text : String) : ∃ c,
    record (ofTokens text (Token.scan text)) = some (Expr.parse text, c) := by
  have hstands := stands_ofTokens text (Token.scan text)
  obtain ⟨result, c, hresult, -, hruns⟩ := record_eq hstands (ofTokens_depth ..)
  have h := parse_eq_runs (.refl hstands)
  rw [moved_start, hruns] at h
  refine ⟨c, hresult.trans ?_⟩
  rw [Expr.parse, Parser.ofText, h]

-- However many records have been read, the cursor stands, its tokens are those it began with but
-- for texts behind it, and the next record ends where it says
theorem records_stay_wellFormed (input : String) (tokens : List Token) (n : Nat) :
    ∃ results c, records n (ofTokens input tokens) = some (results, c) ∧ results.length = n ∧
      (ofTokens input tokens).LeadsTo c ∧
      ∃ result c', record c = some (result, c') ∧ c.LeadsTo c' ∧ StopsAt c c' result := by
  have hstart := stands_ofTokens input tokens
  have hdepth := ofTokens_depth input tokens
  obtain ⟨results, c, hresults, hlength, hleads⟩ := exists_records n hstart hdepth
  obtain ⟨result, c', hrecord⟩ := exists_record hleads.stands (hleads.depth.trans hdepth)
  exact ⟨results, c, hresults, hlength, hleads, result, c', hrecord⟩

end Cursor

end DeclarativeOptions
