import DeclarativeOptions.Proofs.Cursor.Records

namespace DeclarativeOptions

-- The same error, where `n` more tokens stand in front
def SyntaxError.behind (n : Nat) (e : SyntaxError) : SyntaxError :=
  { e with offset := e.offset + n }

namespace Parser

variable {input : String} {endOffset index stop n : Nat} {s : State} {tokens more : List Token}
  {e : Expr}

private theorem run_behind (tokens : List Token) :
    run input endOffset s (index + n) tokens =
      ((run input endOffset s index tokens).1.mapError (SyntaxError.behind n),
        (run input endOffset s index tokens).2 + n) := by
  induction tokens generalizing s index with
  | nil =>
    rw [run, run]
    cases s.complete? with
    | some e => rfl
    | none => rfl
  | cons t rest ih =>
    cases hstep : s.step? t with
    | some next => rw [run_cons hstep, run_cons hstep, Nat.add_right_comm, ih]
    | none =>
      rw [run, run, hstep]
      split
      · rw [Nat.add_right_comm]
        rfl
      · rfl

private theorem runToEnd_behind (tokens : List Token) :
    runToEnd input s (index + n) tokens =
      ((runToEnd input s index tokens).1.mapError (SyntaxError.behind n),
        (runToEnd input s index tokens).2 + n) := run_behind _

-- Tokens without separators of which the last one is the only end token
inductive Whole : List Token → Prop where
  | last {t : Token} (heof : t.kind = .eof) : Whole [t]
  | front {t : Token} {tokens : List Token} (heof : t.kind ≠ .eof) (hkept : t.kind ≠ .separator)
    (htokens : Whole tokens) : Whole (t :: tokens)

theorem Whole.kept (h : Whole tokens) : ∀ t ∈ tokens, t.kind ≠ .separator := by
  induction h with
  | last heof => simp [heof]
  | front _ hkept _ ih => exact List.forall_mem_cons.mpr ⟨hkept, ih⟩

theorem Whole.ne_nil (h : Whole tokens) : tokens ≠ [] := by
  cases h <;> simp

theorem Whole.ends (h : Whole tokens) : tokens.getLast?.map Token.kind = some .eof := by
  induction h with
  | last heof => simp [heof]
  | front _ _ htokens ih => rw [List.getLast?_cons_of_ne_nil htokens.ne_nil, ih]

-- The end token of a record cuts off whatever stands behind it
private theorem runToEnd_append (htokens : Whole tokens) (hmore : more ≠ [])
    (h : runToEnd input s index tokens = (.ok e, stop)) :
    runToEnd input s index (tokens ++ more) = (.ok e, index + tokens.length) := by
  induction htokens generalizing s index with
  | @last t heof =>
    obtain ⟨s', hstep⟩ | ⟨-, v, hv⟩ | hrefuses := s.meets t
    · exact absurd heof (isRegular_of_step hstep).kind_ne_eof
    · rw [runToEnd_of_complete hv heof] at h
      obtain rfl := Except.ok.inj (Prod.mk.inj h).1
      rw [List.singleton_append, runToEnd_of_complete hv heof, if_neg hmore]
      rfl
    · rw [runToEnd_of_refuses hrefuses fun _ => heof] at h
      simp at h
  | @front t tokens heof _ htokens ih =>
    have hnil := htokens.ne_nil
    obtain ⟨s', hstep⟩ | ⟨hend, -⟩ | hrefuses := s.meets t
    · rw [runToEnd_of_step hstep hnil] at h
      rw [List.cons_append, runToEnd_of_step hstep (List.append_ne_nil_of_left_ne_nil hnil more),
        ih h, List.length_cons, Nat.add_assoc, Nat.add_comm 1]
    · exact absurd hend heof
    · rw [runToEnd_of_refuses hrefuses fun h => absurd h hnil] at h
      simp at h

end Parser

namespace Cursor

open DeclarativeOptions.Parser

variable {input : String} {tokens back : List Token} {c c' a : Cursor} {e : Expr}

theorem filter_eq_self (hkept : ∀ t ∈ tokens, t.kind ≠ .separator) :
    tokens.filter (·.kind != .separator) = tokens :=
  List.filter_eq_self.mpr fun t ht => by simpa using hkept t ht

theorem ofTokens_of_ends (input : String) (hkept : ∀ t ∈ tokens, t.kind ≠ .separator)
    (hends : tokens.getLast?.map Token.kind = some .eof) :
    ofTokens input tokens = ⟨input, tokens, 0, 0⟩ := by
  rw [ofTokens, filter_eq_self hkept, if_pos hends]

theorem ofTokens_of_not_ends (input : String) (hkept : ∀ t ∈ tokens, t.kind ≠ .separator)
    (hends : tokens.getLast?.map Token.kind ≠ some .eof) :
    ofTokens input tokens =
      ⟨input, tokens ++ [⟨.eof, "", Text.unitCount input.toList⟩], 0, 0⟩ := by
  rw [ofTokens, filter_eq_self hkept, if_neg hends]

theorem ofTokens_append (htokens : Whole tokens) (hback : Whole back) :
    ofTokens input (tokens ++ back) = ⟨input, tokens ++ back, 0, 0⟩ := by
  refine ofTokens_of_ends input (fun t ht => ?_) ?_
  · exact (List.mem_append.mp ht).elim (htokens.kept t) (hback.kept t)
  · rw [List.getLast?_append_of_ne_nil _ hback.ne_nil, hback.ends]

-- A new cursor over the tokens from some index on, which sets the same end token if there is none
private theorem ofTokens_drop {position : Nat}
    (hlt : position < (ofTokens input tokens).tokens.length) :
    ofTokens input ((tokens.filter (·.kind != .separator)).drop position) =
      ⟨input, (ofTokens input tokens).tokens.drop position, 0, 0⟩ := by
  have hsame : ofTokens input (tokens.filter (·.kind != .separator)) = ofTokens input tokens := by
    simp only [ofTokens, List.filter_filter, Bool.and_self]
  rw [← hsame] at hlt ⊢
  have hkept : ∀ t ∈ tokens.filter (·.kind != .separator), t.kind ≠ .separator := by simp
  generalize tokens.filter (·.kind != .separator) = tokens at hkept hlt ⊢
  have hdrop : ∀ t ∈ tokens.drop position, t.kind ≠ .separator :=
    fun t ht => hkept t (List.mem_of_mem_drop ht)
  by_cases hends : tokens.getLast?.map Token.kind = some .eof
  · rw [ofTokens_of_ends input hkept hends] at hlt ⊢
    refine ofTokens_of_ends input hdrop ?_
    rw [List.getLast?_drop, if_neg (Nat.not_le_of_lt hlt), hends]
  · rw [ofTokens_of_not_ends input hkept hends] at hlt ⊢
    have hle : position ≤ tokens.length := by simpa [Nat.lt_succ_iff] using hlt
    rw [List.drop_append_of_le_length hle]
    refine ofTokens_of_not_ends input hdrop ?_
    rw [List.getLast?_drop]
    split
    · simp
    · exact hends

-- What a cursor reads next is what one at the start of the tokens that are left reads
theorem exists_record_afresh (h : c.Stands) (hdepth : c.depth = 0) : ∃ result c' fresh,
    record ⟨c.input, c.tokens.drop c.position, 0, 0⟩ = some (result, fresh) ∧
      record c = some (result.mapError (.behind c.position), c') ∧
      c'.position = c.position + fresh.position := by
  have hstands : Stands ⟨c.input, c.tokens.drop c.position, 0, 0⟩ :=
    ⟨by simpa [Nat.sub_pos_iff_lt] using h.position_lt, h.ends_drop⟩
  obtain ⟨result, fresh, hresult, -, hruns⟩ := record_eq hstands rfl
  obtain ⟨result', c', hresult', -, hruns'⟩ := record_eq h hdepth
  have hbehind : c.runs .start = (result.mapError (.behind c.position),
      fresh.position + c.position) := by
    have hall : runToEnd c.input .start 0 (c.tokens.drop c.position) = (result, fresh.position) :=
      hruns
    have hindex := Nat.zero_add c.position
    rw [runs, ← hindex, runToEnd_behind, hindex, hall]
  obtain ⟨rfl, hposition⟩ := Prod.mk.inj (hruns'.symm.trans hbehind)
  exact ⟨result, c', fresh, hresult, hresult', by omega⟩

-- A record that is right is passed as a whole, whatever stands behind it
theorem exists_record_append (htokens : Whole tokens) (hback : Whole back)
    (hfirst : record (ofTokens input tokens) = some (.ok e, a)) :
    ∃ c, record (ofTokens input (tokens ++ back)) = some (.ok e, c) ∧
      (ofTokens input (tokens ++ back)).LeadsTo c ∧ c.position = tokens.length := by
  have hwhole := ofTokens_of_ends input htokens.kept htokens.ends
  have hboth : ofTokens input (tokens ++ back) = _ := ofTokens_append htokens hback
  have hstands := stands_ofTokens input tokens
  have hstands' := stands_ofTokens input (tokens ++ back)
  rw [hwhole] at hfirst hstands
  rw [hboth] at hstands' ⊢
  obtain ⟨result, a', hresult, -, hruns⟩ := record_eq hstands rfl
  obtain ⟨result', c, hresult', hleads, hruns'⟩ := record_eq hstands' rfl
  obtain ⟨rfl, rfl⟩ := Prod.mk.inj (Option.some.inj (hfirst.symm.trans hresult))
  have hall := runToEnd_append htokens hback.ne_nil hruns
  obtain ⟨rfl, hposition⟩ := Prod.mk.inj (hruns'.symm.trans hall)
  exact ⟨c, hresult', hleads, hposition.trans (Nat.zero_add _)⟩

-- Whatever has been read before, the next record is read as by a new cursor over the tokens that
-- are left, and nothing of an earlier error is kept; only the indexes of tokens go on counting from
-- the first token of all. So two records in one list, the first of which is right, are read as by
-- themselves.
theorem records_go_on_afresh (input : String) (tokens : List Token) :
    (∀ n, ∃ results c, records n (ofTokens input tokens) = some (results, c) ∧
      ∃ result c' fresh,
        record (ofTokens input ((tokens.filter (·.kind != .separator)).drop c.position)) =
          some (result, fresh) ∧
        record c = some (result.mapError (.behind c.position), c') ∧
        c'.position = c.position + fresh.position) ∧
    ∀ back e a, Whole tokens → Whole back → record (ofTokens input tokens) = some (.ok e, a) →
      ∃ result b c, record (ofTokens input back) = some (result, b) ∧
        records 2 (ofTokens input (tokens ++ back)) =
          some ([.ok e, result.mapError (.behind tokens.length)], c) ∧
        c.position = tokens.length + b.position := by
  refine ⟨fun n => ?_, fun back e a htokens hback hfirst => ?_⟩
  · obtain ⟨results, c, hresults, -, hleads⟩ :=
      exists_records n (stands_ofTokens input tokens) (ofTokens_depth input tokens)
    have hdepth := hleads.depth.trans (ofTokens_depth input tokens)
    have hlt := hleads.stands.position_lt
    rw [hleads.length_eq] at hlt
    obtain ⟨result, c', fresh, hfresh, hnext⟩ := exists_record_afresh hleads.stands hdepth
    rw [hleads.input, ofTokens_input, hleads.drop_eq, ← ofTokens_drop hlt] at hfresh
    exact ⟨results, c, hresults, result, c', fresh, hfresh, hnext⟩
  · obtain ⟨c₁, hresult, hleads, hposition⟩ := exists_record_append htokens hback hfirst
    have hdepth := hleads.depth.trans (ofTokens_depth input (tokens ++ back))
    obtain ⟨result, c, b, hb, hc, hstop⟩ := exists_record_afresh hleads.stands hdepth
    rw [hleads.input, ofTokens_input, hleads.drop_eq, hposition, ofTokens_append htokens hback,
      List.drop_left, ← ofTokens_of_ends input hback.kept hback.ends] at hb
    rw [hposition] at hc hstop
    exact ⟨result, b, c, hb, records_succ hresult (records_succ hc rfl), hstop⟩

-- `a.if` and `[}` in one list. The brace has index 1 in its own record, and 5 here.
theorem records_go_on_afresh_brace : ∃ c,
    records 2 (ofTokens "a.if" ([⟨.identifier, "a", 0⟩, ⟨.dot, ".", 1⟩, ⟨.reservedWord, "if", 2⟩,
        ⟨.eof, "", 4⟩] ++ [⟨.leftBracket, "[", 0⟩, ⟨.rightBrace, "\x7d", 1⟩, ⟨.eof, "", 2⟩])) =
      some ([.ok (.access ⟨.identifier "a", [.name "if"]⟩),
        .error ⟨"a.if", .rightBrace, .oneOf valueStart, 5, 1⟩], c) ∧ c.position = 5 := by
  obtain ⟨first, a, ha, -, hruns⟩ := record_eq (stands_ofTokens "a.if" [⟨.identifier, "a", 0⟩,
    ⟨.dot, ".", 1⟩, ⟨.reservedWord, "if", 2⟩, ⟨.eof, "", 4⟩]) rfl
  obtain ⟨second, b, hb, -, hruns'⟩ := record_eq (stands_ofTokens "a.if"
    [⟨.leftBracket, "[", 0⟩, ⟨.rightBrace, "\x7d", 1⟩, ⟨.eof, "", 2⟩]) rfl
  obtain ⟨rfl, -⟩ := Prod.mk.inj hruns
  obtain ⟨rfl, hposition⟩ := Prod.mk.inj hruns'
  obtain ⟨result, b', c, hb', hc, hstop⟩ := (records_go_on_afresh "a.if" _).2
    [⟨.leftBracket, "[", 0⟩, ⟨.rightBrace, "\x7d", 1⟩, ⟨.eof, "", 2⟩] _ a
    (.front (by decide) (by decide) (.front (by decide) (by decide)
      (.front (by decide) (by decide) (.last rfl))))
    (.front (by decide) (by decide) (.front (by decide) (by decide) (.last rfl))) ha
  obtain ⟨rfl, rfl⟩ := Prod.mk.inj (Option.some.inj (hb.symm.trans hb'))
  exact ⟨c, hc, by rw [hstop, ← hposition]; rfl⟩

end Cursor

end DeclarativeOptions
