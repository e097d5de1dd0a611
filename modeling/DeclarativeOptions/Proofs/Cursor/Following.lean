import DeclarativeOptions.Cursor
import DeclarativeOptions.Proofs.Parser.ViablePrefix

namespace DeclarativeOptions

namespace Parser

variable {input : String} {index : Nat} {s s' : State} {t : Token} {rest : List Token} {e : Expr}

-- What a state does with a token: it takes it, or has ended before it, or refuses it
theorem State.meets (s : State) (t : Token) : (∃ s', s.step? t = some s') ∨
    (t.kind = .eof ∧ ∃ e, s.complete? = some e) ∨ s.Refuses t := by
  cases hstep : s.step? t with
  | some s' => exact .inl ⟨s', rfl⟩
  | none =>
    by_cases hend : t.kind = .eof ∧ ∃ e, s.complete? = some e
    · exact .inr (.inl hend)
    · refine .inr (.inr ⟨hstep, fun heof => ?_⟩)
      exact Option.eq_none_iff_forall_ne_some.mpr fun e he => hend ⟨heof, e, he⟩

-- The run over tokens of which the last one is the end
def runToEnd (input : String) (s : State) (index : Nat) (tokens : List Token) :
    Except SyntaxError Expr × Nat :=
  run input ((tokens.getLast?.map Token.offset).getD 0) s index tokens.dropLast

theorem runToEnd_of_step (hstep : s.step? t = some s') (hrest : rest ≠ []) :
    runToEnd input s index (t :: rest) = runToEnd input s' (index + 1) rest := by
  obtain ⟨u, rest, rfl⟩ := List.exists_cons_of_ne_nil hrest
  rw [runToEnd, List.dropLast_cons_of_ne_nil hrest, run_cons hstep, List.getLast?_cons_cons,
    runToEnd]

theorem runToEnd_of_refuses (h : s.Refuses t) (hlast : rest = [] → t.kind = .eof) :
    runToEnd input s index (t :: rest) =
      (.error ⟨input, t.kind, s.expected t.kind, index, t.offset⟩, index) := by
  cases rest with
  | nil =>
    have heof := hlast rfl
    simp [runToEnd, run, h.complete heof, heof]
  | cons u rest =>
    rw [runToEnd, List.dropLast_cons_cons, run]
    split
    · rename_i hcomplete heof
      rw [h.complete heof] at hcomplete
      simp at hcomplete
    · rw [h.step]

theorem runToEnd_of_complete (hcomplete : s.complete? = some e) (ht : t.kind = .eof) :
    runToEnd input s index (t :: rest) = (.ok e, if rest = [] then index else index + 1) := by
  cases rest with
  | nil => simp [runToEnd, run, hcomplete]
  | cons u rest => simp [runToEnd, run, hcomplete, ht]

end Parser

namespace Cursor

open DeclarativeOptions.Parser

-- There is a token to look at, and an end behind it
structure Stands (c : Cursor) : Prop where
  position_lt : c.position < c.tokens.length
  ends : c.tokens.getLast?.map Token.kind = some .eof

-- What reading leaves of a cursor
structure LeadsTo (c c' : Cursor) : Prop where
  stands : c'.Stands
  input : c'.input = c.input
  depth : c'.depth = c.depth
  position_le : c.position ≤ c'.position
  token (i : Nat) : c'.tokens[i]? = c.tokens[i]? ∨
    i < c'.position ∧ c'.tokens[i]? = c.tokens[i]?.map Token.drained

-- The run of the parser from a state over the tokens that are left
def runs (c : Cursor) (s : State) : Except SyntaxError Expr × Nat :=
  runToEnd c.input s c.position (c.tokens.drop c.position)

-- A reading that comes to an end as the run from a state does: at the error of the run, or where
-- the run has got to a state that belongs to the part that was read
def Follows {α : Type} (x : Reading α) (s : State) (next : α → State) (c : Cursor) : Prop :=
  ∃ result c', x c = some (result, c') ∧ c.LeadsTo c' ∧
    c.runs s = match result with
      | .ok a => c'.runs (next a)
      | .error e => (.error e, c'.position)

variable {α β : Type} {x : Reading α} {f : α → Reading β} {c c' c'' : Cursor} {s s' : State}
  {next : α → State} {last : β → State} {t : Token}

theorem LeadsTo.refl (h : c.Stands) : c.LeadsTo c := ⟨h, rfl, rfl, Nat.le_refl _, fun _ => .inl rfl⟩

theorem LeadsTo.trans (h : c.LeadsTo c') (h' : c'.LeadsTo c'') : c.LeadsTo c'' where
  stands := h'.stands
  input := h'.input.trans h.input
  depth := h'.depth.trans h.depth
  position_le := Nat.le_trans h.position_le h'.position_le
  token i := by
    have hdrained (o : Option Token) :
        (o.map Token.drained).map Token.drained = o.map Token.drained := by
      cases o <;> rfl
    have hle := h'.position_le
    obtain hi | ⟨hlt, hi⟩ := h.token i
    · rw [← hi]
      exact h'.token i
    · obtain hi' | ⟨-, hi'⟩ := h'.token i
      · exact .inr ⟨by omega, hi'.trans hi⟩
      · exact .inr ⟨by omega, by rw [hi', hi, hdrained]⟩

theorem LeadsTo.length_eq (h : c.LeadsTo c') : c'.tokens.length = c.tokens.length := by
  have hbeyond (i : Nat) : c'.tokens[i]? = none ↔ c.tokens[i]? = none := by
    obtain hi | ⟨-, hi⟩ := h.token i <;> simp [hi]
  have hle := (hbeyond c.tokens.length).mpr (by simp)
  have hge := (hbeyond c'.tokens.length).mp (by simp)
  simp only [List.getElem?_eq_none_iff] at hle hge
  omega

-- The tokens that are left have not been touched
theorem LeadsTo.drop_eq (h : c.LeadsTo c') :
    c'.tokens.drop c'.position = c.tokens.drop c'.position := by
  refine List.ext_getElem? fun i => ?_
  rw [List.getElem?_drop, List.getElem?_drop]
  obtain hi | ⟨hlt, -⟩ := h.token (c'.position + i)
  · exact hi
  · omega

theorem Stands.exists_current (h : c.Stands) : ∃ t, c.tokens[c.position]? = some t :=
  ⟨_, List.getElem?_eq_getElem h.position_lt⟩

theorem drop_position (ht : c.tokens[c.position]? = some t) :
    c.tokens.drop c.position = t :: c.tokens.drop (c.position + 1) := by
  obtain ⟨hlt, rfl⟩ := List.getElem?_eq_some_iff.mp ht
  exact List.drop_eq_getElem_cons hlt

-- Only the last token has nothing behind it
theorem Stands.position_lt_of_ne (h : c.Stands) (ht : c.tokens[c.position]? = some t)
    (heof : t.kind ≠ .eof) : c.position + 1 < c.tokens.length := by
  have hlt := h.position_lt
  by_contra hlast
  have hposition : c.position = c.tokens.length - 1 := by omega
  have hends := h.ends
  rw [List.getLast?_eq_getElem?, ← hposition, ht] at hends
  exact heof (Option.some.inj hends)

theorem Stands.eof_of_drop_eq_nil (h : c.Stands) (ht : c.tokens[c.position]? = some t)
    (hlast : c.tokens.drop (c.position + 1) = []) : t.kind = .eof := by
  by_contra heof
  have hlt := h.position_lt_of_ne ht heof
  have hle := List.drop_eq_nil_iff.mp hlast
  omega

theorem runs_of_refuses (h : c.Stands) (ht : c.tokens[c.position]? = some t)
    (hrefuses : s.Refuses t) : c.runs s =
      (.error ⟨c.input, t.kind, s.expected t.kind, c.position, t.offset⟩, c.position) := by
  rw [runs, drop_position ht, runToEnd_of_refuses hrefuses (h.eof_of_drop_eq_nil ht)]

-- States that agree on the next token have the same runs
theorem runs_of_agree (h : c.Stands) (ht : c.tokens[c.position]? = some t)
    (hstep : s.step? t = s'.step? t) (hcomplete : s.complete? = s'.complete?)
    (hexpected : s.expected t.kind = s'.expected t.kind) : c.runs s = c.runs s' := by
  have hlast := h.eof_of_drop_eq_nil ht
  rw [runs, runs, drop_position ht]
  obtain ⟨next, hnext⟩ | ⟨heof, e, he⟩ | hrefuses := s'.meets t
  · have hne : c.tokens.drop (c.position + 1) ≠ [] :=
      fun hnil => (isRegular_of_step hnext).kind_ne_eof (hlast hnil)
    rw [runToEnd_of_step (hstep.trans hnext) hne, runToEnd_of_step hnext hne]
  · rw [runToEnd_of_complete (hcomplete.trans he) heof, runToEnd_of_complete he heof]
  · have hrefuses' : s.Refuses t := ⟨hstep.trans hrefuses.step, hcomplete ▸ hrefuses.complete⟩
    rw [runToEnd_of_refuses hrefuses' hlast, runToEnd_of_refuses hrefuses hlast, hexpected]

theorem LeadsTo.runs_of_step (h : c.LeadsTo c') (hposition : c'.position = c.position + 1)
    (ht : c.tokens[c.position]? = some t) (hstep : s.step? t = some s') :
    c.runs s = c'.runs s' := by
  have hrest : c.tokens.drop (c.position + 1) ≠ [] := by
    have hlt := h.stands.position_lt
    rw [h.length_eq, hposition] at hlt
    simpa using hlt
  have hdrop := h.drop_eq
  rw [hposition] at hdrop
  rw [runs, runs, drop_position ht, runToEnd_of_step hstep hrest, h.input, hposition, hdrop]

theorem bind_apply (x : Reading α) (f : α → Reading β) (c : Cursor) :
    (x >>= f) c = (x c).bind fun outcome => match outcome.1 with
      | .ok a => f a outcome.2
      | .error e => some (.error e, outcome.2) := by
  change Option.bind (x c) _ = _
  refine congrArg (Option.bind (x c)) (funext fun outcome => ?_)
  obtain ⟨result, c'⟩ := outcome
  cases result <;> rfl

theorem Follows.bind (hx : Follows x s next c)
    (hf : ∀ a c', c.LeadsTo c' → Follows (f a) (next a) last c') : Follows (x >>= f) s last c := by
  obtain ⟨result, c', hresult, hleads, hruns⟩ := hx
  cases result with
  | error e => exact ⟨.error e, c', by rw [bind_apply, hresult]; rfl, hleads, hruns⟩
  | ok a =>
    obtain ⟨result, c'', hresult', hleads', hruns'⟩ := hf a c' hleads
    refine ⟨result, c'', ?_, hleads.trans hleads', hruns.trans hruns'⟩
    rw [bind_apply, hresult]
    exact hresult'

-- A reading follows every state that has the run of one that it follows
theorem Follows.of_runs (h : Follows x s next c) (hruns : c.runs s' = c.runs s) :
    Follows x s' next c := by
  obtain ⟨result, c', hresult, hleads, h⟩ := h
  exact ⟨result, c', hresult, hleads, hruns.trans h⟩

theorem follows_pure {a : α} (h : c.Stands) (hruns : c.runs s = c.runs (next a)) :
    Follows (pure a) s next c :=
  ⟨.ok a, c, rfl, .refl h, hruns⟩

theorem current_apply (ht : c.tokens[c.position]? = some t) : current c = some (.ok t, c) := by
  have hget : (get : Reading Cursor) c = some (.ok c, c) := rfl
  rw [current, bind_apply, hget, Option.bind_some]
  simp only [ht]
  rfl

theorem follows_current {f : Token → Reading β} (h : c.Stands)
    (hf : ∀ t, c.tokens[c.position]? = some t → Follows (f t) s last c) :
    Follows (current >>= f) s last c := by
  obtain ⟨t, ht⟩ := h.exists_current
  obtain ⟨result, c', hresult, hleads, hruns⟩ := hf t ht
  exact ⟨result, c', by rw [bind_apply, current_apply ht]; exact hresult, hleads, hruns⟩

theorem follows_get {f : Cursor → Reading β} (hf : Follows (f c) s last c) :
    Follows (get >>= f) s last c := hf

theorem unexpected_apply {expected : Expected} (ht : c.tokens[c.position]? = some t) :
    (unexpected expected : Reading α) c =
      some (.error ⟨c.input, t.kind, expected, c.position, t.offset⟩, c) := by
  change (current >>= fun t => throw ⟨c.input, t.kind, expected, c.position, t.offset⟩ :
    Reading α) c = _
  rw [bind_apply, current_apply ht]
  rfl

theorem expect_apply {kind : TokenKind} (ht : c.tokens[c.position]? = some t) :
    expect kind c = if t.kind = kind then some (.ok (), c.forward)
      else some (.error ⟨c.input, t.kind, .one kind, c.position, t.offset⟩, c) := by
  rw [expect, bind_apply, current_apply ht, ← unexpected_apply ht]
  by_cases hkind : t.kind = kind
  · rw [if_pos hkind]
    exact congrFun (if_pos hkind) c
  · rw [if_neg hkind]
    exact congrFun (if_neg hkind) c

theorem follows_unexpected {expected : Expected} (h : c.Stands)
    (ht : c.tokens[c.position]? = some t) (hrefuses : s.Refuses t)
    (hexpected : s.expected t.kind = expected) : Follows (unexpected expected) s next c := by
  refine ⟨_, c, unexpected_apply ht, .refl h, ?_⟩
  rw [runs_of_refuses h ht hrefuses, hexpected]

theorem forward_position (hlt : c.position + 1 < c.tokens.length) :
    c.forward.position = c.position + 1 := by
  rw [forward, if_pos hlt]

theorem leadsTo_forward (h : c.Stands) : c.LeadsTo c.forward := by
  unfold forward
  split
  · rename_i hlt
    exact ⟨⟨hlt, h.ends⟩, rfl, rfl, Nat.le_succ _, fun _ => .inl rfl⟩
  · exact .refl h

-- The text of the last token is never moved out
theorem leadsTo_drained_forward (h : c.Stands) (hlt : c.position + 1 < c.tokens.length) :
    c.LeadsTo c.drained.forward := by
  have hlength : c.drained.tokens.length = c.tokens.length := List.length_modify ..
  have htoken (i : Nat) : c.drained.tokens[i]? =
      if c.position = i then c.tokens[i]?.map Token.drained else c.tokens[i]? := by
    rw [drained, List.getElem?_modify]
    split <;> simp
  have hforward : c.drained.forward = { c.drained with position := c.position + 1 } :=
    if_pos (hlength.symm ▸ hlt)
  rw [hforward]
  refine ⟨⟨hlength.symm ▸ hlt, ?_⟩, rfl, rfl, Nat.le_succ _, fun i => ?_⟩
  · have hne : c.position ≠ c.tokens.length - 1 := by omega
    have hends := h.ends
    rw [List.getLast?_eq_getElem?] at hends ⊢
    rw [hlength, htoken, if_neg hne, hends]
  · change c.drained.tokens[i]? = _ ∨ _
    rw [htoken]
    by_cases hi : c.position = i
    · exact .inr ⟨Nat.lt_succ_of_le hi.ge, if_pos hi⟩
    · exact .inl (if_neg hi)

theorem follows_advance {f : Unit → Reading β} (h : c.Stands)
    (ht : c.tokens[c.position]? = some t) (hstep : s.step? t = some s')
    (hf : ∀ c', c.LeadsTo c' → c.position < c'.position → Follows (f ()) s' last c') :
    Follows (advance >>= f) s last c := by
  have hlt := h.position_lt_of_ne ht (isRegular_of_step hstep).kind_ne_eof
  have hleads := leadsTo_forward h
  have hposition := forward_position hlt
  obtain ⟨result, c', hresult, hleads', hruns⟩ := hf c.forward hleads (by omega)
  refine ⟨result, c', hresult, hleads.trans hleads', ?_⟩
  rw [hleads.runs_of_step hposition ht hstep, hruns]

theorem follows_takeText (next : String → State) (h : c.Stands)
    (ht : c.tokens[c.position]? = some t) (hstep : s.step? t = some (next t.text)) :
    Follows takeText s next c := by
  have hlt := h.position_lt_of_ne ht (isRegular_of_step hstep).kind_ne_eof
  have hleads := leadsTo_drained_forward h hlt
  have hposition : c.drained.forward.position = c.position + 1 :=
    forward_position (by rwa [drained, List.length_modify])
  refine ⟨.ok t.text, c.drained.forward, ?_, hleads, hleads.runs_of_step hposition ht hstep⟩
  rw [takeText, bind_apply, current_apply ht]
  rfl

end Cursor

end DeclarativeOptions
