import DeclarativeOptions.Proofs.Parser.Nesting
import DeclarativeOptions.Proofs.Parser.ViablePrefix

namespace DeclarativeOptions.Parser

open Grammar

variable {s : State} {frames : List Frame} {t : Token} {u kind : TokenKind}
  {front : List Token} {err : SyntaxError}

theorem opens_eq_true_iff : kind.opens = true ↔ kind = .leftBrace ∨ kind = .leftBracket := by
  cases kind <;> simp [TokenKind.opens]

-- Whatever is found, only beginnings of values are expected in the place of one
private theorem mem_valueStart_of_expectedValue (h : kind ∈ (State.expectedValue u).kinds) :
    kind ∈ valueStart := by
  unfold State.expectedValue at h
  split at h
  · exact (show scalarStart ⊆ valueStart by decide) h
  · exact (show scalarStart ⊆ valueStart by decide) h
  · exact (show [TokenKind.numberLiteral] ⊆ valueStart by decide) h
  · exact h

private theorem mem_propertyStart_of_expected {pairs : List (String × Expr)}
    (h : kind ∈ (State.expected ⟨.property pairs, frames⟩ u).kinds) : kind ∈ propertyStart := by
  simp only [State.expected] at h
  split_ifs at h
  · exact (show [TokenKind.numberLiteral] ⊆ propertyStart by decide) h
  · exact h

private theorem key_of_expected {access : Access}
    (h : kind ∈ (State.expected ⟨.bracket access, frames⟩ u).kinds) :
    kind = .stringLiteral ∨ kind = .numberLiteral := by
  simp only [State.expected] at h
  split_ifs at h
  · exact .inr (List.mem_singleton.mp h)
  · simpa [Expected.kinds] using h

private theorem startValue_isSome (hkind : t.kind ∈ valueStart)
    (hnumber : t.kind = .numberLiteral → t.number?.isSome = true)
    (hroom : t.kind.opens = true → frames.length < maxDepth) :
    (startValue? frames t).isSome = true := by
  simp only [valueStart, List.mem_cons, List.not_mem_nil, or_false] at hkind
  obtain ht | ht | ht | ht | ht | ht | ht | ht := hkind
  all_goals simp_all [startValue?, TokenKind.opens]

-- Behind a complete value the end of the innermost literal is expected, or of the text
private theorem endValue_isSome (v : Expr) (hkind : t.kind ∈ (State.expectedAfter frames).kinds) :
    t.kind = .eof ∧ frames = [] ∨ (endValue? v frames t).isSome = true := by
  cases frames with
  | nil => exact .inl ⟨List.mem_singleton.mp hkind, rfl⟩
  | cons frame outer =>
    right
    cases frame
    all_goals
      simp only [State.expectedAfter, Expected.kinds, List.mem_cons, List.not_mem_nil,
        or_false] at hkind
      obtain ht | ht := hkind
      all_goals simp [endValue?, ht]

private theorem extendChain_isSome (access : Access)
    (hkind : t.kind ∈ (State.expectedAfter frames).kinds) :
    t.kind = .eof ∧ frames = [] ∨ (extendChain? access frames t).isSome = true := by
  unfold extendChain?
  split
  · exact .inr rfl
  · exact .inr rfl
  · exact endValue_isSome _ hkind

-- The cases are the places at which an error may be, each with what is expected there
private theorem step_isSome_of_expected (hkind : t.kind ∈ (s.expected u).kinds)
    (hnumber : t.kind = .numberLiteral → t.number?.isSome = true)
    (hroom : t.kind.opens = true → s.literals < maxDepth) :
    t.kind = .eof ∧ s.complete?.isSome = true ∨ (s.step? t).isSome = true := by
  obtain ⟨mode, frames⟩ := s
  cases mode with
  | value => exact .inr (startValue_isSome (mem_valueStart_of_expectedValue hkind) hnumber hroom)
  | slot slots =>
    right
    simp only [State.step?]
    split_ifs with hclosing hcomma
    · rfl
    · rfl
    · exact startValue_isSome (mem_valueStart_of_expectedValue hkind) hnumber hroom
  | after v =>
    obtain ⟨ht, rfl⟩ | hstep := endValue_isSome v hkind
    · exact .inl ⟨ht, rfl⟩
    · exact .inr hstep
  | chain access =>
    obtain ⟨ht, rfl⟩ | hstep := extendChain_isSome access hkind
    · exact .inl ⟨ht, rfl⟩
    · exact .inr hstep
  | head name =>
    obtain ⟨ht, rfl⟩ | hstep := extendChain_isSome ⟨.identifier name, []⟩ hkind
    · exact .inl ⟨ht, rfl⟩
    · right
      simp only [State.step?]
      split_ifs
      · rfl
      · exact hstep
  | property pairs =>
    right
    have hstart := mem_propertyStart_of_expected hkind
    simp only [propertyStart, List.mem_cons, List.not_mem_nil, or_false] at hstart
    obtain ht | ht | ht | ht | ht := hstart
    all_goals simp_all [State.step?, propertyName?]
  | bracket access =>
    right
    obtain ht | ht := key_of_expected hkind
    all_goals simp_all [State.step?, indexKey?]
  | _ =>
    have ht := List.mem_singleton.mp hkind
    simp [State.step?, ht]

theorem not_refuses_of_expected (hkind : t.kind ∈ (s.expected u).kinds)
    (hnumber : t.kind = .numberLiteral → t.number?.isSome = true)
    (hroom : t.kind.opens = true → s.literals < maxDepth) : ¬s.Refuses t := by
  intro hrefuses
  obtain ⟨ht, hcomplete⟩ | hstep := step_isSome_of_expected hkind hnumber hroom
  · simp [hrefuses.complete ht] at hcomplete
  · simp [hrefuses.step] at hstep

private theorem not_opens_of_expectedAfter (h : kind ∈ (State.expectedAfter frames).kinds) :
    kind.opens = false := by
  unfold State.expectedAfter at h
  split at h
  · exact (show ∀ kind ∈ [TokenKind.eof], kind.opens = false by decide) kind h
  · exact (show ∀ kind ∈ [TokenKind.comma, .rightBracket], kind.opens = false by decide) kind h
  · exact (show ∀ kind ∈ [TokenKind.comma, .rightBrace], kind.opens = false by decide) kind h

-- A place inside of the given literals at which a value may begin
structure State.BeginsValue (s : State) (frames : List Frame) : Prop where
  opened : s.opened = frames.length
  literals : s.literals = frames.length
  expected : ∀ u, s.expected u = State.expectedValue u
  step : ∀ t : Token, t.kind.opens = true → s.step? t = startValue? frames t

-- Only there a literal may open
theorem exists_beginsValue (hkind : kind ∈ (s.expected u).kinds) (hopens : kind.opens = true) :
    ∃ frames, s.BeginsValue frames := by
  obtain ⟨mode, frames⟩ := s
  cases mode with
  | value => exact ⟨frames, rfl, rfl, fun _ => rfl, fun _ _ => rfl⟩
  | slot slots =>
    refine ⟨.array slots :: frames, rfl, rfl, fun _ => rfl, fun t ht => ?_⟩
    obtain ht | ht := opens_eq_true_iff.mp ht
    all_goals simp [State.step?, ht]
  | after | chain | head => simp [not_opens_of_expectedAfter hkind] at hopens
  | property pairs =>
    have hnone : ∀ kind ∈ propertyStart, kind.opens = false := by decide
    simp [hnone kind (mem_propertyStart_of_expected hkind)] at hopens
  | bracket access =>
    obtain rfl | rfl := key_of_expected hkind
    all_goals simp [TokenKind.opens] at hopens
  | _ =>
    obtain rfl := List.mem_singleton.mp hkind
    simp [TokenKind.opens] at hopens

-- A literal that may begin is refused only for the depth
theorem startValue_eq_none_iff (ht : t.kind.opens = true) :
    startValue? frames t = none ↔ maxDepth ≤ frames.length := by
  obtain hkind | hkind := opens_eq_true_iff.mp ht
  all_goals simp [startValue?, hkind]

theorem State.BeginsValue.refuses_iff (h : s.BeginsValue frames) (ht : t.kind.opens = true) :
    s.Refuses t ↔ maxDepth ≤ s.literals := by
  rw [h.literals, ← startValue_eq_none_iff ht, ← h.step t ht]
  refine ⟨fun hrefuses => hrefuses.step, fun hstep => ⟨hstep, fun heof => ?_⟩⟩
  simp [heof, TokenKind.opens] at ht

-- A token of an expected kind is refused only if it opens a literal too many
theorem refuses_iff_of_expected (hkind : t.kind ∈ (s.expected u).kinds)
    (hnumber : t.kind = .numberLiteral → t.number?.isSome = true)
    (hfits : s.literals ≤ maxDepth) :
    s.Refuses t ↔ t.kind.opens = true ∧ s.opened = maxDepth := by
  constructor
  · intro hrefuses
    have hopens : t.kind.opens = true := by
      by_contra hnot
      exact not_refuses_of_expected hkind hnumber (fun hopens => absurd hopens hnot) hrefuses
    obtain ⟨frames, hvalue⟩ := exists_beginsValue hkind hopens
    have hfull := (hvalue.refuses_iff hopens).mp hrefuses
    refine ⟨hopens, ?_⟩
    rw [hvalue.opened, ← hvalue.literals]
    omega
  · rintro ⟨hopens, hfull⟩
    obtain ⟨frames, hvalue⟩ := exists_beginsValue hkind hopens
    rw [hvalue.refuses_iff hopens, hvalue.literals, ← hvalue.opened, hfull]

-- In the place of a literal that is refused no literal is expected
theorem not_opens_of_expected (hu : u.opens = true) (hkind : kind ∈ (s.expected u).kinds) :
    kind.opens = false := by
  by_contra hopens
  obtain ⟨frames, hvalue⟩ := exists_beginsValue hkind (by simpa using hopens)
  have hnone : ∀ kind ∈ scalarStart, kind.opens = false := by decide
  rw [hvalue.expected u] at hkind
  obtain rfl | rfl := opens_eq_true_iff.mp hu
  all_goals exact hopens (hnone kind hkind)

theorem eq_numberLiteral_of_expected (h : s.expected u = .one .numberLiteral) :
    u = .numberLiteral := by
  obtain ⟨mode, frames⟩ := s
  cases mode with
  | value | slot slots =>
    simp only [State.expected] at h
    unfold State.expectedValue at h
    split at h
    · simp at h
    · simp at h
    · rfl
    · simp at h
  | after | head | chain =>
    simp only [State.expected] at h
    unfold State.expectedAfter at h
    split at h
    all_goals simp at h
  | property | bracket =>
    simp only [State.expected] at h
    split_ifs at h with hu
    exact hu
  | _ => simp [State.expected] at h

-- A number alone is expected only where a number cannot be read
theorem expected_ne_numberLiteral (hrefuses : s.Refuses t)
    (hnumber : t.kind = .numberLiteral → t.number?.isSome = true) :
    s.expected t.kind ≠ .one .numberLiteral := by
  intro h
  have ht := eq_numberLiteral_of_expected h
  have hkind : t.kind ∈ (s.expected t.kind).kinds := by
    rw [h]
    exact List.mem_singleton.mpr ht
  have hopens : t.kind.opens = false := by simp [ht, TokenKind.opens]
  exact not_refuses_of_expected hkind hnumber (by simp [hopens]) hrefuses

-- A token that is not refused goes on to a record, or ends one
theorem exists_accepts_of_not_refuses (hsteps : State.start.steps? front = some s)
    (hrefuses : ¬s.Refuses t) :
    ∃ list, Accepts list ∧ front ++ [t] <+: list ∧ (t.kind = .eof → list = front ++ [t]) := by
  cases hstep : s.step? t with
  | some next =>
    have hsteps' : State.start.steps? (front ++ [t]) = some next := by
      simp [steps_append hsteps, State.steps?, hstep]
    obtain ⟨list, haccepts, hbegins⟩ := exists_accepts hsteps'
    exact ⟨list, haccepts, hbegins, fun ht => absurd ht (isRegular_of_step hstep).kind_ne_eof⟩
  | none =>
    have hends : t.kind = .eof ∧ ∃ e, s.complete? = some e := by
      by_contra hnot
      refine hrefuses ⟨hstep, fun ht => Option.eq_none_iff_forall_ne_some.mpr ?_⟩
      exact fun e hcomplete => hnot ⟨ht, e, hcomplete⟩
    obtain ⟨ht, e, hcomplete⟩ := hends
    have h := Completes.of_steps hsteps (completes_nil.mpr hcomplete)
    rw [List.append_nil] at h
    exact ⟨_, accepts_of_completes h ht, List.prefix_rfl, fun _ => rfl⟩

theorem Accepts.not_refuses {list : List Token} (h : Accepts list)
    (hsteps : State.start.steps? front = some s) (hbegins : front ++ [t] <+: list)
    (hseparator : t.kind ≠ .separator) : ¬s.Refuses t := by
  intro hrefuses
  obtain ⟨e, -, hreads⟩ := h.reads
  exact parse_ne_ok hsteps hrefuses hseparator hbegins (hreads "")

-- What an error expects would have been right: a token of an expected kind goes on to a record,
-- unless it opens a literal where as many are open as there may be. Brackets and braces count as
-- literals here, since no key is open where a literal may begin.
theorem expected_is_acceptable (text : String) (err : SyntaxError)
    (h : Expr.parse text = .error err) :
    let before := ((Token.scan text).filter (·.kind != .separator)).take err.offset
    (∀ t : Token, t.kind ∈ err.expected.kinds →
      (t.kind = .numberLiteral → t.number?.isSome = true) →
      ((∃ list, Accepts list ∧ before ++ [t] <+: list ∧
          (t.kind = .eof → list = before ++ [t])) ↔
        ¬(t.kind.opens = true ∧ Token.openAfter before = maxDepth))) ∧
    (err.unexpected.opens = true → ∀ kind ∈ err.expected.kinds, kind.opens = false) := by
  intro before
  obtain ⟨front, u, more, s, htokens, hsteps, -, rfl⟩ := exists_refused_of_parse h
  have hbefore : before = front := by simp [before, htokens]
  obtain ⟨hopened, hfits⟩ := opened_of_start hsteps
  refine ⟨fun t hkind hnumber => ?_, fun hu kind hkind => not_opens_of_expected hu hkind⟩
  have hfull : Token.openAfter front = maxDepth ↔ s.opened = maxDepth := by omega
  rw [hbefore, hfull, ← refuses_iff_of_expected hkind hnumber hfits]
  constructor
  · rintro ⟨list, haccepts, hbegins, -⟩ hrefuses
    have hopens := ((refuses_iff_of_expected hkind hnumber hfits).mp hrefuses).1
    have hseparator : t.kind ≠ .separator := fun ht => by simp [ht, TokenKind.opens] at hopens
    exact haccepts.not_refuses hsteps hbegins hseparator hrefuses
  · exact exists_accepts_of_not_refuses hsteps

-- Behind `[,` every beginning of a value is expected, and any would do
theorem expected_is_acceptable_brace :
    let before := ((Token.scan "[,\x7d").filter (·.kind != .separator)).take 2
    Expr.parse "[,\x7d" = .error ⟨"[,\x7d", .rightBrace, .oneOf valueStart, 2, 2⟩ ∧
      ∀ t : Token, t.kind ∈ valueStart → (t.kind = .numberLiteral → t.number?.isSome = true) →
        ∃ list, Accepts list ∧ before ++ [t] <+: list := by
  refine ⟨parse_hole_brace, fun t hkind hnumber => ?_⟩
  obtain ⟨hacceptable, -⟩ := expected_is_acceptable _ _ parse_hole_brace
  have hopen : Token.openAfter (((Token.scan "[,\x7d").filter (·.kind != .separator)).take 2) ≠
      maxDepth := by
    rw [scan_hole_brace]
    decide
  obtain ⟨list, haccepts, hbegins, -⟩ := (hacceptable t hkind hnumber).mpr fun h => hopen h.2
  exact ⟨list, haccepts, hbegins⟩

end DeclarativeOptions.Parser
