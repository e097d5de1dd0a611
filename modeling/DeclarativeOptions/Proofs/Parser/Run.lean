import DeclarativeOptions.Parser
import DeclarativeOptions.Proofs.Parser.Demand
import Mathlib.Data.List.Basic

namespace DeclarativeOptions

-- The tokens that a record may hold: neither an end nor a separator, and no number that cannot
-- be read
structure Token.IsRegular (t : Token) : Prop where
  kind_ne_eof : t.kind ≠ .eof
  kind_ne_separator : t.kind ≠ .separator
  number : t.kind = .numberLiteral → t.number?.isSome = true

namespace Parser

open Grammar

private theorem isRegular_of_kind {t : Token} {kind : TokenKind} (ht : t.kind = kind)
    (heof : kind ≠ .eof) (hseparator : kind ≠ .separator) (hnumber : kind ≠ .numberLiteral) :
    t.IsRegular where
  kind_ne_eof := ht ▸ heof
  kind_ne_separator := ht ▸ hseparator
  number h := absurd (ht.symm.trans h) hnumber

private theorem isRegular_of_number {t : Token} {n : Number} (ht : t.kind = .numberLiteral)
    (hn : t.number? = some n) : t.IsRegular where
  kind_ne_eof := by simp [ht]
  kind_ne_separator := by simp [ht]
  number _ := by simp [hn]

private theorem isRegular_of_startValue {frames : List Frame} {t : Token} {s : State}
    (h : startValue? frames t = some s) : t.IsRegular := by
  obtain ⟨v, hv, -⟩ | ⟨ht, -⟩ | ⟨ht, -⟩ | ⟨ht, -⟩ := startValue_eq_some h
  · cases hv with
    | number ht hn => exact isRegular_of_number ht hn
    | _ ht => exact isRegular_of_kind ht (by simp) (by simp) (by simp)
  all_goals exact isRegular_of_kind ht (by simp) (by simp) (by simp)

private theorem isRegular_of_endValue {v : Expr} {frames : List Frame} {t : Token} {s : State}
    (h : endValue? v frames t = some s) : t.IsRegular := by
  obtain ⟨_, _, -, ⟨ht, -⟩ | ⟨ht, -⟩⟩ | ⟨_, _, _, -, ⟨ht, -⟩ | ⟨ht, -⟩⟩ := endValue_eq_some h
  all_goals exact isRegular_of_kind ht (by simp) (by simp) (by simp)

private theorem isRegular_of_extendChain {access : Access} {frames : List Frame} {t : Token}
    {s : State} (h : extendChain? access frames t = some s) : t.IsRegular := by
  obtain ⟨ht, -⟩ | ⟨ht, -⟩ | hend := extendChain_eq_some h
  · exact isRegular_of_kind ht (by simp) (by simp) (by simp)
  · exact isRegular_of_kind ht (by simp) (by simp) (by simp)
  · exact isRegular_of_endValue hend

private theorem isRegular_of_propertyName {key : String} {t : Token} (h : PropertyName key t) :
    t.IsRegular := by
  cases h with
  | text ht =>
    refine ⟨?_, ?_, ?_⟩
    all_goals
      intro hkind
      simp [hkind] at ht
  | number ht hn => exact isRegular_of_number ht hn

-- Every token that a state takes may be part of a record
theorem isRegular_of_step {s s' : State} {t : Token} (h : s.step? t = some s') :
    t.IsRegular := by
  cases takes_of_step h with
  | value hstart => exact isRegular_of_startValue hstart
  | element hstart => exact isRegular_of_startValue hstart
  | after hend => exact isRegular_of_endValue hend
  | head hextend => exact isRegular_of_extendChain hextend
  | chain hextend => exact isRegular_of_extendChain hextend
  | name hname => exact isRegular_of_propertyName hname
  | key hkey =>
    cases hkey with
    | string ht => exact isRegular_of_kind ht (by simp) (by simp) (by simp)
    | number ht hn => exact isRegular_of_number ht hn
  | read ht =>
    obtain ht | ht := ht
    all_goals exact isRegular_of_kind ht (by simp) (by simp) (by simp)
  | _ ht => exact isRegular_of_kind ht (by simp) (by simp) (by simp)

-- The state that is reached over a list of tokens, if each of them is taken
def State.steps? (s : State) : List Token → Option State
  | [] => some s
  | t :: rest => (s.step? t).bind fun next => next.steps? rest

variable {input : String} {endOffset index : Nat} {s s' : State} {front rest tokens : List Token}
  {e : Expr}

theorem isRegular_of_steps (h : s.steps? tokens = some s') : ∀ t ∈ tokens, t.IsRegular := by
  induction tokens generalizing s with
  | nil => simp
  | cons t rest ih =>
    obtain ⟨next, hstep, hsteps⟩ := Option.bind_eq_some_iff.mp h
    intro u hu
    cases List.mem_cons.mp hu with
    | inl he => exact he ▸ isRegular_of_step hstep
    | inr hm => exact ih hsteps u hm

theorem steps_append (hfront : s.steps? front = some s') :
    s.steps? (front ++ rest) = s'.steps? rest := by
  induction front generalizing s with
  | nil =>
    obtain rfl := Option.some.inj hfront
    rfl
  | cons t front ih =>
    obtain ⟨next, hstep, hsteps⟩ := Option.bind_eq_some_iff.mp hfront
    simp [State.steps?, hstep, ih hsteps]

theorem Completes.of_steps (hsteps : s.steps? front = some s') (h : Completes e s' rest) :
    Completes e s (front ++ rest) := by
  induction front generalizing s with
  | nil =>
    obtain rfl := Option.some.inj hsteps
    exact h
  | cons t front ih =>
    obtain ⟨next, hstep, hsteps⟩ := Option.bind_eq_some_iff.mp hsteps
    exact .of_step hstep (ih hsteps)

theorem Completes.isRegular (h : Completes e s tokens) : ∀ t ∈ tokens, t.IsRegular := by
  induction tokens generalizing s with
  | nil => simp
  | cons t rest ih =>
    obtain ⟨s', hstep, h⟩ := h.step
    intro u hu
    cases List.mem_cons.mp hu with
    | inl he => exact he ▸ isRegular_of_step hstep
    | inr hm => exact ih h u hm

-- A token that is taken is read on over, whether or not the record could have ended before it
theorem run_cons {t : Token} (hstep : s.step? t = some s') :
    run input endOffset s index (t :: rest) = run input endOffset s' (index + 1) rest := by
  have heof := (isRegular_of_step hstep).kind_ne_eof
  conv => lhs; unfold run
  split
  · rename_i ht
    exact absurd ht heof
  · simp only [hstep]

theorem run_append (hsteps : s.steps? front = some s') :
    run input endOffset s index (front ++ rest) =
      run input endOffset s' (index + front.length) rest := by
  induction front generalizing s index with
  | nil =>
    obtain rfl := Option.some.inj hsteps
    rfl
  | cons t front ih =>
    obtain ⟨next, hstep, hsteps⟩ := Option.bind_eq_some_iff.mp hsteps
    rw [List.cons_append, run_cons hstep, ih hsteps]
    simp only [List.length_cons]
    congr 1
    omega

-- A run over tokens without an end succeeds exactly if they are what the state demands
theorem run_eq_ok_iff (hfront : ∀ t ∈ tokens, t.kind ≠ .eof) :
    (run input endOffset s index tokens).1 = .ok e ↔ Completes e s tokens := by
  induction tokens generalizing s index with
  | nil =>
    rw [completes_nil, run]
    cases hcomplete : s.complete? <;> simp
  | cons t rest ih =>
    have ht : t.kind ≠ .eof := hfront t (by simp)
    have hrest : ∀ t ∈ rest, t.kind ≠ .eof := fun u hu => hfront u (List.mem_cons_of_mem _ hu)
    cases hstep : s.step? t with
    | none =>
      constructor
      · intro h
        unfold run at h
        split at h
        · rename_i hkind
          exact absurd hkind ht
        · simp [hstep] at h
      · intro h
        obtain ⟨s', hs', -⟩ := h.step
        simp [hstep] at hs'
    | some next =>
      rw [run_cons hstep, ih hrest]
      constructor
      · exact .of_step hstep
      · intro h
        obtain ⟨s', hs', h⟩ := h.step
        obtain rfl := Option.some.inj (hstep.symm.trans hs')
        exact h

-- The tokens of one record as a parser keeps them
theorem ofTokens_append {last : Token} (hfront : ∀ t ∈ front, t.kind ≠ .separator)
    (hlast : last.kind = .eof) :
    ofTokens input (front ++ [last]) = ⟨input, front, last.offset, 0⟩ := by
  have hkept : (front ++ [last]).filter (·.kind != .separator) = front ++ [last] := by
    rw [List.filter_eq_self]
    intro t ht
    cases List.mem_append.mp ht with
    | inl hm => simpa using hfront t hm
    | inr hm => simp [List.mem_singleton.mp hm, hlast]
  obtain ⟨kind, text, offset⟩ := last
  obtain rfl : kind = .eof := hlast
  simp only [ofTokens, hkept, List.getLast?_append, List.getLast?_singleton, Option.some_or,
    List.dropLast_concat]

end Parser

end DeclarativeOptions
