import DeclarativeOptions.Proofs.Parser.Step

namespace DeclarativeOptions.Parser

open Grammar

-- The slots behind a complete one, and the pairs behind a complete one
inductive MoreElements : List (Option Expr) → List Token → Prop where
  | done : MoreElements [] []
  | more {slots : List (Option Expr)} {comma : Token} {rest : List Token}
      (hcomma : comma.kind = .comma) (hrest : Derives (.elements slots) rest) :
      MoreElements slots (comma :: rest)

inductive MoreMembers : List (String × Expr) → List Token → Prop where
  | done : MoreMembers [] []
  | more {pairs : List (String × Expr)} {comma : Token} {rest : List Token}
      (hcomma : comma.kind = .comma) (hrest : Derives (.members pairs) rest) :
      MoreMembers pairs (comma :: rest)

-- The tokens behind a complete value inside of the given literals, which make the record `e` of
-- it. What opens inside of `n` literals may open `maxDepth - n` more.
inductive Closes (e : Expr) : Expr → List Frame → List Token → Prop where
  | outermost : Closes e e [] []
  | array {v : Expr} {slots more : List (Option Expr)} {outer : List Frame} {closing : Token}
      {inside rest : List Token} (hmore : MoreElements more inside)
      (hclosing : closing.kind = .rightBracket)
      (hfits : Expr.slotsNesting more ≤ maxDepth - (outer.length + 1))
      (hrest : Closes e (.array (slots.reverse ++ some v :: more)) outer rest) :
      Closes e v (.array slots :: outer) (inside ++ closing :: rest)
  | object {v : Expr} {pairs more : List (String × Expr)} {key : String} {outer : List Frame}
      {closing : Token} {inside rest : List Token} (hmore : MoreMembers more inside)
      (hclosing : closing.kind = .rightBrace)
      (hfits : Expr.pairsNesting more ≤ maxDepth - (outer.length + 1))
      (hrest : Closes e (.object (pairs.reverse ++ (key, v) :: more)) outer rest) :
      Closes e v (.object pairs key :: outer) (inside ++ closing :: rest)

-- The tokens that lead from a state to the record `e`
inductive Completes (e : Expr) : State → List Token → Prop where
  | value {v : Expr} {frames : List Frame} {tokens rest : List Token}
      (hv : Derives (.value v) tokens) (hfits : v.nesting ≤ maxDepth - frames.length)
      (hrest : Closes e v frames rest) : Completes e ⟨.value, frames⟩ (tokens ++ rest)
  | property {pairs more : List (String × Expr)} {frames : List Frame} {closing : Token}
      {inside rest : List Token} (hmore : Derives (.members more) inside)
      (hclosing : closing.kind = .rightBrace)
      (hfits : Expr.pairsNesting more ≤ maxDepth - (frames.length + 1))
      (hrest : Closes e (.object (pairs.reverse ++ more)) frames rest) :
      Completes e ⟨.property pairs, frames⟩ (inside ++ closing :: rest)
  | named {pairs : List (String × Expr)} {key : String} {frames : List Frame} {colon : Token}
      {rest : List Token} (hcolon : colon.kind = .colon)
      (hrest : Completes e ⟨.value, .object pairs key :: frames⟩ rest) :
      Completes e ⟨.named pairs key, frames⟩ (colon :: rest)
  | slot {slots more : List (Option Expr)} {frames : List Frame} {closing : Token}
      {inside rest : List Token} (hmore : Derives (.elements more) inside)
      (hclosing : closing.kind = .rightBracket)
      (hfits : Expr.slotsNesting more ≤ maxDepth - (frames.length + 1))
      (hrest : Closes e (.array (slots.reverse ++ more)) frames rest) :
      Completes e ⟨.slot slots, frames⟩ (inside ++ closing :: rest)
  | after {v : Expr} {frames : List Frame} {rest : List Token} (hrest : Closes e v frames rest) :
      Completes e ⟨.after v, frames⟩ rest
  | chain {access : Access} {reads : List Accessor} {frames : List Frame}
      {suffixes rest : List Token} (hreads : Suffixes reads suffixes)
      (hrest : Closes e (.access ⟨access.head, access.tail ++ reads⟩) frames rest) :
      Completes e ⟨.chain access, frames⟩ (suffixes ++ rest)
  | name {name : String} {frames : List Frame} {rest : List Token}
      (hrest : Completes e ⟨.chain ⟨.identifier name, []⟩, frames⟩ rest) :
      Completes e ⟨.head name, frames⟩ rest
  | opened {name : String} {frames : List Frame} {opening : Token} {rest : List Token}
      (hopening : opening.kind = .leftParen) (hrest : Completes e ⟨.call name, frames⟩ rest) :
      Completes e ⟨.head name, frames⟩ (opening :: rest)
  | call {target : String} {frames : List Frame} {argument : Token} {rest : List Token}
      (hargument : argument.kind = .stringLiteral)
      (hrest : Completes e ⟨.argument target argument.text, frames⟩ rest) :
      Completes e ⟨.call target, frames⟩ (argument :: rest)
  | argument {target argument : String} {frames : List Frame} {closing : Token}
      {rest : List Token} (hclosing : closing.kind = .rightParen)
      (hrest : Completes e ⟨.chain ⟨.call target argument, []⟩, frames⟩ rest) :
      Completes e ⟨.argument target argument, frames⟩ (closing :: rest)
  | point {access : Access} {frames : List Frame} {t : Token} {rest : List Token}
      (ht : t.kind = .identifier ∨ t.kind = .reservedWord)
      (hrest : Completes e ⟨.chain (access.push (.name t.text)), frames⟩ rest) :
      Completes e ⟨.point access, frames⟩ (t :: rest)
  | bracket {access : Access} {key : IndexKey} {frames : List Frame} {t : Token}
      {rest : List Token} (hkey : Key key t) (hrest : Completes e ⟨.key access key, frames⟩ rest) :
      Completes e ⟨.bracket access, frames⟩ (t :: rest)
  | key {access : Access} {key : IndexKey} {frames : List Frame} {closing : Token}
      {rest : List Token} (hclosing : closing.kind = .rightBracket)
      (hrest : Completes e ⟨.chain (access.push (.index key)), frames⟩ rest) :
      Completes e ⟨.key access key, frames⟩ (closing :: rest)

variable {e v : Expr} {frames : List Frame} {s s' : State} {t : Token} {tokens rest : List Token}

-- What a token does behind a complete value, and which tokens may stand there

theorem Closes.of_endValue (hstep : endValue? v frames t = some s') (h : Completes e s' rest) :
    Closes e v frames (t :: rest) := by
  obtain ⟨slots, outer, rfl, ⟨hcomma, rfl⟩ | ⟨hclosing, rfl⟩⟩ |
    ⟨pairs, key, outer, rfl, ⟨hcomma, rfl⟩ | ⟨hclosing, rfl⟩⟩ := endValue_eq_some hstep
  · cases h with
    | slot hmore hclosing hfits hrest =>
      exact .array (.more hcomma hmore) hclosing hfits (by simpa using hrest)
  · cases h with
    | after hrest =>
      exact .array .done hclosing (by simp [Expr.slotsNesting]) (by simpa using hrest)
  · cases h with
    | property hmore hclosing hfits hrest =>
      exact .object (.more hcomma hmore) hclosing hfits (by simpa using hrest)
  · cases h with
    | after hrest =>
      exact .object .done hclosing (by simp [Expr.pairsNesting]) (by simpa using hrest)

theorem Closes.step (h : Closes e v frames (t :: rest)) :
    t.kind ∈ [TokenKind.comma, .rightBracket, .rightBrace] ∧
      ∃ s', endValue? v frames t = some s' ∧ Completes e s' rest := by
  generalize htokens : t :: rest = tokens at h
  cases h with
  | outermost => simp at htokens
  | @array _ slots more outer closing inside after hmore hclosing hfits hrest =>
    cases hmore with
    | done =>
      obtain ⟨rfl, rfl⟩ := List.cons.inj htokens
      refine ⟨by simp [hclosing], ⟨.after (.array (some v :: slots).reverse), outer⟩, ?_, ?_⟩
      · simp only [endValue?, hclosing]
      · exact .after (by simpa using hrest)
    | more hcomma hmore =>
      obtain ⟨rfl, rfl⟩ := List.cons.inj htokens
      refine ⟨by simp [hcomma], ⟨.slot (some v :: slots), outer⟩, ?_, ?_⟩
      · simp only [endValue?, hcomma]
      · exact .slot hmore hclosing hfits (by simpa using hrest)
  | @object _ pairs more key outer closing inside after hmore hclosing hfits hrest =>
    cases hmore with
    | done =>
      obtain ⟨rfl, rfl⟩ := List.cons.inj htokens
      refine ⟨by simp [hclosing], ⟨.after (.object ((key, v) :: pairs).reverse), outer⟩, ?_, ?_⟩
      · simp only [endValue?, hclosing]
      · exact .after (by simpa using hrest)
    | more hcomma hmore =>
      obtain ⟨rfl, rfl⟩ := List.cons.inj htokens
      refine ⟨by simp [hcomma], ⟨.property ((key, v) :: pairs), outer⟩, ?_, ?_⟩
      · simp only [endValue?, hcomma]
      · exact .property hmore hclosing hfits (by simpa using hrest)

-- What a token does at the beginning of a value

private theorem startValue_of_scalar (h : Scalar v t) :
    startValue? frames t = some ⟨.after v, frames⟩ := by
  cases h with
  | number ht hn => simp [startValue?, ht, hn]
  | _ ht => simp [startValue?, ht]

-- A value is read in the place of a value
theorem Completes.of_startValue (hstep : startValue? frames t = some s')
    (h : Completes e s' rest) : Completes e ⟨.value, frames⟩ (t :: rest) := by
  obtain ⟨v, hv, rfl⟩ | ⟨ht, hlength, rfl⟩ | ⟨ht, hlength, rfl⟩ | ⟨ht, rfl⟩ :=
    startValue_eq_some hstep
  · cases h with
    | after hrest =>
      have hfits : v.nesting ≤ maxDepth - frames.length := by cases hv <;> simp [Expr.nesting]
      exact .value (.scalar hv) hfits hrest
  · cases h with
    | property hmore hclosing hfits hrest =>
      have hvalue := Derives.object ht hmore hclosing
      simpa using Completes.value hvalue (by simp only [Expr.nesting]; omega) (by simpa using hrest)
  · cases h with
    | slot hmore hclosing hfits hrest =>
      have hvalue := Derives.array ht hmore hclosing
      simpa using Completes.value hvalue (by simp only [Expr.nesting]; omega) (by simpa using hrest)
  · cases h with
    | name h =>
      cases h with
      | chain hreads hrest =>
        have hvalue := Derives.access (.identifier ht) hreads
        simpa using Completes.value hvalue (by simp [Expr.nesting]) (by simpa using hrest)
    | opened hopening h =>
      cases h with
      | call hargument h =>
        cases h with
        | argument hclosing h =>
          cases h with
          | chain hreads hrest =>
            have hvalue := Derives.access (.call ht hopening hargument hclosing) hreads
            simpa using Completes.value hvalue (by simp [Expr.nesting]) (by simpa using hrest)

private theorem Completes.step_value (h : Completes e ⟨.value, frames⟩ (t :: rest)) :
    ∃ s', startValue? frames t = some s' ∧ Completes e s' rest := by
  generalize htokens : t :: rest = tokens at h
  cases h with
  | value hv hfits hrest =>
    cases hv with
    | scalar hv =>
      obtain ⟨rfl, rfl⟩ := List.cons.inj htokens
      exact ⟨_, startValue_of_scalar hv, .after hrest⟩
    | access hstart hreads =>
      cases hstart with
      | identifier ht =>
        obtain ⟨rfl, rfl⟩ := List.cons.inj htokens
        exact ⟨_, by simp [startValue?, ht], .name (.chain hreads hrest)⟩
      | call ht hopening hargument hclosing =>
        obtain ⟨rfl, rfl⟩ := List.cons.inj htokens
        exact ⟨_, by simp [startValue?, ht],
          .opened hopening (.call hargument (.argument hclosing (.chain hreads hrest)))⟩
    | array hopening hmore hclosing =>
      obtain ⟨rfl, rfl⟩ := List.cons.inj htokens
      simp only [Expr.nesting] at hfits
      refine ⟨⟨.slot [], frames⟩, ?_, ?_⟩
      · simp only [startValue?, hopening, ite_eq_left_iff]
        omega
      · simpa using Completes.slot hmore hclosing (by omega) (by simpa using hrest)
    | object hopening hmore hclosing =>
      obtain ⟨rfl, rfl⟩ := List.cons.inj htokens
      simp only [Expr.nesting] at hfits
      refine ⟨⟨.property [], frames⟩, ?_, ?_⟩
      · simp only [startValue?, hopening, ite_eq_left_iff]
        omega
      · simpa using Completes.property hmore hclosing (by omega) (by simpa using hrest)

private theorem startValue_kind (h : startValue? frames t = some s') :
    t.kind ≠ .rightBracket ∧ t.kind ≠ .comma := by
  obtain ⟨v, hv, -⟩ | ⟨ht, -⟩ | ⟨ht, -⟩ | ⟨ht, -⟩ := startValue_eq_some h
  · cases hv <;> simp_all
  all_goals simp [ht]

-- What a token does in a chain

theorem Completes.of_extendChain {access : Access}
    (hstep : extendChain? access frames t = some s') (h : Completes e s' rest) :
    Completes e ⟨.chain access, frames⟩ (t :: rest) := by
  obtain ⟨hpoint, rfl⟩ | ⟨hopening, rfl⟩ | hstep := extendChain_eq_some hstep
  · cases h with
    | point ht h =>
      cases h with
      | chain hreads hrest =>
        exact .chain (.cons (.name hpoint ht) hreads) (by simpa [Access.push] using hrest)
  · cases h with
    | bracket hkey h =>
      cases h with
      | key hclosing h =>
        cases h with
        | chain hreads hrest =>
          exact .chain (.cons (.index hopening hkey hclosing) hreads)
            (by simpa [Access.push] using hrest)
  · exact .chain .nil (by simpa using Closes.of_endValue hstep h)

private theorem Completes.step_chain {access : Access}
    (h : Completes e ⟨.chain access, frames⟩ (t :: rest)) :
    t.kind ≠ .leftParen ∧ ∃ s', extendChain? access frames t = some s' ∧ Completes e s' rest := by
  generalize htokens : t :: rest = tokens at h
  cases h with
  | chain hreads hrest =>
    cases hreads with
    | nil =>
      subst htokens
      obtain ⟨ht, s', hstep, h⟩ := hrest.step
      simp only [List.append_nil] at hstep
      have hextend : extendChain? access frames t = endValue? (.access access) frames t := by
        unfold extendChain?
        split <;> simp_all
      exact ⟨by rintro hparen; simp [hparen] at ht, s', hextend.trans hstep, h⟩
    | cons hread hreads =>
      cases hread with
      | name hpoint ht =>
        obtain ⟨rfl, rfl⟩ := List.cons.inj htokens
        refine ⟨by simp [hpoint], ⟨.point access, frames⟩, by simp only [extendChain?, hpoint], ?_⟩
        exact .point ht (.chain hreads (by simpa [Access.push] using hrest))
      | index hopening hkey hclosing =>
        obtain ⟨rfl, rfl⟩ := List.cons.inj htokens
        refine ⟨by simp [hopening], ⟨.bracket access, frames⟩,
          by simp only [extendChain?, hopening], ?_⟩
        exact .bracket hkey (.key hclosing (.chain hreads (by simpa [Access.push] using hrest)))

-- What a token does in an open array

private theorem Completes.slot_of_value {slots : List (Option Expr)}
    (h : Completes e ⟨.value, .array slots :: frames⟩ tokens) :
    Completes e ⟨.slot slots, frames⟩ tokens := by
  cases h with
  | value hv hfits hrest =>
    simp only [List.length_cons] at hfits
    cases hrest with
    | array hmore hclosing hfits' hrest =>
      cases hmore with
      | done =>
        exact .slot (.lastElement hv) hclosing (by simpa [Expr.slotsNesting] using hfits) hrest
      | more hcomma hmore =>
        have hslots := Derives.element hv hcomma hmore
        have hboth := Nat.max_le.mpr ⟨hfits, hfits'⟩
        simpa using Completes.slot hslots hclosing hboth hrest

private theorem Completes.step_slot {slots : List (Option Expr)}
    (h : Completes e ⟨.slot slots, frames⟩ (t :: rest)) :
    ∃ s', State.step? ⟨.slot slots, frames⟩ t = some s' ∧ Completes e s' rest := by
  -- An element is read as a value inside of the array
  have helement (hvalue : Completes e ⟨.value, .array slots :: frames⟩ (t :: rest)) :
      ∃ s', State.step? ⟨.slot slots, frames⟩ t = some s' ∧ Completes e s' rest := by
    obtain ⟨s', hstep, hs'⟩ := hvalue.step_value
    obtain ⟨hclosing, hcomma⟩ := startValue_kind hstep
    exact ⟨s', by simpa only [State.step?, hclosing, hcomma, ite_false] using hstep, hs'⟩
  generalize htokens : t :: rest = tokens at h
  cases h with
  | @slot _ more _ closing inside after hmore hclosing hfits hrest =>
    cases hmore with
    | noElements =>
      obtain ⟨rfl, rfl⟩ := List.cons.inj htokens
      refine ⟨⟨.after (.array slots.reverse), frames⟩, ?_, .after (by simpa using hrest)⟩
      simp only [State.step?, hclosing, ite_true]
    | hole hcomma hmore =>
      obtain ⟨rfl, rfl⟩ := List.cons.inj htokens
      refine ⟨⟨.slot (none :: slots), frames⟩, ?_, ?_⟩
      · simp [State.step?, hcomma]
      · exact .slot hmore hclosing (by simpa [Expr.slotsNesting] using hfits)
          (by simpa using hrest)
    | lastElement hv =>
      apply helement
      rw [htokens]
      exact .value hv (by simpa [Expr.slotsNesting] using hfits)
        (.array .done hclosing (by simp [Expr.slotsNesting]) hrest)
    | element hv hcomma hmore =>
      apply helement
      obtain ⟨hfirst, hothers⟩ := Nat.max_le.mp hfits
      rw [htokens, List.append_assoc]
      exact .value hv hfirst (.array (.more hcomma hmore) hclosing hothers hrest)

-- What a token does in an open object

private theorem Completes.property_of_named {pairs : List (String × Expr)} {key : String}
    (hname : PropertyName key t) (h : Completes e ⟨.named pairs key, frames⟩ rest) :
    Completes e ⟨.property pairs, frames⟩ (t :: rest) := by
  cases h with
  | named hcolon h =>
    cases h with
    | value hv hfits hrest =>
      simp only [List.length_cons] at hfits
      cases hrest with
      | object hmore hclosing hfits' hrest =>
        cases hmore with
        | done =>
          exact .property (.lastMember hname hcolon hv) hclosing
            (by simpa [Expr.pairsNesting] using hfits) hrest
        | more hcomma hmore =>
          have hpairs := Derives.member hname hcolon hv hcomma hmore
          have hboth := Nat.max_le.mpr ⟨hfits, hfits'⟩
          simpa using Completes.property hpairs hclosing hboth hrest

private theorem Completes.step_property {pairs : List (String × Expr)}
    (h : Completes e ⟨.property pairs, frames⟩ (t :: rest)) :
    ∃ s', State.step? ⟨.property pairs, frames⟩ t = some s' ∧ Completes e s' rest := by
  have hnamed {key : String} (hname : PropertyName key t) :
      State.step? ⟨.property pairs, frames⟩ t = some ⟨.named pairs key, frames⟩ := by
    simp only [State.step?, propertyName_kind hname, ite_false, propertyName_eq_some.mpr hname,
      Option.map_some]
  generalize htokens : t :: rest = tokens at h
  cases h with
  | @property _ more _ closing inside after hmore hclosing hfits hrest =>
    cases hmore with
    | noMembers =>
      obtain ⟨rfl, rfl⟩ := List.cons.inj htokens
      refine ⟨⟨.after (.object pairs.reverse), frames⟩, ?_, .after (by simpa using hrest)⟩
      simp only [State.step?, hclosing, ite_true]
    | lastMember hname hcolon hv =>
      obtain ⟨rfl, rfl⟩ := List.cons.inj htokens
      refine ⟨_, hnamed hname, .named hcolon ?_⟩
      exact .value hv (by simpa [Expr.pairsNesting] using hfits)
        (.object .done hclosing (by simp [Expr.pairsNesting]) hrest)
    | @member key _ _ _ _ _ _ _ hname hcolon hv hcomma hmore =>
      obtain ⟨rfl, rfl⟩ := List.cons.inj htokens
      obtain ⟨hfirst, hothers⟩ := Nat.max_le.mp hfits
      have hvalue : Completes e ⟨.value, .object pairs key :: frames⟩ _ :=
        .value hv hfirst (.object (.more hcomma hmore) hclosing hothers hrest)
      exact ⟨_, hnamed hname, .named hcolon (by simpa using hvalue)⟩

-- A token that a state takes is the first one of what the state demands
theorem Completes.of_step (hstep : s.step? t = some s') (h : Completes e s' rest) :
    Completes e s (t :: rest) := by
  cases takes_of_step hstep with
  | value hstart => exact .of_startValue hstart h
  | element hstart => exact .slot_of_value (.of_startValue hstart h)
  | hole hcomma =>
    cases h with
    | slot hmore hclosing hfits hrest =>
      exact .slot (.hole hcomma hmore) hclosing (by simpa [Expr.slotsNesting] using hfits)
        (by simpa using hrest)
  | arrayEnd hclosing =>
    cases h with
    | after hrest =>
      exact .slot .noElements hclosing (by simp [Expr.slotsNesting]) (by simpa using hrest)
  | name hname => exact .property_of_named hname h
  | objectEnd hclosing =>
    cases h with
    | after hrest =>
      exact .property .noMembers hclosing (by simp [Expr.pairsNesting]) (by simpa using hrest)
  | colon hcolon => exact .named hcolon h
  | after hend => exact .after (.of_endValue hend h)
  | call hopening => exact .opened hopening h
  | argument hargument => exact .call hargument h
  | callEnd hclosing => exact .argument hclosing h
  | head hextend => exact .name (.of_extendChain hextend h)
  | chain hextend => exact .of_extendChain hextend h
  | read ht => exact .point ht h
  | key hkey => exact .bracket hkey h
  | keyEnd hclosing => exact .key hclosing h

-- The first token that a state demands is one that it takes
theorem Completes.step (h : Completes e s (t :: rest)) :
    ∃ s', s.step? t = some s' ∧ Completes e s' rest := by
  obtain ⟨mode, frames⟩ := s
  cases mode with
  | value => exact h.step_value
  | property pairs => exact h.step_property
  | named pairs key =>
    cases h with
    | named hcolon h => exact ⟨_, by simp only [State.step?, hcolon, ite_true], h⟩
  | slot slots => exact h.step_slot
  | after v =>
    cases h with
    | after hrest => exact hrest.step.2
  | head name =>
    cases h with
    | name h =>
      obtain ⟨hparen, s', hstep, h⟩ := h.step_chain
      exact ⟨s', by simpa only [State.step?, hparen, ite_false] using hstep, h⟩
    | opened hopening h => exact ⟨_, by simp only [State.step?, hopening, ite_true], h⟩
  | call target =>
    cases h with
    | call hargument h => exact ⟨_, by simp only [State.step?, hargument, ite_true], h⟩
  | argument target argument =>
    cases h with
    | argument hclosing h => exact ⟨_, by simp only [State.step?, hclosing, ite_true], h⟩
  | chain access => exact h.step_chain.2
  | point access =>
    cases h with
    | point ht h => exact ⟨_, by simp only [State.step?, ht, ite_true], h⟩
  | bracket access =>
    cases h with
    | bracket hkey h =>
      exact ⟨_, by simp only [State.step?, indexKey_eq_some.mpr hkey, Option.map_some], h⟩
  | key access key =>
    cases h with
    | key hclosing h => exact ⟨_, by simp only [State.step?, hclosing, ite_true], h⟩

theorem derives_ne_nil (h : Derives (.value v) tokens) : tokens ≠ [] := by
  cases h with
  | access hstart _ => cases hstart <;> simp
  | _ => simp

theorem closes_nil : Closes e v frames [] ↔ frames = [] ∧ v = e := by
  constructor
  · intro h
    generalize htokens : [] = tokens at h
    cases h with
    | outermost => exact ⟨rfl, rfl⟩
    | array => simp at htokens
    | object => simp at htokens
  · rintro ⟨rfl, rfl⟩
    exact .outermost

theorem completes_chain_nil {access : Access} :
    Completes e ⟨.chain access, frames⟩ [] ↔ frames = [] ∧ .access access = e := by
  constructor
  · intro h
    generalize htokens : [] = tokens at h
    cases h with
    | chain hreads hrest =>
      cases hreads with
      | nil =>
        subst htokens
        simpa using closes_nil.mp hrest
      | cons hread _ => cases hread <;> simp at htokens
  · rintro ⟨rfl, rfl⟩
    exact .chain .nil (by simpa using Closes.outermost)

-- A state that demands nothing more is complete
theorem completes_nil : Completes e s [] ↔ s.complete? = some e := by
  obtain ⟨mode, frames⟩ := s
  constructor
  · intro h
    cases mode with
    | after v =>
      cases h with
      | after hrest =>
        obtain ⟨rfl, rfl⟩ := closes_nil.mp hrest
        rfl
    | head name =>
      cases h with
      | name h =>
        obtain ⟨rfl, rfl⟩ := completes_chain_nil.mp h
        rfl
    | chain access =>
      obtain ⟨rfl, rfl⟩ := completes_chain_nil.mp h
      rfl
    | value =>
      generalize htokens : [] = tokens at h
      cases h with
      | value hv _ _ => exact absurd (List.append_eq_nil_iff.mp htokens.symm).1 (derives_ne_nil hv)
    | _ =>
      generalize htokens : [] = tokens at h
      cases h
      simp at htokens
  · intro h
    cases frames with
    | nil =>
      cases mode with
      | after v =>
        obtain rfl := Option.some.inj h
        exact .after .outermost
      | head name =>
        obtain rfl := Option.some.inj h
        exact .name (completes_chain_nil.mpr ⟨rfl, rfl⟩)
      | chain access =>
        obtain rfl := Option.some.inj h
        exact completes_chain_nil.mpr ⟨rfl, rfl⟩
      | _ => simp [State.complete?] at h
    | cons frame outer => simp [State.complete?] at h

end DeclarativeOptions.Parser
