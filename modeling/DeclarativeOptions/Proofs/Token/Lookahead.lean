import DeclarativeOptions.Proofs.Token.Leading

namespace DeclarativeOptions

namespace Lexeme

open NumberLiteral

variable {c : Char} {front rest rest' text text' blanks : List Char} {f g : List Char → Nat}

-- What a text begins with, up to its first separator, another text begins with as well
def Opens (text text' : List Char) : Prop :=
  ∀ front, (∀ c ∈ front, isSeparator c = false) → front <+: text' → front <+: text

theorem Opens.refl (text : List Char) : Opens text text := fun _ _ h => h

theorem Opens.cons (h : Opens text text') (c : Char) : Opens (c :: text) (c :: text') := by
  intro front hfront hprefix
  cases front with
  | nil => exact List.nil_prefix
  | cons d front =>
    obtain ⟨rfl, htail⟩ := List.cons_prefix_cons.mp hprefix
    have hmore : front <+: text := h front (fun c hc => hfront c (List.mem_cons_of_mem _ hc)) htail
    exact List.cons_prefix_cons.mpr ⟨rfl, hmore⟩

theorem Opens.append (h : Opens text text') (front : List Char) :
    Opens (front ++ text) (front ++ text') := by
  induction front with
  | nil => exact h
  | cons c front ih => exact ih.cons c

theorem opens_separator (hc : isSeparator c = true) : Opens text (c :: rest) := by
  intro front hfront hprefix
  cases front with
  | nil => exact List.nil_prefix
  | cons d front =>
    obtain ⟨rfl, -⟩ := List.cons_prefix_cons.mp hprefix
    simp [hc] at hfront

theorem opens_separators (h : ∀ c ∈ blanks, isSeparator c = true) : Opens text blanks := by
  cases blanks with
  | nil =>
    intro front _ hprefix
    rw [List.prefix_nil.mp hprefix]
    exact List.nil_prefix
  | cons c blanks => exact opens_separator (h c (by simp))

-- Opening alike goes on behind a first character that is seen
theorem Opens.exists_cons (h : Opens text (c :: text')) (hc : isSeparator c = false) :
    ∃ more, text = c :: more ∧ Opens more text' := by
  obtain ⟨more, rfl⟩ : [c] <+: text :=
    h [c] (List.forall_mem_singleton.mpr hc) (List.cons_prefix_cons.mpr ⟨rfl, List.nil_prefix⟩)
  refine ⟨more, rfl, fun front hfront hprefix => ?_⟩
  have hboth := h (c :: front) (List.forall_mem_cons.mpr ⟨hc, hfront⟩)
    (List.cons_prefix_cons.mpr ⟨rfl, hprefix⟩)
  exact (List.cons_prefix_cons.mp hboth).2

-- A scanner that takes a part of the text, and the same part when whitespace is put in behind it
structure Steady (f : List Char → Nat) : Prop where
  le : ∀ text, f text ≤ text.length
  again : ∀ {front rest rest'}, f (front ++ rest) = front.length → Opens rest rest' →
    f (front ++ rest') = front.length

theorem steady_takeWhile {p : Char → Bool} (hp : ∀ c, p c = true → isSeparator c = false) :
    Steady fun text => (text.takeWhile p).length := by
  refine ⟨fun text => (List.takeWhile_prefix p).length_le, ?_⟩
  intro front rest rest' h hopens
  induction front with
  | nil =>
    cases rest' with
    | nil => rfl
    | cons c rest' =>
      cases hc : p c with
      | false => simp [hc]
      | true =>
        obtain ⟨more, rfl, -⟩ := hopens.exists_cons (hp c hc)
        simp [hc] at h
  | cons c front ih =>
    cases hc : p c with
    | false => simp [hc] at h
    | true =>
      simp only [List.cons_append, List.takeWhile_cons_of_pos hc, List.length_cons,
        Nat.add_right_cancel_iff] at h ⊢
      exact ih h

theorem Steady.eq_zero (hf : Steady f) (hzero : f rest = 0) (hopens : Opens rest rest') :
    f rest' = 0 :=
  @Steady.again f hf [] rest rest' hzero hopens

theorem exists_append_of_le {count : Nat} (h : count ≤ front.length) :
    ∃ first second, front = first ++ second ∧ first.length = count :=
  ⟨front.take count, front.drop count, (List.take_append_drop count front).symm,
    List.length_take_of_le h⟩

-- One scanner and behind it another one
theorem Steady.andThen (hf : Steady f) (hg : Steady g) :
    Steady fun text => f text + g (text.drop (f text)) := by
  refine ⟨fun text => ?_, ?_⟩
  · have hfirst := hf.le text
    have hsecond := hg.le (text.drop (f text))
    rw [List.length_drop] at hsecond
    omega
  intro front rest rest' h hopens
  have hle : f (front ++ rest) ≤ front.length := by omega
  obtain ⟨first, second, rfl, hlength⟩ := exists_append_of_le hle
  have hfirst := hlength.symm
  rw [List.append_assoc] at hfirst h ⊢
  have hsecond : g (second ++ rest) = second.length := by
    rw [hfirst, List.drop_left, List.length_append] at h
    omega
  have hfirst' := hf.again hfirst (hopens.append second)
  have hsecond' := hg.again hsecond hopens
  simp only [hfirst', List.drop_left, hsecond', List.length_append]

-- The characters of the notation itself are no whitespace
theorem isSeparator_of_between {low high : Char} (hlow : low ≤ c) (hhigh : c ≤ high)
    (hrange : 0x20 < low.toNat ∧ high.toNat < 0x85) : isSeparator c = false := by
  have hbetween : 0x20 < c.toNat ∧ c.toNat < 0x85 :=
    ⟨Nat.lt_of_lt_of_le hrange.1 hlow, Nat.lt_of_le_of_lt hhigh hrange.2⟩
  cases h : isSeparator c with
  | false => rfl
  | true =>
    cases (Bool.or_eq_true _ _).mp h with
    | inl hwhitespace =>
      obtain ⟨range, hmem, hrange⟩ := Text.Ranges.exists_of_contains hwhitespace
      simp only [List.mem_cons, List.not_mem_nil, or_false] at hmem
      obtain rfl | rfl | rfl | rfl | rfl | rfl | rfl | rfl | rfl | rfl := hmem <;> omega
    | inr hmark =>
      obtain rfl := eq_of_beq hmark
      exact absurd hbetween.2 (by decide)

theorem isSeparator_of_isDigit (h : c.isDigit = true) : isSeparator c = false :=
  (not_first_of_isDigit h).2.1

theorem isSeparator_of_isHexDigit (h : isHexDigit c = true) : isSeparator c = false := by
  unfold isHexDigit hexDigit? at h
  split_ifs at h with hdigit hlower hupper
  · exact isSeparator_of_between hdigit.1 hdigit.2 (by decide)
  · exact isSeparator_of_between hlower.1 hlower.2 (by decide)
  · exact isSeparator_of_between hupper.1 hupper.2 (by decide)
  · simp at h

theorem isSeparator_of_isSign (h : isSign c = true) : isSeparator c = false := by
  simp only [isSign, Bool.or_eq_true, beq_iff_eq] at h
  obtain rfl | rfl := h <;> decide

-- Numbers, from the parts of a decimal numeral to a signed literal

theorem steady_digitCount : Steady digitCount :=
  steady_takeWhile fun _ => isSeparator_of_isDigit

theorem startsWithDigit_iff : startsWithDigit text = true ↔ digitCount text ≠ 0 := by
  cases text with
  | nil => simp [startsWithDigit, digitCount]
  | cons c text => cases hc : c.isDigit <;> simp [startsWithDigit, digitCount, hc]

private theorem digitCount_of_opens (h : Opens text text') (hcount : digitCount text = 0) :
    digitCount text' = 0 :=
  steady_digitCount.eq_zero hcount h

theorem fractionLength_cons (c : Char) (text : List Char) :
    fractionLength (c :: text) = if c = '.' then digitCount text + 1 else 0 := by
  by_cases hc : c = '.'
  · subst hc
    rfl
  · rw [if_neg hc]
    unfold fractionLength
    split
    · rename_i heq
      exact absurd (List.cons.inj heq).1 hc
    · rfl

theorem steady_fractionLength : Steady fractionLength := by
  refine ⟨fun text => ?_, ?_⟩
  · cases text with
    | nil => exact Nat.le_refl 0
    | cons c text =>
      have hcount := steady_digitCount.le text
      rw [fractionLength_cons, List.length_cons]
      split_ifs <;> omega
  intro front rest rest' h hopens
  cases front with
  | nil =>
    cases rest' with
    | nil => rfl
    | cons c rest' =>
      rw [List.nil_append, fractionLength_cons]
      by_cases hc : c = '.'
      · obtain ⟨more, rfl, -⟩ := hopens.exists_cons (hc ▸ by decide)
        simp [fractionLength_cons, hc] at h
      · rw [if_neg hc, List.length_nil]
  | cons c front =>
    rw [List.cons_append, fractionLength_cons, List.length_cons] at h ⊢
    by_cases hc : c = '.'
    · rw [if_pos hc] at h ⊢
      have hcount : digitCount (front ++ rest) = front.length := by omega
      rw [steady_digitCount.again hcount hopens]
    · rw [if_neg hc] at h
      omega

theorem exponentLength_cons {sign : Char} (hc : c = 'e' ∨ c = 'E') :
    exponentLength (c :: sign :: text) =
      if isSign sign then if digitCount text = 0 then 0 else digitCount text + 2
      else if digitCount (sign :: text) = 0 then 0 else digitCount (sign :: text) + 1 := by
  have hplain : startsWithDigit text = true ↔ ¬digitCount text = 0 := startsWithDigit_iff
  have hsigned : startsWithDigit (sign :: text) = true ↔ ¬digitCount (sign :: text) = 0 :=
    startsWithDigit_iff
  simp only [exponentLength, if_pos hc, hplain, hsigned, ite_not]

private theorem digitCount_of_isSign (h : isSign c = true) : digitCount (c :: text) = 0 := by
  cases hdigit : c.isDigit with
  | false => simp [digitCount, hdigit]
  | true => simp [isSign_of_isDigit hdigit] at h

-- An exponent is seen as a whole, up to its first digit, or there is none
private theorem exponentLength_of_opens (h : Opens text text') (hlength : exponentLength text = 0) :
    exponentLength text' = 0 := by
  cases text' with
  | nil => rfl
  | cons c text' =>
    by_cases hc : c = 'e' ∨ c = 'E'
    · have hseparator : isSeparator c = false := by obtain rfl | rfl := hc <;> decide
      obtain ⟨more, rfl, hmore⟩ := h.exists_cons hseparator
      cases text' with
      | nil => simp [exponentLength]
      | cons sign text' =>
        rw [exponentLength_cons hc]
        by_cases hsign : isSign sign = true
        · obtain ⟨digits, rfl, hdigits⟩ := hmore.exists_cons (isSeparator_of_isSign hsign)
          rw [exponentLength_cons hc, if_pos hsign] at hlength
          have hcount : digitCount digits = 0 := by split_ifs at hlength; assumption
          rw [if_pos hsign, if_pos (digitCount_of_opens hdigits hcount)]
        · have hcount : digitCount more = 0 := by
            cases more with
            | nil => rfl
            | cons d more =>
              rw [exponentLength_cons hc] at hlength
              split_ifs at hlength with hd hplus hdigits
              · exact digitCount_of_isSign hd
              · exact hdigits
          rw [if_neg hsign, if_pos (digitCount_of_opens hmore hcount)]
    · simp [exponentLength, hc]

theorem exponentLength_le (text : List Char) : exponentLength text ≤ text.length := by
  cases text with
  | nil => exact Nat.le_refl 0
  | cons c text =>
    by_cases hc : c = 'e' ∨ c = 'E'
    · cases text with
      | nil => simp [exponentLength]
      | cons sign text =>
        have hcount := steady_digitCount.le text
        have hcount' := steady_digitCount.le (sign :: text)
        rw [exponentLength_cons hc]
        simp only [List.length_cons] at hcount' ⊢
        split_ifs <;> omega
    · simp [exponentLength, hc]

theorem steady_exponentLength : Steady exponentLength := by
  refine ⟨exponentLength_le, ?_⟩
  intro front rest rest' h hopens
  cases front with
  | nil => exact exponentLength_of_opens hopens h
  | cons c front =>
    by_cases hc : c = 'e' ∨ c = 'E'
    · cases front with
      | nil =>
        cases rest with
        | nil => simp [exponentLength] at h
        | cons sign rest =>
          rw [List.singleton_append, exponentLength_cons hc, List.length_singleton] at h
          split_ifs at h <;> omega
      | cons sign front =>
        simp only [List.cons_append, exponentLength_cons hc, List.length_cons] at h ⊢
        by_cases hsign : isSign sign = true
        · rw [if_pos hsign] at h ⊢
          have hcount : digitCount (front ++ rest) = front.length := by split_ifs at h; omega
          rw [hcount] at h
          rwa [steady_digitCount.again hcount hopens]
        · rw [if_neg hsign] at h ⊢
          have hcount : digitCount (sign :: front ++ rest) = (sign :: front).length := by
            rw [List.cons_append, List.length_cons]
            split_ifs at h
            omega
          have hcount' := steady_digitCount.again hcount hopens
          rw [List.cons_append, List.length_cons] at hcount'
          rw [hcount', if_neg (by omega)]
    · simp [exponentLength, hc] at h

theorem steady_decimalLength : Steady decimalLength :=
  (steady_digitCount.andThen steady_fractionLength).andThen steady_exponentLength

theorem steady_hexDigits : Steady fun text => (text.takeWhile isHexDigit).length :=
  steady_takeWhile fun _ => isSeparator_of_isHexDigit

theorem hexadecimalLength_eq_some {n : Nat} : hexadecimalLength? text = some n ↔
    ∃ x digits, text = '0' :: x :: digits ∧ (x = 'x' ∨ x = 'X') ∧
      (digits.takeWhile isHexDigit).length ≠ 0 ∧
      n = (digits.takeWhile isHexDigit).length + 2 := by
  constructor
  · intro h
    unfold hexadecimalLength? at h
    split at h
    · rename_i x digits
      dsimp only at h
      split_ifs at h with hx
      exact ⟨x, digits, rfl, hx.1, hx.2, (Option.some.inj h).symm⟩
    · simp at h
  · rintro ⟨x, digits, rfl, hx, hne, rfl⟩
    simp only [hexadecimalLength?]
    rw [if_pos ⟨hx, hne⟩]

theorem hexadecimalLength_steady (h : hexadecimalLength? (front ++ rest) = some front.length)
    (hopens : Opens rest rest') : hexadecimalLength? (front ++ rest') = some front.length := by
  obtain ⟨x, digits, htext, hx, hne, hlength⟩ := hexadecimalLength_eq_some.mp h
  obtain ⟨first, second, more, rfl⟩ : ∃ first second more, front = first :: second :: more := by
    match front, hlength with
    | first :: second :: more, _ => exact ⟨first, second, more, rfl⟩
  simp only [List.cons_append, List.cons.injEq] at htext
  obtain ⟨rfl, rfl, rfl⟩ := htext
  have hcount : ((more ++ rest).takeWhile isHexDigit).length = more.length := by
    simpa using hlength.symm
  have hcount' := steady_hexDigits.again hcount hopens
  refine hexadecimalLength_eq_some.mpr ⟨second, more ++ rest', rfl, hx, ?_, ?_⟩
  · rwa [hcount', ← hcount]
  · simpa using hcount'.symm

private theorem hexadecimalLength_of_opens (h : Opens text text')
    (hlength : hexadecimalLength? text = none) : hexadecimalLength? text' = none := by
  cases hlength' : hexadecimalLength? text' with
  | none => rfl
  | some n =>
    obtain ⟨x, digits', rfl, hx, hne, -⟩ := hexadecimalLength_eq_some.mp hlength'
    obtain ⟨more, rfl, hmore⟩ := h.exists_cons (by decide)
    have hseparator : isSeparator x = false := by obtain rfl | rfl := hx <;> decide
    obtain ⟨digits, rfl, hdigits⟩ := hmore.exists_cons hseparator
    have hcount : (digits.takeWhile isHexDigit).length ≠ 0 :=
      fun hzero => hne (steady_hexDigits.eq_zero hzero hdigits)
    have hsome : hexadecimalLength? ('0' :: x :: digits) = some _ :=
      hexadecimalLength_eq_some.mpr ⟨x, digits, rfl, hx, hcount, rfl⟩
    simp [hlength] at hsome

theorem unsignedLength_le (text : List Char) : unsignedLength text ≤ text.length := by
  unfold unsignedLength
  cases hlength : hexadecimalLength? text with
  | some n =>
    obtain ⟨x, digits, rfl, -, -, rfl⟩ := hexadecimalLength_eq_some.mp hlength
    have hdigits := steady_hexDigits.le digits
    simp only [Option.getD_some, List.length_cons] at hdigits ⊢
    omega
  | none => exact steady_decimalLength.le text

theorem steady_unsignedLength : Steady unsignedLength := by
  refine ⟨unsignedLength_le, ?_⟩
  intro front rest rest' h hopens
  unfold unsignedLength at h ⊢
  cases hlength : hexadecimalLength? (front ++ rest) with
  | some n =>
    rw [hlength, Option.getD_some] at h
    rw [hexadecimalLength_steady (h ▸ hlength) hopens, Option.getD_some]
  | none =>
    rw [hlength, Option.getD_none] at h
    rw [hexadecimalLength_of_opens (hopens.append front) hlength, Option.getD_none]
    exact steady_decimalLength.again h hopens

theorem startsUnsigned_cons (c : Char) (text : List Char) : startsUnsigned (c :: text) =
    if c = '.' then startsWithDigit text else c.isDigit := by
  by_cases hc : c = '.'
  · subst hc
    rfl
  · rw [if_neg hc]
    unfold startsUnsigned
    split
    · rename_i heq
      exact absurd (List.cons.inj heq).1 hc
    · rfl

-- What begins a numeral is a part of it
theorem le_unsignedLength (h : startsUnsigned (c :: text) = true) :
    (if c = '.' then 2 else 1) ≤ unsignedLength (c :: text) := by
  rw [startsUnsigned_cons] at h
  unfold unsignedLength
  cases hlength : hexadecimalLength? (c :: text) with
  | some n =>
    obtain ⟨_, _, -, -, -, rfl⟩ := hexadecimalLength_eq_some.mp hlength
    rw [Option.getD_some]
    split_ifs <;> omega
  | none =>
    rw [Option.getD_none, decimalLength]
    by_cases hc : c = '.'
    · rw [if_pos hc, startsWithDigit_iff] at h
      have hcount : digitCount (c :: text) = 0 := by simp [digitCount, hc]
      rw [if_pos hc, hcount, List.drop_zero, fractionLength_cons, if_pos hc]
      omega
    · rw [if_neg hc] at h
      have hcount : digitCount (c :: text) = digitCount text + 1 := by simp [digitCount, h]
      rw [if_neg hc, hcount]
      omega

theorem startsUnsigned_steady (h : startsUnsigned (front ++ rest) = true)
    (hlength : unsignedLength (front ++ rest) = front.length) :
    startsUnsigned (front ++ rest') = true := by
  cases front with
  | nil =>
    cases rest with
    | nil => simp [startsUnsigned, startsWithDigit] at h
    | cons c rest =>
      have hle := le_unsignedLength h
      rw [List.nil_append] at hlength
      rw [hlength] at hle
      split_ifs at hle <;> simp at hle
  | cons c front =>
    rw [List.cons_append] at h hlength
    have hle := le_unsignedLength h
    rw [hlength, List.length_cons] at hle
    rw [startsUnsigned_cons] at h
    rw [List.cons_append, startsUnsigned_cons]
    by_cases hc : c = '.'
    · rw [if_pos hc] at h hle ⊢
      cases front with
      | nil => simp at hle
      | cons d front => exact h
    · rw [if_neg hc] at h ⊢
      exact h

theorem isSeparator_of_startsUnsigned (h : startsUnsigned (c :: text) = true) :
    isSeparator c = false := by
  rw [startsUnsigned_cons] at h
  by_cases hc : c = '.'
  · subst hc
    decide
  · rw [if_neg hc] at h
    exact isSeparator_of_isDigit h

theorem startsUnsigned_of_opens (h : Opens text text') (hstarts : startsUnsigned text' = true) :
    startsUnsigned text = true := by
  cases text' with
  | nil => simp [startsUnsigned, startsWithDigit] at hstarts
  | cons c text' =>
    obtain ⟨more, rfl, hmore⟩ := h.exists_cons (isSeparator_of_startsUnsigned hstarts)
    rw [startsUnsigned_cons] at hstarts ⊢
    by_cases hc : c = '.'
    · rw [if_pos hc, startsWithDigit_iff] at hstarts ⊢
      exact fun hcount => hstarts (digitCount_of_opens hmore hcount)
    · rwa [if_neg hc] at hstarts ⊢

theorem starts_cons (c : Char) (text : List Char) : starts (c :: text) =
    if isSign c then startsUnsigned text else startsUnsigned (c :: text) := rfl

theorem starts_of_opens (h : Opens text text') (hstarts : starts text' = true) :
    starts text = true := by
  cases text' with
  | nil => simp [starts] at hstarts
  | cons c text' =>
    rw [starts_cons] at hstarts
    by_cases hsign : isSign c = true
    · rw [if_pos hsign] at hstarts
      obtain ⟨more, rfl, hmore⟩ := h.exists_cons (isSeparator_of_isSign hsign)
      rw [starts_cons, if_pos hsign, startsUnsigned_of_opens hmore hstarts]
    · rw [if_neg hsign] at hstarts
      have hunsigned := startsUnsigned_of_opens h hstarts
      obtain ⟨more, rfl, -⟩ := h.exists_cons (isSeparator_of_startsUnsigned hstarts)
      rw [starts_cons, if_neg hsign, hunsigned]

theorem numberLength_cons (c : Char) (text : List Char) : NumberLiteral.length (c :: text) =
    if isSign c then unsignedLength text + 1 else unsignedLength (c :: text) := rfl

theorem numberLength_le (c : Char) (text : List Char) :
    NumberLiteral.length (c :: text) ≤ text.length + 1 := by
  have hsigned := unsignedLength_le text
  have hplain := unsignedLength_le (c :: text)
  rw [List.length_cons] at hplain
  rw [numberLength_cons]
  split_ifs <;> omega

theorem numberLength_pos (h : starts (c :: text) = true) :
    0 < NumberLiteral.length (c :: text) := by
  rw [starts_cons] at h
  rw [numberLength_cons]
  by_cases hsign : isSign c = true
  · rw [if_pos hsign]
    exact Nat.succ_pos _
  · rw [if_neg hsign] at h ⊢
    have hle := le_unsignedLength h
    split_ifs at hle <;> omega

theorem number_steady (h : starts (c :: (front ++ rest)) = true)
    (hlength : NumberLiteral.length (c :: (front ++ rest)) = front.length + 1)
    (hopens : Opens rest rest') : starts (c :: (front ++ rest')) = true ∧
      NumberLiteral.length (c :: (front ++ rest')) = front.length + 1 := by
  rw [starts_cons] at h ⊢
  rw [numberLength_cons] at hlength ⊢
  by_cases hsign : isSign c = true
  · simp only [if_pos hsign, Nat.add_right_cancel_iff] at h hlength ⊢
    exact ⟨startsUnsigned_steady h hlength, steady_unsignedLength.again hlength hopens⟩
  · simp only [if_neg hsign, ← List.cons_append] at h hlength ⊢
    rw [← List.length_cons (a := c)] at hlength ⊢
    exact ⟨startsUnsigned_steady h hlength, steady_unsignedLength.again hlength hopens⟩

end Lexeme

end DeclarativeOptions
