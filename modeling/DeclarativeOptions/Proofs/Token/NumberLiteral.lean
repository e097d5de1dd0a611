import DeclarativeOptions.Proofs.Token.Lookahead

namespace DeclarativeOptions

namespace NumberLiteral

open Numeral Lexeme

-- Behind the digits of a decimal numeral: nothing, or an exponent of at least one digit
inductive Exponent : List Char → Prop where
  | none : Exponent []
  | some {e : Char} {sign : Option Char} {digits : List Char} (he : e = 'e' ∨ e = 'E')
      (hsign : ∀ c ∈ sign, isSign c = true) (hne : digits ≠ [])
      (hdigits : ∀ c ∈ digits, c.isDigit = true) : Exponent (e :: (sign.toList ++ digits))

-- A decimal numeral with digits on one side of the point at least, or a hexadecimal one
inductive Unsigned : List Char → Prop where
  | decimal {whole point fraction exponent : List Char} (hwhole : ∀ c ∈ whole, c.isDigit = true)
      (hpoint : Point point fraction) (hne : whole ≠ [] ∨ fraction ≠ [])
      (hexponent : Exponent exponent) : Unsigned (whole ++ (point ++ exponent))
  | hexadecimal {x : Char} {digits : List Char} (hx : x = 'x' ∨ x = 'X') (hne : digits ≠ [])
      (hdigits : ∀ c ∈ digits, isHexDigit c = true) : Unsigned ('0' :: x :: digits)

inductive Literal : List Char → Prop where
  | mk {sign : Option Char} {text : List Char} (hsign : ∀ c ∈ sign, isSign c = true)
      (htext : Unsigned text) : Literal (sign.toList ++ text)

variable {c : Char} {text rest : List Char}

-- What the scanner takes, from the parts of a numeral to the literal

private theorem take_digitCount (text : List Char) :
    text.take (digitCount text) = text.takeWhile Char.isDigit :=
  (List.prefix_iff_eq_take.mp (List.takeWhile_prefix _)).symm

private theorem isDigit_of_mem_take : ∀ c ∈ text.take (digitCount text), c.isDigit = true := by
  intro c hc
  rw [take_digitCount] at hc
  exact List.mem_takeWhile_imp hc

private theorem take_digitCount_ne_nil (h : digitCount text ≠ 0) :
    text.take (digitCount text) ≠ [] := by
  rw [take_digitCount]
  exact List.ne_nil_of_length_pos (Nat.pos_of_ne_zero h)

private theorem exponent_take (text : List Char) : Exponent (text.take (exponentLength text)) := by
  match text with
  | [] => exact .none
  | [c] => simpa [exponentLength] using .none
  | c :: sign :: digits =>
    by_cases hc : c = 'e' ∨ c = 'E'
    · rw [exponentLength_cons hc]
      split_ifs with hsign hzero hzero
      · exact .none
      · exact @Exponent.some c (some sign) _ hc (by simpa using hsign)
          (take_digitCount_ne_nil hzero) isDigit_of_mem_take
      · exact .none
      · exact @Exponent.some c none _ hc (by simp) (take_digitCount_ne_nil hzero)
          isDigit_of_mem_take
    · simpa [exponentLength, hc] using .none

private theorem point_take (text : List Char) : ∃ fraction,
    Point (text.take (fractionLength text)) fraction ∧
      (text.head? = some '.' → startsWithDigit text.tail = true → fraction ≠ []) := by
  cases text with
  | nil => exact ⟨[], .none, by simp⟩
  | cons c rest =>
    rw [fractionLength_cons]
    by_cases hc : c = '.'
    · subst hc
      rw [if_pos rfl]
      exact ⟨_, .some isDigit_of_mem_take,
        fun _ hstarts => take_digitCount_ne_nil (startsWithDigit_iff.mp hstarts)⟩
    · rw [if_neg hc]
      exact ⟨[], .none, by simp [hc]⟩

theorem unsigned_take (h : startsUnsigned text = true) :
    Unsigned (text.take (unsignedLength text)) := by
  unfold unsignedLength
  cases hlength : hexadecimalLength? text with
  | some n =>
    obtain ⟨x, digits, rfl, hx, hne, rfl⟩ := hexadecimalLength_eq_some.mp hlength
    have hdigits : digits.take (digits.takeWhile isHexDigit).length =
        digits.takeWhile isHexDigit :=
      (List.prefix_iff_eq_take.mp (List.takeWhile_prefix _)).symm
    rw [Option.getD_some, List.take_succ_cons, List.take_succ_cons, hdigits]
    exact .hexadecimal hx (List.ne_nil_of_length_pos (Nat.pos_of_ne_zero hne))
      fun c hc => List.mem_takeWhile_imp hc
  | none =>
    obtain ⟨fraction, hpoint, hfraction⟩ := point_take (text.drop (digitCount text))
    rw [Option.getD_none, decimalLength, List.take_add, List.take_add, List.append_assoc]
    refine .decimal isDigit_of_mem_take hpoint ?_ (exponent_take _)
    -- the first character is a digit, or a point with a digit behind it
    cases text with
    | nil => simp [startsUnsigned, startsWithDigit] at h
    | cons c rest =>
      rw [startsUnsigned_cons] at h
      by_cases hc : c = '.'
      · rw [if_pos hc] at h
        have hzero : digitCount (c :: rest) = 0 := by simp [digitCount, hc]
        rw [hzero] at hfraction
        exact .inr (hfraction (by simp [hc]) h)
      · rw [if_neg hc] at h
        exact .inl (take_digitCount_ne_nil (by simp [digitCount, h]))

theorem literal_take (h : starts (c :: rest) = true) :
    Literal (c :: rest.take (NumberLiteral.length (c :: rest) - 1)) := by
  have hpos := numberLength_pos h
  have htake : c :: rest.take (NumberLiteral.length (c :: rest) - 1) =
      (c :: rest).take (NumberLiteral.length (c :: rest)) := by
    conv => rhs; rw [← Nat.sub_add_cancel hpos]
    rw [List.take_succ_cons]
  rw [htake]
  rw [starts_cons] at h
  rw [numberLength_cons]
  by_cases hsign : isSign c = true
  · rw [if_pos hsign] at h ⊢
    exact @Literal.mk (some c) _ (by simpa using hsign) (unsigned_take h)
  · rw [if_neg hsign] at h ⊢
    exact @Literal.mk none _ (by simp) (unsigned_take h)

-- How a literal is read

theorem Exponent.head (h : Exponent text) : ∀ c ∈ text.head?, c.isDigit = false ∧ c ≠ '.' := by
  intro c hc
  cases h with
  | none => simp at hc
  | some he =>
    obtain rfl := Option.some.inj hc
    obtain rfl | rfl := he <;> decide

-- In front of a numeral the sign is read, and a minus is negative
theorem takeSign_append {sign : Option Char} (hsign : ∀ c ∈ sign, isSign c = true)
    (hc : c.isDigit = true ∨ c = '.') :
    takeSign (sign.toList ++ c :: rest) = (sign == some '-', c :: rest) := by
  cases sign with
  | none => exact takeSign_of_first hc
  | some sign =>
    have hsign := hsign sign rfl
    simp only [isSign, Bool.or_eq_true, beq_iff_eq] at hsign
    obtain rfl | rfl := hsign
    · rfl
    · rfl

theorem exists_exponent (h : Exponent text) : ∃ n, exponent? text = some n := by
  cases h with
  | none => exact ⟨0, rfl⟩
  | @some e sign digits he hsign hne hdigits =>
    have hall : digits.all Char.isDigit = true := List.all_eq_true.mpr hdigits
    obtain ⟨c, more, rfl⟩ := List.exists_cons_of_ne_nil hne
    have htake : takeSign (sign.toList ++ c :: more) = (sign == some '-', c :: more) :=
      takeSign_append hsign (.inl (hdigits c (by simp)))
    simp [exponent?, he, htake, hall]

theorem Unsigned.exists_cons (h : Unsigned text) :
    ∃ c rest, text = c :: rest ∧ (c.isDigit = true ∨ c = '.') := by
  cases h with
  | @decimal whole point fraction exponent hwhole hpoint hne hexponent =>
    cases whole with
    | cons c whole => exact ⟨c, _, rfl, .inl (hwhole c (by simp))⟩
    | nil =>
      cases hpoint with
      | none => simp at hne
      | some => exact ⟨'.', _, rfl, .inr rfl⟩
  | hexadecimal => exact ⟨'0', _, rfl, .inl rfl⟩

theorem exists_hexadecimal {digits : List Char} (hne : digits ≠ [])
    (hdigits : ∀ c ∈ digits, isHexDigit c = true) :
    ∃ m, hexadecimal? digits = some (.signed false m) := by
  have hvalues : ∃ values, digits.mapM hexDigit? = some values := by
    clear hne
    induction digits with
    | nil => exact ⟨[], rfl⟩
    | cons c digits ih =>
      obtain ⟨hc, hdigits⟩ := List.forall_mem_cons.mp hdigits
      obtain ⟨value, hvalue⟩ := Option.isSome_iff_exists.mp hc
      obtain ⟨values, hvalues⟩ := ih hdigits
      exact ⟨value :: values, by simp [List.mapM_cons, hvalue, hvalues]⟩
  obtain ⟨values, hvalues⟩ := hvalues
  have hempty : digits.isEmpty = false := by simpa using hne
  simp only [hexadecimal?, hempty, hvalues, Option.map_some]
  exact ⟨_, rfl⟩

-- The second character of a decimal numeral is never the one that makes a numeral hexadecimal
theorem not_hexadecimal_of_decimal {whole point fraction exponent : List Char}
    (hwhole : ∀ c ∈ whole, c.isDigit = true) (hpoint : Point point fraction)
    (hexponent : Exponent exponent) {x : Char} (hx : x = 'x' ∨ x = 'X') (digits : List Char) :
    whole ++ (point ++ exponent) ≠ '0' :: x :: digits := by
  have hbehind : ∀ c ∈ (point ++ exponent).head?, c = '.' ∨ c = 'e' ∨ c = 'E' := by
    intro c hc
    cases hpoint with
    | some => exact .inl (Option.some.inj hc).symm
    | none =>
      cases hexponent with
      | none => simp at hc
      | some he => exact .inr (Option.some.inj hc ▸ he)
  intro heq
  match whole with
  | [] =>
    rw [List.nil_append] at heq
    have hzero := hbehind '0' (by simp [heq])
    simp at hzero
  | [c] =>
    have htail : point ++ exponent = x :: digits := (List.cons.inj heq).2
    have hsecond := hbehind x (by simp [htail])
    obtain rfl | rfl := hx <;> simp at hsecond
  | c :: d :: whole =>
    obtain ⟨rfl, -⟩ := List.cons.inj (List.cons.inj heq).2
    have hdigit := hwhole d (by simp)
    obtain rfl | rfl := hx <;> simp at hdigit

theorem exists_read (h : Literal text) :
    ∃ negative m, Number.read? text = some (.signed negative m) := by
  obtain @⟨sign, body, hsign, hbody⟩ := h
  obtain ⟨c, rest, hcons, hc⟩ := hbody.exists_cons
  have htake : takeSign (sign.toList ++ body) = (sign == some '-', body) :=
    hcons ▸ takeSign_append hsign hc
  unfold Number.read?
  rw [htake]
  generalize (sign == some '-') = negative
  cases hbody with
  | hexadecimal hx hne hdigits =>
    obtain ⟨m, hm⟩ := exists_hexadecimal hne hdigits
    obtain rfl | rfl := hx <;> exact ⟨negative, m, by simp [hm, Number.withSign_signed]⟩
  | @decimal whole point fraction exponent hwhole hpoint hne hexponent =>
    obtain ⟨n, hn⟩ := exists_exponent hexponent
    have hd := decimal_append hwhole hpoint hne hexponent.head
    rw [hn, Option.map_some, hcons] at hd
    dsimp only
    split
    · rename_i heq
      exact absurd heq (not_hexadecimal_of_decimal hwhole hpoint hexponent (.inl rfl) _)
    · rename_i heq
      exact absurd heq (not_hexadecimal_of_decimal hwhole hpoint hexponent (.inr rfl) _)
    · rw [hcons, signed_of_decimal hc hd, Option.map_some, Number.withSign_signed]
      exact ⟨negative, _, rfl⟩

end NumberLiteral

end DeclarativeOptions
