import DeclarativeOptions.Proofs.Text.Longest
import DeclarativeOptions.Proofs.Text.Units
import DeclarativeOptions.Proofs.Token.NumberLiteral

namespace DeclarativeOptions

namespace NumberLiteral

open Numeral Lexeme

variable {c : Char} {digits literal text rest : List Char}

-- What the scanners take is not less than any literal that stands there, from the parts of a numeral
-- to the literal

theorem le_digitCount (hdigits : ∀ c ∈ digits, c.isDigit = true) (rest : List Char) :
    digits.length ≤ digitCount (digits ++ rest) := by
  rw [digitCount, List.takeWhile_append_of_pos hdigits, List.length_append]
  exact Nat.le_add_right _ _

private theorem le_fractionLength {point fraction : List Char} (h : Point point fraction)
    (rest : List Char) : point.length ≤ fractionLength (point ++ rest) := by
  cases h with
  | none => exact Nat.zero_le _
  | some hdigits =>
    rw [List.cons_append, fractionLength_cons, if_pos rfl]
    exact Nat.succ_le_succ (le_digitCount hdigits rest)

private theorem le_exponentLength {exponent : List Char} (h : Exponent exponent)
    (rest : List Char) : exponent.length ≤ exponentLength (exponent ++ rest) := by
  cases h with
  | none => exact Nat.zero_le _
  | @some e sign digits he hsign hne hdigits =>
    have hle := le_digitCount hdigits rest
    have hpos := List.length_pos_of_ne_nil hne
    cases sign with
    | some sign =>
      have hsome : isSign sign = true := hsign sign rfl
      simp only [Option.toList_some, List.cons_append, List.nil_append, exponentLength_cons he,
        if_pos hsome, List.length_cons]
      rw [if_neg (by omega)]
      omega
    | none =>
      obtain ⟨c, more, rfl⟩ := List.exists_cons_of_ne_nil hne
      have hnone : ¬isSign c = true := by
        simp [isSign_of_isDigit (hdigits c (List.mem_cons_self ..))]
      simp only [Option.toList_none, List.nil_append, List.cons_append] at hle ⊢
      rw [exponentLength_cons he, if_neg hnone, if_neg (by omega), List.length_cons]
      exact Nat.succ_le_succ hle

theorem decimalLength_of_whole {whole : List Char} (hwhole : ∀ c ∈ whole, c.isDigit = true)
    (hrest : ∀ c ∈ rest.head?, c.isDigit = false) :
    decimalLength (whole ++ rest) =
      whole.length + (fractionLength rest + exponentLength (rest.drop (fractionLength rest))) := by
  have hdrop : (whole ++ rest).drop whole.length = rest := List.drop_left
  simp only [decimalLength, digitCount_append hwhole hrest, hdrop, ← List.drop_drop, Nat.add_assoc]

-- A part with another one behind it ends where that one begins, so only the last part can go on in
-- what follows
private theorem le_decimalLength {whole point fraction exponent : List Char}
    (hwhole : ∀ c ∈ whole, c.isDigit = true) (hpoint : Point point fraction)
    (hexponent : Exponent exponent) (rest : List Char) :
    (whole ++ (point ++ exponent)).length ≤
      decimalLength (whole ++ (point ++ (exponent ++ rest))) := by
  simp only [List.length_append]
  by_cases hnone : exponent = []
  · subst hnone
    cases hpoint with
    | none =>
      have hle := le_digitCount hwhole rest
      exact hle.trans (Nat.le_trans (Nat.le_add_right _ _) (Nat.le_add_right _ _))
    | some hdigits =>
      have hle := le_fractionLength (.some hdigits) rest
      rw [List.nil_append, decimalLength_of_whole hwhole (by simp)]
      simp only [List.length_nil]
      omega
  · have hhead : ∀ c ∈ (exponent ++ rest).head?, c.isDigit = false ∧ c ≠ '.' := by
      intro c hc
      rw [List.head?_append_of_ne_nil _ hnone] at hc
      exact hexponent.head c hc
    have hbehind : ∀ c ∈ (point ++ (exponent ++ rest)).head?, c.isDigit = false := by
      intro c hc
      cases hpoint with
      | none => exact (hhead c hc).1
      | some =>
        obtain rfl := Option.some.inj hc
        rfl
    have hle := le_exponentLength hexponent rest
    rw [decimalLength_of_whole hwhole hbehind, fractionLength_append hpoint hhead, List.drop_left]
    omega

private theorem le_unsignedLength_append (h : Unsigned literal) (rest : List Char) :
    literal.length ≤ unsignedLength (literal ++ rest) := by
  unfold unsignedLength
  cases h with
  | @hexadecimal x digits hx hne hdigits =>
    have htake : (digits ++ rest).takeWhile isHexDigit = digits ++ rest.takeWhile isHexDigit :=
      List.takeWhile_append_of_pos hdigits
    have hlength := congrArg List.length htake
    rw [List.length_append] at hlength
    have hpos := List.length_pos_of_ne_nil hne
    rw [List.cons_append, List.cons_append,
      hexadecimalLength_eq_some.mpr ⟨x, digits ++ rest, rfl, hx, by omega, rfl⟩]
    simp only [Option.getD_some, List.length_cons]
    omega
  | @decimal whole point fraction exponent hwhole hpoint hne hexponent =>
    cases hlength : hexadecimalLength? (whole ++ (point ++ exponent) ++ rest) with
    | none =>
      rw [Option.getD_none, List.append_assoc, List.append_assoc]
      exact le_decimalLength hwhole hpoint hexponent rest
    | some n =>
      -- of what is a hexadecimal numeral no more than the zero is a decimal one
      obtain ⟨x, digits, htext, hx, -, rfl⟩ := hexadecimalLength_eq_some.mp hlength
      have hnot := not_hexadecimal_of_decimal hwhole hpoint hexponent hx
      rw [Option.getD_some]
      generalize whole ++ (point ++ exponent) = literal at htext hnot ⊢
      match literal with
      | [] => exact Nat.zero_le _
      | [c] => exact Nat.succ_le_succ (Nat.zero_le _)
      | c :: d :: more =>
        simp only [List.cons_append, List.cons.injEq] at htext
        obtain ⟨rfl, rfl, -⟩ := htext
        exact absurd rfl (hnot more)

private theorem startsUnsigned_append (h : Unsigned literal) (rest : List Char) :
    startsUnsigned (literal ++ rest) = true := by
  cases h with
  | hexadecimal => rfl
  | @decimal whole point fraction exponent hwhole hpoint hne hexponent =>
    cases whole with
    | cons c whole =>
      exact startsUnsigned_of_isDigit (hwhole c (List.mem_cons_self ..)) _
    | nil =>
      cases hpoint with
      | none => simp at hne
      | some hdigits =>
        obtain ⟨c, more, rfl⟩ := List.exists_cons_of_ne_nil (hne.resolve_left (by simp))
        exact hdigits c (by simp)

-- A numeral does not begin with a sign
theorem Unsigned.signless (h : Unsigned literal) (rest : List Char) :
    starts (literal ++ rest) = startsUnsigned (literal ++ rest) ∧
      NumberLiteral.length (literal ++ rest) = unsignedLength (literal ++ rest) := by
  obtain ⟨c, more, rfl, hc⟩ := h.exists_cons
  have hsign : ¬isSign c = true := by
    obtain hc | rfl := hc
    · simp [isSign_of_isDigit hc]
    · decide
  rw [List.cons_append, starts_cons, numberLength_cons, if_neg hsign, if_neg hsign]
  exact ⟨rfl, rfl⟩

theorem starts_append (h : Literal literal) (rest : List Char) :
    starts (literal ++ rest) = true := by
  obtain @⟨sign, text, hsign, htext⟩ := h
  have hstarts := startsUnsigned_append htext rest
  cases sign with
  | none => rw [Option.toList_none, List.nil_append, (htext.signless rest).1, hstarts]
  | some sign =>
    have hsome : isSign sign = true := hsign sign rfl
    rw [Option.toList_some, List.singleton_append, List.cons_append, starts_cons, if_pos hsome,
      hstarts]

theorem le_numberLength (h : Literal literal) (rest : List Char) :
    literal.length ≤ NumberLiteral.length (literal ++ rest) := by
  obtain @⟨sign, text, hsign, htext⟩ := h
  have hle := le_unsignedLength_append htext rest
  cases sign with
  | none => rwa [Option.toList_none, List.nil_append, (htext.signless rest).2]
  | some sign =>
    have hsome : isSign sign = true := hsign sign rfl
    rw [Option.toList_some, List.singleton_append, List.cons_append, numberLength_cons,
      if_pos hsome]
    exact Nat.succ_le_succ hle

theorem longest_take (h : starts (c :: rest) = true) :
    Text.Longest Literal (c :: rest.take (NumberLiteral.length (c :: rest) - 1)) (c :: rest) := by
  refine ⟨literal_take h, List.cons_prefix_cons.mpr ⟨rfl, List.take_prefix _ _⟩, ?_⟩
  rintro other hother ⟨more, hmore⟩
  have hle := le_numberLength hother more
  have hlength := numberLength_le c rest
  rw [hmore] at hle
  rw [List.length_cons, List.length_take]
  omega

end NumberLiteral

namespace Lexeme

open NumberLiteral

variable {c : Char}

-- The characters that may begin a number begin a number or stand alone
theorem first_number (hc : c.isDigit = true ∨ c = '.' ∨ c = '+' ∨ c = '-') (rest : List Char) :
    first c rest =
      if starts (c :: rest) then
        spelled .numberLiteral c rest (NumberLiteral.length (c :: rest) - 1)
      else spelled (if c = '.' then .dot else .error) c rest 0 := by
  obtain hdigit | rfl | rfl | rfl := hc
  · obtain ⟨-, hseparator, hpunctuation, hsign⟩ := not_first_of_isDigit hdigit
    have hstarts : starts (c :: rest) = true := by
      rw [starts_cons, hsign, if_neg Bool.false_ne_true, startsUnsigned_of_isDigit hdigit]
    simp [first, hseparator, hpunctuation, hstarts]
  · rfl
  · rfl
  · rfl

end Lexeme

namespace Token

open Lexeme NumberLiteral

-- A number token is the longest literal of the grammar that the text begins with. Where there is
-- none, a point is a token of its own, and a sign is in error.
theorem scan_longest_number (offset : Nat) (c : Char) (rest : List Char)
    (hc : c.isDigit = true ∨ c = '.' ∨ c = '+' ∨ c = '-') :
    ((∃ front, front <+: c :: rest ∧ Literal front) →
      ∃ literal after, c :: rest = literal ++ after ∧ Text.Longest Literal literal (c :: rest) ∧
        scanFrom offset (c :: rest) = ⟨.numberLiteral, String.ofList literal, offset⟩ ::
          scanFrom (offset + Text.unitCount literal) after) ∧
    ((∀ front, front <+: c :: rest → ¬Literal front) →
      scanFrom offset (c :: rest) =
        ⟨if c = '.' then .dot else .error, String.ofList [c], offset⟩ ::
          scanFrom (offset + 1) rest) := by
  refine ⟨?_, fun hnone => ?_⟩
  · rintro ⟨front, ⟨more, hmore⟩, hfront⟩
    have hstarts : starts (c :: rest) = true := hmore ▸ starts_append hfront more
    have hfirst := first_number hc rest
    rw [if_pos hstarts] at hfirst
    refine ⟨_, rest.drop (NumberLiteral.length (c :: rest) - 1), ?_, longest_take hstarts,
      scanFrom_spelled offset hfirst⟩
    rw [List.cons_append, List.take_append_drop]
  · have hstarts : ¬starts (c :: rest) = true := fun hstarts =>
      hnone _ (longest_take hstarts).begins (longest_take hstarts).holds
    have hfirst := first_number hc rest
    rw [if_neg hstarts] at hfirst
    have hsmall : c.toNat < 0x10000 := by
      obtain hdigit | rfl | rfl | rfl := hc
      · exact Nat.lt_of_le_of_lt (Char.isDigit_iff_toNat.mp hdigit).2 (by decide)
      all_goals decide
    have hunits : Text.unitCount [c] = 1 := by
      simp [Text.unitCount, Text.units, Text.charUnits, hsmall]
    rw [scanFrom_spelled offset hfirst, List.take_zero, List.drop_zero, hunits]

-- Without a digit behind it the `x` is not a part of the number, and neither is the point behind a
-- sign
theorem scan_longest_number_bare_prefix :
    (∃ front, front <+: ['0', 'x', 'g'] ∧ Literal front) ∧
    scanFrom 0 ['0', 'x', 'g'] = ⟨.numberLiteral, "0", 0⟩ :: scanFrom 1 ['x', 'g'] ∧
    (∀ front, front <+: ['-', '.'] → ¬Literal front) ∧
    scanFrom 0 ['-', '.'] = ⟨.error, "-", 0⟩ :: scanFrom 1 ['.'] := by
  have hsome : ∃ front, front <+: ['0', 'x', 'g'] ∧ Literal front :=
    ⟨['0'], ⟨['x', 'g'], rfl⟩, literal_take (show starts ['0', 'x', 'g'] = true from rfl)⟩
  have hnone : ∀ front, front <+: ['-', '.'] → ¬Literal front := by
    rintro front ⟨more, hmore⟩ hfront
    have hstarts := starts_append hfront more
    rw [hmore] at hstarts
    exact absurd hstarts (by decide)
  obtain ⟨literal, after, htext, hlongest, hscan⟩ :=
    (scan_longest_number 0 '0' ['x', 'g'] (.inl rfl)).1 hsome
  have hzero : Text.Longest Literal ['0'] ['0', 'x', 'g'] := @longest_take '0' ['x', 'g'] rfl
  obtain rfl := hlongest.unique hzero
  obtain rfl := (List.cons.inj htext).2
  exact ⟨hsome, hscan, hnone, (scan_longest_number 0 '-' ['.'] (.inr (.inr (.inr rfl)))).2 hnone⟩

end Token

end DeclarativeOptions
