import DeclarativeOptions.Proofs.Number.RoundTrip
import DeclarativeOptions.Proofs.Token.Quoted
import DeclarativeOptions.Token.Scan

namespace DeclarativeOptions

namespace Text.Ranges

theorem exists_of_contains {ranges : Ranges} {point : Nat} (h : ranges.contains point = true) :
    ∃ range ∈ ranges, range.1 ≤ point ∧ point ≤ range.2 := by
  induction ranges with
  | nil => simp [contains] at h
  | cons range rest ih =>
    simp only [contains] at h
    split_ifs at h with hlow hhigh
    · exact ⟨range, by simp, by omega, hhigh⟩
    · obtain ⟨found, hmem, hfound⟩ := ih h
      exact ⟨found, List.mem_cons_of_mem _ hmem, hfound⟩

-- Two tables have no point in common if no point of the first one is in the second one
theorem contains_disjoint {ranges others : Ranges} {point : Nat}
    (hdisjoint : ∀ range ∈ ranges, ∀ point ∈ List.range' range.1 (range.2 + 1 - range.1),
      others.contains point = false)
    (h : ranges.contains point = true) : others.contains point = false := by
  obtain ⟨range, hmem, hlow, hhigh⟩ := exists_of_contains h
  refine hdisjoint range hmem point ?_
  rw [List.mem_range'_1]
  omega

end Text.Ranges

namespace Lexeme

open Numeral NumberLiteral

variable {c : Char} {kind : TokenKind} {text chars rest : List Char} {d : Decimal}

-- Characters in front of a text that are one token of it, with the kind and text of the token
def Leads (kind : TokenKind) (text chars rest : List Char) : Prop :=
  ∃ c more, chars = c :: more ∧ first c (more ++ rest) = ⟨kind, text, more.length⟩

-- The characters that may follow a number or a name without becoming a part of it
def stops : List Char := [',', ']', '}', ':', '\n']

def Stops (rest : List Char) : Prop := ∀ c ∈ rest.head?, c ∈ stops

-- What follows is no part of a name
def Ends (rest : List Char) : Prop := ∀ c ∈ rest.head?, c ≠ '\\' ∧ Name.isPart c = false

theorem Stops.ends (h : Stops rest) : Ends rest := by
  have hall : stops.all (fun c => c != '\\' && !Name.isPart c) = true := by decide
  intro c hc
  simpa using List.all_eq_true.mp hall c (h c hc)

theorem stops_cons (hc : c ∈ stops) : Stops (c :: rest) := by
  intro d hd
  obtain rfl := Option.some.inj hd
  exact hc

theorem ends_cons (hc : c ≠ '\\' ∧ Name.isPart c = false) : Ends (c :: rest) := by
  intro d hd
  obtain rfl := Option.some.inj hd
  exact hc

private theorem mem_digits_of_isDigit (h : c.isDigit = true) : c ∈ "0123456789".toList := by
  obtain ⟨hlow, hhigh⟩ := Char.isDigit_iff_toNat.mp h
  have hall : ∀ n ∈ List.range' 48 10, Char.ofNat n ∈ "0123456789".toList := by decide
  have hmem : c.toNat ∈ List.range' 48 10 := by
    rw [List.mem_range'_1]
    exact ⟨hlow, Nat.lt_succ_of_le hhigh⟩
  simpa using hall c.toNat hmem

-- Digits begin nothing but numbers
theorem not_first_of_isDigit (h : c.isDigit = true) : Name.isStart c = false ∧
    isSeparator c = false ∧ punctuation? c = none ∧ isSign c = false := by
  have hall : "0123456789".toList.all (fun c => !Name.isStart c && !isSeparator c &&
    (punctuation? c).isNone && !isSign c) = true := by decide
  simpa [and_assoc] using List.all_eq_true.mp hall c (mem_digits_of_isDigit h)

theorem isSign_of_isDigit (h : c.isDigit = true) : isSign c = false :=
  (not_first_of_isDigit h).2.2.2

theorem startsUnsigned_of_isDigit (h : c.isDigit = true) (rest : List Char) :
    startsUnsigned (c :: rest) = true := by
  have hpoint : c ≠ '.' := by
    rintro rfl
    simp at h
  unfold startsUnsigned
  split
  · rename_i heq
    exact absurd (List.cons.inj heq).1 hpoint
  · simpa [startsWithDigit] using h

-- Whitespace is no part of the alphabet
theorem isStart_of_isSeparator (h : isSeparator c = true) : Name.isStart c = false := by
  unfold isSeparator at h
  cases (Bool.or_eq_true _ _).mp h with
  | inl hwhitespace =>
    have halphabetic : Text.isAlphabetic c = false :=
      Text.Ranges.contains_disjoint (by decide +kernel) hwhitespace
    have hmark : c ≠ '_' := by rintro rfl; revert hwhitespace; decide
    have hdollar : c ≠ '$' := by rintro rfl; revert hwhitespace; decide
    simp [Name.isStart, halphabetic, hmark, hdollar]
  | inr hmark =>
    obtain rfl := eq_of_beq hmark
    decide +kernel

private theorem isSeparator_of_isStart (h : Name.isStart c = true) : isSeparator c = false := by
  cases hseparator : isSeparator c with
  | false => rfl
  | true => simp [isStart_of_isSeparator hseparator] at h

private theorem punctuation_of_isStart (h : Name.isStart c = true) : punctuation? c = none := by
  unfold punctuation?
  split
  all_goals first | rfl | exact absurd h (by decide)

private theorem ne_of_isStart (h : Name.isStart c = true) {other : Char}
    (hother : Name.isStart other = false) : c ≠ other := by
  rintro rfl
  simp [h] at hother

private theorem isDigit_of_isStart (h : Name.isStart c = true) : c.isDigit = false := by
  cases hdigit : c.isDigit with
  | false => rfl
  | true => simp [(not_first_of_isDigit hdigit).1] at h

private theorem not_starts_of_isStart (h : Name.isStart c = true) : starts (c :: rest) = false := by
  have hdigit := isDigit_of_isStart h
  have hsign : isSign c = false := by
    simp [isSign, ne_of_isStart h (show Name.isStart '+' = false by decide),
      ne_of_isStart h (show Name.isStart '-' = false by decide)]
  have hpoint := ne_of_isStart h (show Name.isStart '.' = false by decide)
  simp only [starts, hsign, Bool.false_eq_true, ite_false]
  unfold startsUnsigned
  split
  · rename_i heq
    exact absurd (List.cons.inj heq).1 hpoint
  · simp [startsWithDigit, hdigit]

theorem leads_punctuation (hkind : punctuation? c = some kind) : Leads kind [c] [c] rest := by
  refine ⟨c, [], rfl, ?_⟩
  have hseparator : isSeparator c = false := by
    unfold punctuation? at hkind
    split at hkind
    all_goals first | rfl | simp at hkind
  simp [first, hseparator, hkind, spelled]

-- A point before a name is not the point of a number
theorem leads_point (hc : Name.isStart c = true) : Leads .dot ['.'] ['.'] (c :: rest) := by
  have hnumber : starts ('.' :: c :: rest) = false := isDigit_of_isStart hc
  refine ⟨'.', [], rfl, ?_⟩
  simp [first, show isSeparator '.' = false by decide, punctuation?, hnumber, spelled]

theorem first_quote (hquote : c = '"' ∨ c = '\'') : first c rest = stringLiteral c rest := by
  obtain rfl | rfl := hquote
  · rfl
  · rfl

theorem leads_literal (text rest : List Char) :
    Leads .stringLiteral text (Text.literal text) rest := by
  refine ⟨'\'', text.flatMap Text.literalChar ++ ['\''], rfl, ?_⟩
  have hread := StringLiteral.read_literal text rest
  rw [List.append_assoc, List.singleton_append]
  simp [first, show isSeparator '\'' = false by decide, punctuation?,
    show starts ('\'' :: (text.flatMap Text.literalChar ++ '\'' :: rest)) = false from rfl,
    stringLiteral, hread]

theorem leads_bare (hbare : Text.isBare text = true) (rest : List Char) :
    Leads .stringLiteral text ('\'' :: text ++ ['\'']) rest := by
  refine ⟨'\'', text ++ ['\''], rfl, ?_⟩
  have hread := StringLiteral.read_bare hbare rest
  rw [List.append_assoc, List.singleton_append, first_quote (.inr rfl), stringLiteral, hread]
  simp

theorem isPart_of_isStart (h : Name.isStart c = true) : Name.isPart c = true := by
  simp only [Name.isStart, Bool.or_eq_true] at h
  simp only [Name.isPart, Text.isAlphanumeric, Bool.or_eq_true]
  obtain (halphabetic | hmark) | hdollar := h
  · exact .inl (.inl (.inl halphabetic))
  · exact .inl (.inr hmark)
  · exact .inr hdollar

-- The parts of a name are taken as far as they go
theorem run_raw (isLegal : Char → Bool) {name : List Char}
    (hname : ∀ c ∈ name, Name.isPart c = true) (hrest : Ends rest) :
    Name.run isLegal (name ++ rest) = ⟨name, name.length, true⟩ := by
  induction name generalizing isLegal with
  | nil =>
    cases rest with
    | nil => simp [Name.run]
    | cons c rest =>
      obtain ⟨hescape, hpart⟩ := hrest c (by simp)
      simp [Name.run, hescape, hpart]
  | cons c name ih =>
    have hpart := hname c (by simp)
    have hescape : c ≠ '\\' := by
      rintro rfl
      revert hpart
      decide
    have htail := ih Name.isPart fun c hc => hname c (List.mem_cons_of_mem _ hc)
    rw [List.cons_append, Name.run, if_neg hescape, if_pos hpart, htail]
    rfl

theorem first_name (hc : Name.isStart c = true ∨ c = '\\') (rest : List Char) :
    first c rest = name c rest := by
  obtain hc | rfl := hc
  · simp [first, isSeparator_of_isStart hc, punctuation_of_isStart hc, not_starts_of_isStart hc,
      ne_of_isStart hc (show Name.isStart '.' = false by decide),
      ne_of_isStart hc (show Name.isStart '"' = false by decide),
      ne_of_isStart hc (show Name.isStart '\'' = false by decide), hc]
  · rfl

theorem leads_word {name : List Char} (hstart : name.head?.any Name.isStart = true)
    (hpart : name.all Name.isPart = true) (hrest : Ends rest) :
    Leads (Name.kind (String.ofList name)) name name rest := by
  obtain ⟨c, more, rfl⟩ : ∃ c more, name = c :: more := by
    cases name with
    | nil => simp at hstart
    | cons c more => exact ⟨c, more, rfl⟩
  have hc : Name.isStart c = true := hstart
  have hrun := run_raw Name.isStart (List.all_eq_true.mp hpart) hrest
  rw [List.cons_append] at hrun
  refine ⟨c, more, rfl, ?_⟩
  simp [first_name (.inl hc), name, hrun]

theorem leads_name {name : List Char} (hstart : name.head?.any Name.isStart = true)
    (hpart : name.all Name.isPart = true) (hrest : Stops rest) :
    Leads (Name.kind (String.ofList name)) name name rest :=
  leads_word hstart hpart hrest.ends

-- What is written as an identifier begins and goes on as a name does, and is no keyword
theorem of_isIdentifier {name : String} (h : Name.isIdentifier name = true) :
    name.toList.head?.any Name.isStart = true ∧ name.toList.all Name.isPart = true ∧
      Name.kind name = .identifier := by
  simp only [Name.isIdentifier, Bool.and_eq_true, beq_iff_eq] at h
  obtain ⟨hchars, hkind⟩ := h
  cases htoList : name.toList with
  | nil => simp [htoList] at hchars
  | cons c more =>
    rw [htoList, Bool.and_eq_true] at hchars
    obtain ⟨hstart, hmore⟩ := hchars
    exact ⟨hstart, by simpa [isPart_of_isStart hstart] using hmore, hkind⟩

-- A number literal takes a whole numeral, and nothing of what follows it

theorem not_numeral_of_stops (hc : c ∈ stops) :
    c.isDigit = false ∧ c ≠ '.' ∧ c ≠ 'e' ∧ c ≠ 'E' ∧ c ≠ 'x' ∧ c ≠ 'X' := by
  have hall : stops.all (fun c => !c.isDigit && c != '.' && c != 'e' && c != 'E' && c != 'x' &&
    c != 'X') = true := by decide
  simpa [and_assoc] using List.all_eq_true.mp hall c hc

theorem digitCount_append {digits : List Char} (hdigits : ∀ c ∈ digits, c.isDigit = true)
    (hrest : ∀ c ∈ rest.head?, c.isDigit = false) :
    digitCount (digits ++ rest) = digits.length := by
  rw [digitCount, takeWhile_digits hdigits hrest]

theorem fractionLength_append {point fraction : List Char} (hpoint : Point point fraction)
    (hrest : ∀ c ∈ rest.head?, c.isDigit = false ∧ c ≠ '.') :
    fractionLength (point ++ rest) = point.length := by
  cases hpoint with
  | none =>
    unfold fractionLength
    split
    · rename_i heq
      rw [List.nil_append] at heq
      exact absurd rfl (hrest '.' (by simp [heq])).2
    · rfl
  | some hdigits =>
    have hcount := digitCount_append hdigits fun c hc => (hrest c hc).1
    simp [fractionLength, hcount]

private theorem exponentLength_append {power : List Char} {exponent : Int}
    (hpower : Power power exponent) (hrest : Stops rest) :
    exponentLength (power ++ rest) = power.length := by
  have hdigit : ∀ c ∈ rest.head?, c.isDigit = false :=
    fun c hc => (not_numeral_of_stops (hrest c hc)).1
  cases hpower with
  | none =>
    cases rest with
    | nil => rfl
    | cons c rest =>
      obtain ⟨-, -, he, hE, -⟩ := not_numeral_of_stops (hrest c (by simp))
      simp [exponentLength, he, hE]
  | plain hne hdigits =>
    obtain ⟨c, digits, rfl⟩ := List.exists_cons_of_ne_nil hne
    have hc := hdigits c (by simp)
    have hsign := isSign_of_isDigit hc
    have hcount := digitCount_append hdigits hdigit
    rw [List.cons_append] at hcount
    simp [exponentLength, hsign, startsWithDigit, hc, hcount]
  | _ hne hdigits =>
    -- the sign is no digit, so that the digits behind it decide
    obtain ⟨c, digits, rfl⟩ := List.exists_cons_of_ne_nil hne
    have hcount := digitCount_append hdigits hdigit
    rw [List.cons_append] at hcount
    simp [exponentLength, isSign, startsWithDigit, hdigits c (by simp), hcount]

private theorem decimalLength_append (h : Spells text d) (hrest : Stops rest) :
    decimalLength (text ++ rest) = text.length := by
  obtain @⟨whole, point, fraction, power, exponent, hne, hwhole, hpoint, hpower⟩ := h
  have hpowerHead : ∀ c ∈ (power ++ rest).head?, c.isDigit = false ∧ c ≠ '.' := by
    intro c hc
    cases power with
    | nil =>
      obtain ⟨hdigit, hdot, -⟩ := not_numeral_of_stops (hrest c hc)
      exact ⟨hdigit, hdot⟩
    | cons e power =>
      obtain rfl := Option.some.inj hc
      obtain rfl := hpower.head e (by simp)
      decide
  have hpointHead : ∀ c ∈ (point ++ (power ++ rest)).head?, c.isDigit = false := by
    intro c hc
    cases hpoint with
    | none => exact (hpowerHead c hc).1
    | some =>
      obtain rfl := Option.some.inj hc
      rfl
  have hcount := digitCount_append hwhole hpointHead
  have hfraction := fractionLength_append hpoint hpowerHead
  have hexponent := exponentLength_append hpower hrest
  have hdropPoint : (whole ++ (point ++ (power ++ rest))).drop whole.length =
      point ++ (power ++ rest) := List.drop_left
  have hdropPower : (whole ++ (point ++ (power ++ rest))).drop (whole.length + point.length) =
      power ++ rest := by
    rw [← List.drop_drop, List.drop_left, List.drop_left]
  simp only [decimalLength, List.append_assoc, hcount, hdropPoint, hfraction, hdropPower, hexponent,
    List.length_append, Nat.add_assoc]

-- The second character of a numeral is never that of a hexadecimal one, and neither is what follows
private theorem hexadecimalLength_append (h : Spells text d) (hrest : Stops rest) :
    hexadecimalLength? (text ++ rest) = none := by
  obtain ⟨c, more, rfl, -⟩ := h.exists_cons
  have hsecond : ∀ x ∈ (more ++ rest).head?, x ≠ 'x' ∧ x ≠ 'X' := by
    intro x hx
    cases more with
    | nil =>
      obtain ⟨-, -, -, -, hlower, hupper⟩ := not_numeral_of_stops (hrest x hx)
      exact ⟨hlower, hupper⟩
    | cons y more =>
      obtain rfl := Option.some.inj hx
      have hchar := h.chars y (by simp)
      constructor
      · rintro rfl
        revert hchar
        decide
      · rintro rfl
        revert hchar
        decide
  unfold hexadecimalLength?
  split
  · rename_i x digits heq
    rw [List.cons_append] at heq
    obtain ⟨hlower, hupper⟩ := hsecond x (by simp [(List.cons.inj heq).2])
    simp [hlower, hupper]
  · rfl

private theorem unsignedLength_append (h : Spells text d) (hrest : Stops rest) :
    unsignedLength (text ++ rest) = text.length := by
  rw [unsignedLength, hexadecimalLength_append h hrest, Option.getD_none,
    decimalLength_append h hrest]

theorem leads_number (h : Spells text d) (hrest : Stops rest) (negative : Bool) :
    Leads .numberLiteral ((if negative then ['-'] else []) ++ text)
      ((if negative then ['-'] else []) ++ text) rest := by
  have hlength := unsignedLength_append h hrest
  obtain ⟨c, more, rfl, hc⟩ := h.exists_cons
  obtain ⟨-, hseparator, hpunctuation, hsign⟩ := not_first_of_isDigit hc
  have hstarts : startsUnsigned (c :: (more ++ rest)) = true := startsUnsigned_of_isDigit hc _
  cases negative with
  | true =>
    refine ⟨'-', c :: more, rfl, ?_⟩
    rw [List.cons_append] at hlength
    simp [first, show isSeparator '-' = false by decide, punctuation?, starts, isSign, hstarts,
      NumberLiteral.length, hlength, spelled]
  | false =>
    refine ⟨c, more, rfl, ?_⟩
    rw [List.cons_append] at hlength
    simp [first, hseparator, hpunctuation, starts, hsign, hstarts, NumberLiteral.length, hlength,
      spelled]

end Lexeme

namespace Token

open Lexeme

variable {kind : TokenKind} {c : Char} {text chars rest : List Char}

theorem scanFrom_leads (offset : Nat) (h : Leads kind text chars rest) :
    scanFrom offset (chars ++ rest) = ⟨kind, String.ofList text, offset⟩ ::
      scanFrom (offset + Text.unitCount chars) rest := by
  obtain ⟨c, more, rfl, hfirst⟩ := h
  rw [List.cons_append, scanFrom]
  simp [hfirst]

theorem scanFrom_spelled (offset : Nat) {more : Nat}
    (h : first c rest = spelled kind c rest more) :
    scanFrom offset (c :: rest) = ⟨kind, String.ofList (c :: rest.take more), offset⟩ ::
      scanFrom (offset + Text.unitCount (c :: rest.take more)) (rest.drop more) := by
  rw [scanFrom, h]
  rfl

end Token

end DeclarativeOptions
