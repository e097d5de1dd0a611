import DeclarativeOptions.Number.Numeral
import DeclarativeOptions.Proofs.Number.Shortest

namespace DeclarativeOptions

namespace Numeral

-- Behind the digits of the whole part: nothing, or a point and the digits of the fraction
inductive Point : List Char → List Char → Prop where
  | none : Point [] []
  | some {digits : List Char} (hdigits : ∀ c ∈ digits, c.isDigit = true) :
      Point ('.' :: digits) digits

-- Behind the fraction: nothing, or an exponent with or without a sign
inductive Power : List Char → Int → Prop where
  | none : Power [] 0
  | plain {digits : List Char} (hne : digits ≠ []) (hdigits : ∀ c ∈ digits, c.isDigit = true) :
      Power ('e' :: digits) (Nat.ofDigitChars 10 digits 0)
  | plus {digits : List Char} (hne : digits ≠ []) (hdigits : ∀ c ∈ digits, c.isDigit = true) :
      Power ('e' :: '+' :: digits) (Nat.ofDigitChars 10 digits 0)
  | minus {digits : List Char} (hne : digits ≠ []) (hdigits : ∀ c ∈ digits, c.isDigit = true) :
      Power ('e' :: '-' :: digits) (-Nat.ofDigitChars 10 digits 0)

-- Digits, a point with more digits, and a power of ten
inductive Spells : List Char → Decimal → Prop where
  | mk {whole point fraction power : List Char} {exponent : Int} (hne : whole ≠ [])
      (hwhole : ∀ c ∈ whole, c.isDigit = true) (hpoint : Point point fraction)
      (hpower : Power power exponent) :
      Spells (whole ++ (point ++ power))
        ⟨Nat.ofDigitChars 10 (whole ++ fraction) 0, exponent - fraction.length⟩

variable {text whole point fraction power rest : List Char} {exponent : Int} {d : Decimal}
  {c : Char}

-- The characters of numerals
def isNumeralChar (c : Char) : Bool := c.isDigit || ['.', 'e', '+', '-'].contains c

theorem Power.chars (h : Power power exponent) : ∀ c ∈ power, isNumeralChar c = true := by
  intro c hc
  have hdigit {digits : List Char} (hdigits : ∀ c ∈ digits, c.isDigit = true) (hc : c ∈ digits) :
      isNumeralChar c = true := by
    simp [isNumeralChar, hdigits c hc]
  cases h with
  | none => simp at hc
  | plain _ hdigits =>
    obtain rfl | hc := List.mem_cons.mp hc
    · rfl
    · exact hdigit hdigits hc
  | _ _ hdigits =>
    obtain rfl | hc := List.mem_cons.mp hc
    · rfl
    obtain rfl | hc := List.mem_cons.mp hc
    · rfl
    · exact hdigit hdigits hc

theorem Spells.chars (h : Spells text d) : ∀ c ∈ text, isNumeralChar c = true := by
  obtain ⟨-, hwhole, hpoint, hpower⟩ := h
  intro c hc
  simp only [List.mem_append] at hc
  obtain hc | hc | hc := hc
  · simp [isNumeralChar, hwhole c hc]
  · cases hpoint with
    | none => simp at hc
    | some hdigits =>
      obtain rfl | hc := List.mem_cons.mp hc
      · rfl
      · simp [isNumeralChar, hdigits c hc]
  · exact hpower.chars c hc

theorem Spells.exists_cons (h : Spells text d) : ∃ c rest, text = c :: rest ∧ c.isDigit = true := by
  obtain ⟨hne, hwhole, -, -⟩ := h
  obtain ⟨c, whole, rfl⟩ := List.exists_cons_of_ne_nil hne
  exact ⟨c, _, rfl, hwhole c (by simp)⟩

-- Digits in front of something else are taken as far as they go
theorem takeWhile_digits (hwhole : ∀ c ∈ whole, c.isDigit = true)
    (hrest : ∀ c ∈ rest.head?, c.isDigit = false) :
    (whole ++ rest).takeWhile Char.isDigit = whole := by
  rw [List.takeWhile_append_of_pos hwhole]
  cases rest with
  | nil => simp
  | cons c rest => simp [hrest c (by simp)]

private theorem dropWhile_digits (hwhole : ∀ c ∈ whole, c.isDigit = true)
    (hrest : ∀ c ∈ rest.head?, c.isDigit = false) :
    (whole ++ rest).dropWhile Char.isDigit = rest := by
  rw [List.dropWhile_append_of_pos hwhole]
  cases rest with
  | nil => simp
  | cons c rest => simp [hrest c (by simp)]

theorem takeSign_of_isDigit (hc : c.isDigit = true) :
    takeSign (c :: rest) = (false, c :: rest) := by
  unfold takeSign
  split
  · rename_i heq
    obtain ⟨rfl, -⟩ := List.cons.inj heq
    simp at hc
  · rename_i heq
    obtain ⟨rfl, -⟩ := List.cons.inj heq
    simp at hc
  · rfl

private theorem exponent_of_power (h : Power power exponent) : exponent? power = some exponent := by
  cases h with
  | none => rfl
  | plain hne hdigits =>
    obtain ⟨c, digits, rfl⟩ := List.exists_cons_of_ne_nil hne
    have hall : (c :: digits).all Char.isDigit = true := List.all_eq_true.mpr hdigits
    simp [exponent?, takeSign_of_isDigit (hdigits c (by simp)), hall]
  | _ hne hdigits =>
    have hall := List.all_eq_true.mpr hdigits
    simp [exponent?, takeSign, hne, hall]

theorem Power.head (h : Power power exponent) :
    ∀ c ∈ power.head?, c = 'e' := by
  cases h <;> simp

-- A decimal numeral has digits on one side of the point at least, and its exponent behind them
theorem decimal_append {tail : List Char} (hwhole : ∀ c ∈ whole, c.isDigit = true)
    (hpoint : Point point fraction) (hne : whole ≠ [] ∨ fraction ≠ [])
    (htail : ∀ c ∈ tail.head?, c.isDigit = false ∧ c ≠ '.') :
    decimal? (whole ++ (point ++ tail)) = (exponent? tail).map fun exponent =>
      ⟨Nat.ofDigitChars 10 (whole ++ fraction) 0, exponent - fraction.length⟩ := by
  have hempty : (whole.isEmpty && fraction.isEmpty) = false := by
    simpa [or_iff_not_imp_left] using hne
  have hdigit : ∀ c ∈ tail.head?, c.isDigit = false := fun c hc => (htail c hc).1
  cases hpoint with
  | none =>
    have htake : (whole ++ ([] ++ tail)).takeWhile Char.isDigit = whole :=
      takeWhile_digits hwhole hdigit
    have hdrop : (whole ++ ([] ++ tail)).dropWhile Char.isDigit = tail :=
      dropWhile_digits hwhole hdigit
    simp only [decimal?, htake, hdrop]
    split
    · exact absurd rfl (htail '.' (by simp)).2
    · simp only [hempty, Bool.false_eq_true, ite_false]
  | some hdigits =>
    have htake : (whole ++ ('.' :: fraction ++ tail)).takeWhile Char.isDigit = whole :=
      takeWhile_digits hwhole (by simp)
    have hdrop : (whole ++ ('.' :: fraction ++ tail)).dropWhile Char.isDigit =
      '.' :: (fraction ++ tail) := dropWhile_digits hwhole (by simp)
    simp only [decimal?, htake, hdrop, takeWhile_digits hdigits hdigit,
      dropWhile_digits hdigits hdigit, hempty, Bool.false_eq_true, ite_false]

theorem decimal_of_spells (h : Spells text d) : decimal? text = some d := by
  obtain @⟨whole, point, fraction, power, exponent, hne, hwhole, hpoint, hpower⟩ := h
  have hhead : ∀ c ∈ power.head?, c.isDigit = false ∧ c ≠ '.' := by
    intro c hc
    obtain rfl := hpower.head c hc
    decide
  rw [decimal_append hwhole hpoint (.inl hne) hhead, exponent_of_power hpower, Option.map_some]

private theorem toLower_of_isDigit (hc : c.isDigit = true) : c.toLower = c := by
  obtain ⟨-, hhigh⟩ := Char.isDigit_iff_toNat.mp hc
  have hnot : ¬('A'.val ≤ c.val ∧ c.val ≤ 'Z'.val) := by
    rintro ⟨hlow, -⟩
    have hlow : 'A'.toNat ≤ c.toNat := hlow
    simp at hlow hhigh
    omega
  exact dif_neg hnot

-- A numeral begins with a digit or a point, so it is no word and has no sign of its own

theorem takeSign_of_first (hc : c.isDigit = true ∨ c = '.') :
    takeSign (c :: rest) = (false, c :: rest) := by
  cases hc with
  | inl hdigit => exact takeSign_of_isDigit hdigit
  | inr hpoint =>
    subst hpoint
    rfl

theorem unsigned_of_decimal (hc : c.isDigit = true ∨ c = '.')
    (hd : decimal? (c :: rest) = some d) :
    unsigned? (c :: rest) = some (.signed false d.nearest) := by
  have hlower : c.toLower = c := by
    cases hc with
    | inl hdigit => exact toLower_of_isDigit hdigit
    | inr hpoint =>
      subst hpoint
      rfl
  have hi : c ≠ 'i' := by rintro rfl; simp at hc
  have hn : c ≠ 'n' := by rintro rfl; simp at hc
  simp [unsigned?, hlower, hi, hn, hd]

theorem signed_of_decimal (hc : c.isDigit = true ∨ c = '.')
    (hd : decimal? (c :: rest) = some d) :
    signed? (c :: rest) = some (.signed false d.nearest) := by
  simp [signed?, takeSign_of_first hc, unsigned_of_decimal hc hd, Number.withSign]

theorem signed_of_spells (h : Spells text d) : signed? text = some (.signed false d.nearest) := by
  obtain ⟨c, rest, rfl, hc⟩ := h.exists_cons
  exact signed_of_decimal (.inl hc) (decimal_of_spells h)

-- A numeral does not begin like a hexadecimal one
theorem not_hexadecimal (h : Spells text d) {x : Char} (hx : isNumeralChar x = false) :
    ∀ digits, text ≠ '0' :: x :: digits := by
  rintro digits rfl
  have hchar := h.chars x (by simp)
  simp [hx] at hchar

end Numeral

open Numeral

theorem Number.withSign_signed (negative : Bool) (m : Magnitude) :
    (signed false m).withSign negative = signed negative m := by
  cases negative with
  | true => rfl
  | false => rfl

-- A numeral behind a sign that has been read
theorem Number.read_of_takeSign {text body : List Char} {d : Decimal} {negative : Bool}
    (h : Spells body d) (htake : takeSign text = (negative, body)) :
    read? text = some (.signed negative d.nearest) := by
  unfold read?
  rw [htake]
  dsimp only
  split
  · exact absurd rfl (not_hexadecimal h rfl _)
  · exact absurd rfl (not_hexadecimal h rfl _)
  · rw [signed_of_spells h, Option.map_some, withSign_signed]

theorem Number.read_of_spells {text : List Char} {d : Decimal} (h : Spells text d) :
    read? text = some (.signed false d.nearest) := by
  obtain ⟨c, rest, rfl, hc⟩ := h.exists_cons
  exact read_of_takeSign h (takeSign_of_isDigit hc)

theorem Number.read_of_spells_negative {text : List Char} {d : Decimal} (h : Spells text d) :
    read? ('-' :: text) = some (.signed true d.nearest) :=
  read_of_takeSign h rfl

end DeclarativeOptions
