import DeclarativeOptions.Proofs.Token.Escaped
import Mathlib.Data.List.Forall2
import Mathlib.Data.Nat.Digits.Lemmas

namespace DeclarativeOptions.Escape

-- As many hexadecimal digits as are given, of either case, and the number that they write
structure Digits (count code : Nat) (digits : List Char) : Prop where
  length : digits.length = count
  writes : ∃ values, List.Forall₂ (fun c d => hexDigit? c = some d) digits values ∧
    Nat.ofDigits 16 values.reverse = code

-- UTF-16 units, each of them written as a `\u` and four digits
inductive Escapes : List Nat → List Char → Prop where
  | nil : Escapes [] []
  | cons {unit : Nat} {units : List Nat} {digits text : List Char} (hunit : Digits 4 unit digits)
      (hmore : Escapes units text) : Escapes (unit :: units) ('\\' :: 'u' :: (digits ++ text))

variable {c : Char} {count code unit high low : Nat} {units : List Nat}
  {digits text spelling rest : List Char}

theorem Escapes.length (h : Escapes units spelling) : spelling.length = 6 * units.length := by
  induction h with
  | nil => rfl
  | cons hunit _ ih =>
    simp only [List.length_cons, List.length_append, hunit.length, ih]
    omega

theorem mapM_hexDigit {values : List Nat} : text.mapM hexDigit? = some values ↔
    List.Forall₂ (fun c d => hexDigit? c = some d) text values := by
  induction text generalizing values with
  | nil => simp [eq_comm]
  | cons c text ih =>
    simp only [List.mapM_cons, Option.bind_eq_bind, Option.bind_eq_some_iff, ih, Option.pure_def,
      Option.some.injEq]
    constructor
    · rintro ⟨d, hd, more, hmore, rfl⟩
      exact .cons hd hmore
    · intro h
      cases h with
      | cons hd hmore => exact ⟨_, hd, _, hmore, rfl⟩

-- Reading digit by digit is the positional value of the digits
theorem foldl_digits (values : List Nat) :
    values.foldl (fun n d => 16 * n + d) 0 = Nat.ofDigits 16 values.reverse := by
  rw [Nat.ofDigits_eq_foldr, List.foldr_reverse]
  simp only [Nat.cast_id, Nat.add_comm]

theorem code_eq_some : code? count text = some code ↔ Digits count code (text.take count) := by
  unfold code?
  constructor
  · intro h
    split_ifs at h with hlength
    obtain ⟨values, hvalues, hfold⟩ := Option.map_eq_some_iff.mp h
    exact ⟨hlength, values, mapM_hexDigit.mp hvalues, by rw [← foldl_digits, hfold]⟩
  · rintro ⟨hlength, values, hvalues, hcode⟩
    rw [if_pos hlength, mapM_hexDigit.mpr hvalues, Option.map_some, foldl_digits, hcode]

theorem Digits.code_append (h : Digits count code digits) (rest : List Char) :
    code? count (digits ++ rest) = some code := by
  rw [code_eq_some, List.take_left' h.length]
  exact h

private theorem hexDigit_lt {d : Nat} (h : hexDigit? c = some d) : d < 16 := by
  unfold hexDigit? at h
  split_ifs at h with hdigit hlower hupper
  · have hle : c.toNat ≤ 57 := hdigit.2
    obtain rfl : c.toNat - 48 = d := Option.some.inj h
    omega
  · have hle : c.toNat ≤ 102 := hlower.2
    obtain rfl : c.toNat - 97 + 10 = d := Option.some.inj h
    omega
  · have hle : c.toNat ≤ 70 := hupper.2
    obtain rfl : c.toNat - 65 + 10 = d := Option.some.inj h
    omega

theorem lt_of_digits {values : List Nat}
    (h : List.Forall₂ (fun c d => hexDigit? c = some d) digits values) : ∀ d ∈ values, d < 16 := by
  induction h with
  | nil => simp
  | cons hfirst _ ih => exact List.forall_mem_cons.mpr ⟨hexDigit_lt hfirst, ih⟩

theorem Digits.lt (h : Digits count code digits) : code < 16 ^ count := by
  obtain ⟨hlength, values, hvalues, rfl⟩ := h
  rw [← hlength, hvalues.length_eq, ← List.length_reverse]
  exact Nat.ofDigits_lt_base_pow_length (by decide)
    fun d hd => lt_of_digits hvalues d (List.mem_reverse.mp hd)

theorem Escapes.lt (h : Escapes units spelling) : ∀ unit ∈ units, unit < 16 ^ 4 := by
  induction h with
  | nil => simp
  | cons hunit _ ih => exact List.forall_mem_cons.mpr ⟨hunit.lt, ih⟩

theorem lowSurrogate_eq_some : lowSurrogate? text = some low ↔
    Text.isLowSurrogate low = true ∧ ∃ spelling rest, text = spelling ++ rest ∧
      Escapes [low] spelling := by
  constructor
  · intro h
    unfold lowSurrogate? at h
    split at h
    · rename_i digits
      obtain ⟨hcode, hlow⟩ := Option.filter_eq_some_iff.mp h
      refine ⟨hlow, _, digits.drop 4, ?_, .cons (code_eq_some.mp hcode) .nil⟩
      simp
    · simp at h
  · rintro ⟨hlow, _, rest, rfl, hspelling⟩
    cases hspelling with
    | cons hunit hmore =>
      cases hmore
      simp [lowSurrogate?, hunit.code_append, Option.filter, hlow]

theorem unicode_unit (h : Digits 4 unit digits)
    (hnext : Text.isHighSurrogate unit = true → lowSurrogate? rest = none) :
    unicode? (digits ++ rest) = some (Text.unitChar unit, 4) := by
  rw [unicode_of_code (h.code_append rest), List.drop_left' h.length]
  split_ifs with hhigh
  · rw [hnext hhigh]
  · rfl

theorem unicode_pair (h : Digits 4 high digits) (hhigh : Text.isHighSurrogate high = true)
    (hspelling : Escapes [low] spelling) (hlow : Text.isLowSurrogate low = true) :
    unicode? (digits ++ (spelling ++ rest)) = some (Text.pairChar high low, 10) := by
  rw [unicode_of_code (h.code_append _), List.drop_left' h.length, if_pos hhigh,
    lowSurrogate_eq_some.mpr ⟨hlow, spelling, rest, rfl, hspelling⟩]

private theorem charUnits_pairChar (hhigh : Text.isHighSurrogate high = true)
    (hlow : Text.isLowSurrogate low = true) :
    Text.charUnits (Text.pairChar high low) = [high, low] := by
  simp only [Text.isHighSurrogate, Text.isLowSurrogate, Bool.and_eq_true, decide_eq_true_eq]
    at hhigh hlow
  have hvalid : Nat.isValidChar (0x10000 + (high - 0xD800) * 0x400 + (low - 0xDC00)) :=
    .inr (by omega)
  have hcode : (Text.pairChar high low).toNat =
      0x10000 + (high - 0xD800) * 0x400 + (low - 0xDC00) := by
    rw [Text.pairChar, Char.ofNat, dif_pos hvalid]
    rfl
  have hfirst : 0xD800 + ((Text.pairChar high low).toNat - 0x10000) / 0x400 = high := by omega
  have hsecond : 0xDC00 + ((Text.pairChar high low).toNat - 0x10000) % 0x400 = low := by omega
  rw [Text.charUnits, if_neg (by omega), hfirst, hsecond]

-- A unit that is read as another character than U+FFFD is that character
private theorem charUnits_unitChar (h : unit < 16 ^ 4) (hne : Text.unitChar unit ≠ '\uFFFD') :
    Text.charUnits (Text.unitChar unit) = [unit] := by
  unfold Text.unitChar at hne ⊢
  split_ifs at hne ⊢ with hsurrogate
  · exact absurd rfl hne
  · have hvalid : Nat.isValidChar unit := by
      simp only [Text.isHighSurrogate, Text.isLowSurrogate, Bool.or_eq_true, Bool.and_eq_true,
        decide_eq_true_eq] at hsurrogate
      by_cases hbelow : unit < 0xD800
      · exact .inl hbelow
      · exact .inr (by omega)
    have hcode : (Char.ofNat unit).toNat = unit := by
      rw [Char.ofNat, dif_pos hvalid]
      rfl
    rw [Text.charUnits, hcode]
    exact if_pos h

theorem charUnits_cases (c : Char) :
    Text.charUnits c = [c.toNat] ∨ ∃ high low, Text.charUnits c = [high, low] ∧
      Text.isHighSurrogate high = true ∧ Text.isLowSurrogate low = true ∧
      Text.pairChar high low = c := by
  by_cases hsmall : c.toNat < 0x10000
  · exact .inl (if_pos hsmall)
  · have hvalid : c.toNat < 0xD800 ∨ 0xDFFF < c.toNat ∧ c.toNat < 0x110000 := c.valid
    refine .inr ⟨_, _, if_neg hsmall, ?_, ?_, ?_⟩
    · simp only [Text.isHighSurrogate, Bool.and_eq_true, decide_eq_true_eq]
      omega
    · simp only [Text.isLowSurrogate, Bool.and_eq_true, decide_eq_true_eq]
      omega
    · have hcode : 0x10000 + (0xD800 + (c.toNat - 0x10000) / 0x400 - 0xD800) * 0x400 +
          (0xDC00 + (c.toNat - 0x10000) % 0x400 - 0xDC00) = c.toNat := by omega
      rw [Text.pairChar, hcode, Char.ofNat_toNat]

-- A character that is written in its units is read as the character, whatever stands behind it
theorem unicode_charUnits (h : Escapes (Text.charUnits c) ('\\' :: 'u' :: text))
    (rest : List Char) : unicode? (text ++ rest) = some (c, text.length) := by
  obtain hone | ⟨high, low, htwo, hhigh, hlow, rfl⟩ := charUnits_cases c
  · rw [hone] at h
    cases h with
    | cons hunit hmore =>
      cases hmore
      obtain ⟨hnot, hchar⟩ := unitChar_toNat c
      rw [List.append_nil, unicode_unit hunit (by simp [hnot]), hchar, hunit.length]
  · rw [htwo] at h
    cases h with
    | cons hunit hmore =>
      rw [List.append_assoc, unicode_pair hunit hhigh hmore hlow, List.length_append, hunit.length,
        hmore.length]
      rfl

-- What is read is one unit or a pair of them
theorem escapes_of_unicode {length : Nat} (h : unicode? text = some (c, length)) :
    (∃ unit, Escapes [unit] ('\\' :: 'u' :: text.take length) ∧ Text.unitChar unit = c) ∨
    ∃ high low, Text.isHighSurrogate high = true ∧ Text.isLowSurrogate low = true ∧
      Escapes [high, low] ('\\' :: 'u' :: text.take length) ∧ Text.pairChar high low = c := by
  have hsome : ∃ unit, code? 4 text = some unit := by
    cases hcode : code? 4 text with
    | none => simp [unicode?, hcode] at h
    | some unit => exact ⟨unit, rfl⟩
  obtain ⟨unit, hcode⟩ := hsome
  have hdigits := code_eq_some.mp hcode
  have hone : Escapes [unit] ('\\' :: 'u' :: text.take 4) := by
    simpa using Escapes.cons hdigits .nil
  rw [unicode_of_code hcode] at h
  split_ifs at h with hhigh
  · cases hlow : lowSurrogate? (text.drop 4) with
    | none =>
      obtain ⟨hc, rfl⟩ : Text.unitChar unit = c ∧ 4 = length := by simpa [hlow] using h
      exact .inl ⟨unit, hone, hc⟩
    | some low =>
      obtain ⟨hc, rfl⟩ : Text.pairChar unit low = c ∧ 10 = length := by simpa [hlow] using h
      obtain ⟨hrange, spelling, rest, hdrop, hspelling⟩ := lowSurrogate_eq_some.mp hlow
      have hlength : spelling.length = 6 := hspelling.length
      have htake : text.take 10 = text.take 4 ++ spelling := by
        rw [List.take_add (i := 4) (j := 6), hdrop, List.take_left' hlength]
      rw [htake]
      exact .inr ⟨unit, low, hhigh, hrange, .cons hdigits hspelling, hc⟩
  · obtain ⟨hc, rfl⟩ : Text.unitChar unit = c ∧ 4 = length := by simpa using h
    exact .inl ⟨unit, hone, hc⟩

-- So what is read as another character than U+FFFD is that character written in its units
theorem escapes_charUnits {length : Nat} (h : unicode? text = some (c, length))
    (hne : c ≠ '\uFFFD') : Escapes (Text.charUnits c) ('\\' :: 'u' :: text.take length) := by
  obtain ⟨unit, hunit, rfl⟩ | ⟨high, low, hhigh, hlow, hunits, rfl⟩ := escapes_of_unicode h
  · rwa [charUnits_unitChar (hunit.lt unit (by simp)) hne]
  · rwa [charUnits_pairChar hhigh hlow]

end DeclarativeOptions.Escape
