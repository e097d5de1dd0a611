import DeclarativeOptions.Text.Quoted
import DeclarativeOptions.Token.StringLiteral
import Mathlib.Algebra.Group.Nat.Defs
import Mathlib.Tactic.SplitIfs

namespace DeclarativeOptions

namespace Escape

private theorem hexDigit_digitChar :
    ∀ digit < 16, hexDigit? (Nat.digitChar digit) = some digit := by
  decide

-- The digits of a number, read one after the other, are the number again
private theorem exists_hexDigits (n : Nat) : ∃ values,
    (Nat.toDigits 16 n).mapM hexDigit? = some values ∧
    values.foldl (fun n d => 16 * n + d) 0 = n := by
  induction n using Nat.strongRecOn with
  | ind n ih =>
    by_cases hn : n < 16
    · exact ⟨[n], by simp [Nat.toDigits_of_lt_base hn, hexDigit_digitChar n hn], by simp⟩
    · obtain ⟨values, hvalues, hfold⟩ := ih (n / 16) (by omega)
      have hlast := hexDigit_digitChar (n % 16) (Nat.mod_lt n (by decide))
      refine ⟨values ++ [n % 16], ?_, ?_⟩
      · simp [Nat.toDigits_of_base_le (by decide) (Nat.not_lt.mp hn), hvalues, hlast]
      · simp only [List.foldl_append, hfold, List.foldl_cons, List.foldl_nil]
        omega

-- Zeros in front of the digits do not change what they write
private theorem exists_zeros (count : Nat) : ∃ values,
    (List.replicate count '0').mapM hexDigit? = some values ∧
      values.foldl (fun n d => 16 * n + d) 0 = 0 := by
  induction count with
  | zero => exact ⟨[], rfl, rfl⟩
  | succ count ih =>
    obtain ⟨values, hvalues, hfold⟩ := ih
    have hzero : hexDigit? '0' = some 0 := rfl
    exact ⟨0 :: values, by simp [List.replicate_succ, hvalues, hzero], by simpa using hfold⟩

private theorem length_hexadecimal {n : Nat} (hn : n < 16 ^ 4) :
    (Text.hexadecimal 4 n).length = 4 := by
  have hdigits : (Nat.toDigits 16 n).length ≤ 4 :=
    (Nat.length_toDigits_le_iff (by decide) (by decide)).mpr hn
  simp only [Text.hexadecimal, List.length_append, List.length_replicate]
  omega

theorem code_hexadecimal {n : Nat} (hn : n < 16 ^ 4) (rest : List Char) :
    code? 4 (Text.hexadecimal 4 n ++ rest) = some n := by
  have htake : (Text.hexadecimal 4 n ++ rest).take 4 = Text.hexadecimal 4 n :=
    List.take_left' (length_hexadecimal hn)
  obtain ⟨zeros, hzeros, hfoldZeros⟩ := exists_zeros (4 - (Nat.toDigits 16 n).length)
  obtain ⟨values, hvalues, hfold⟩ := exists_hexDigits n
  unfold code?
  rw [htake, if_pos (length_hexadecimal hn), Text.hexadecimal]
  simp [hzeros, hvalues, hfoldZeros, hfold]

-- No character is half of a surrogate pair
theorem unitChar_toNat (c : Char) :
    Text.isHighSurrogate c.toNat = false ∧ Text.unitChar c.toNat = c := by
  have hvalid : c.toNat < 0xD800 ∨ 0xDFFF < c.toNat ∧ c.toNat < 0x110000 := c.valid
  have hhigh : Text.isHighSurrogate c.toNat = false := by
    simp only [Text.isHighSurrogate, Bool.and_eq_false_iff, decide_eq_false_iff_not]
    omega
  have hlow : Text.isLowSurrogate c.toNat = false := by
    simp only [Text.isLowSurrogate, Bool.and_eq_false_iff, decide_eq_false_iff_not]
    omega
  exact ⟨hhigh, by simp [Text.unitChar, hhigh, hlow]⟩

theorem unicode_hexadecimal {c : Char} (hc : c.toNat < 16 ^ 4) (rest : List Char) :
    unicode? (Text.hexadecimal 4 c.toNat ++ rest) = some (c, 4) := by
  obtain ⟨hhigh, hunit⟩ := unitChar_toNat c
  simp [unicode?, code_hexadecimal hc, hhigh, hunit]

end Escape

-- Between single quotes all characters of the text stand for themselves
def Text.isBare (text : List Char) : Bool :=
  text.all fun c => c != '\'' && c != '\r' && c != '\n' && c != '\\'

namespace StringLiteral

variable {c : Char} {text rest : List Char}

-- An escape in front of the rest of a literal
theorem read_escape (h : Escape.inString? (text ++ rest) = some ([c], text.length)) :
    read? '\'' ('\\' :: (text ++ rest)) =
      (read? '\'' rest).map fun (value, more) => (c :: value, more + (text.length + 1)) := by
  rw [read?, if_neg (by decide), if_neg (by decide), if_pos rfl, h]
  simp [Nat.add_assoc]

theorem read_raw (hquote : c ≠ '\'') (hreturn : c ≠ '\r') (hline : c ≠ '\n')
    (hescape : c ≠ '\\') : read? '\'' (c :: rest) =
      (read? '\'' rest).map fun (value, more) => (c :: value, more + 1) := by
  rw [read?, if_neg hquote, if_neg (by simp [hreturn, hline]), if_neg hescape]

theorem read_bare (h : Text.isBare text = true) (rest : List Char) :
    read? '\'' (text ++ '\'' :: rest) = some (text, text.length + 1) := by
  induction text with
  | nil => simp [read?]
  | cons c text ih =>
    simp only [Text.isBare, List.all_cons, Bool.and_eq_true, bne_iff_ne] at h
    obtain ⟨⟨⟨⟨hquote, hreturn⟩, hline⟩, hescape⟩, htext⟩ := h
    rw [List.cons_append, read_raw hquote hreturn hline hescape, ih htext]
    rfl

-- A character is read back as itself, whether it is escaped or not
theorem read_literalChar (c : Char) (rest : List Char) :
    read? '\'' (Text.literalChar c ++ rest) = (read? '\'' rest).map fun (value, more) =>
      (c :: value, more + (Text.literalChar c).length) := by
  unfold Text.literalChar
  split_ifs with hquote hescape hline hreturn htab hcode
  · subst hquote
    exact @read_escape _ ['\''] rest (by simp [Escape.inString?, Escape.single])
  · subst hescape
    exact @read_escape _ ['\\'] rest (by simp [Escape.inString?, Escape.single])
  · subst hline
    exact @read_escape _ ['n'] rest (by simp [Escape.inString?, Escape.single])
  · subst hreturn
    exact @read_escape _ ['r'] rest (by simp [Escape.inString?, Escape.single])
  · subst htab
    exact @read_escape _ ['t'] rest (by simp [Escape.inString?, Escape.single])
  · have hsmall : c.toNat < 16 ^ 4 := by
      obtain rfl | rfl | hcontrol := hcode
      · decide
      · decide
      · simp only [Text.isControl, Bool.or_eq_true, Bool.and_eq_true, decide_eq_true_eq] at hcontrol
        omega
    refine @read_escape c ('u' :: Text.hexadecimal 4 c.toNat) rest ?_
    simp [Escape.inString?, Escape.unicode_hexadecimal hsmall, Escape.length_hexadecimal hsmall]
  · exact read_raw hquote hreturn hline hescape

theorem read_literal (text rest : List Char) :
    read? '\'' (text.flatMap Text.literalChar ++ '\'' :: rest) =
      some (text, (text.flatMap Text.literalChar).length + 1) := by
  induction text with
  | nil => simp [read?]
  | cons c text ih =>
    rw [List.flatMap_cons, List.append_assoc, read_literalChar, ih]
    simp only [Option.map_some, List.length_append]
    congr 2
    omega

end StringLiteral

end DeclarativeOptions
