import DeclarativeOptions.Proofs.Token.Escaped
import DeclarativeOptions.Proofs.Token.Lexeme
import DeclarativeOptions.Proofs.Token.NumberLiteral

namespace DeclarativeOptions

namespace Name

-- A letter, `_` or `$`, and behind it letters, digits, `_` and `$`
def IsName (name : List Char) : Prop :=
  ∃ c rest, name = c :: rest ∧ isStart c = true ∧ ∀ d ∈ rest, isPart d = true

-- The words that are values, or would be, and name no property behind a point
def valueWords : List String := ["this", "true", "false", "null"]

variable {c decoded : Char} {rest text : List Char} {isLegal : Char → Bool} {name : String}

theorem kind_eq_identifier (h : kind name = .identifier) :
    name ∉ reservedWords ∧ name ∉ valueWords := by
  unfold kind at h
  split_ifs at h with htrue hfalse hnull hthis hreserved
  simp only [List.contains_iff_mem] at hreserved
  exact ⟨hreserved, by simp [valueWords, htrue, hfalse, hnull, hthis]⟩

theorem kind_eq_reservedWord (h : kind name = .reservedWord) : name ∉ valueWords := by
  unfold kind at h
  split_ifs at h with htrue hfalse hnull hthis
  simp [valueWords, htrue, hfalse, hnull, hthis]

-- All other words are names behind a point
theorem kind_of_not_value (h : name ∉ valueWords) :
    kind name = .identifier ∨ kind name = .reservedWord := by
  simp only [valueWords, List.mem_cons, List.not_mem_nil, or_false, not_or] at h
  obtain ⟨hthis, htrue, hfalse, hnull⟩ := h
  unfold kind
  rw [if_neg htrue, if_neg hfalse, if_neg hnull, if_neg hthis]
  split_ifs
  · exact .inr rfl
  · exact .inl rfl

theorem kind_of_not_word (hreserved : name ∉ reservedWords) (hvalue : name ∉ valueWords) :
    kind name = .identifier := by
  rcases kind_of_not_value hvalue with hidentifier | hword
  · exact hidentifier
  · unfold kind at hword
    split_ifs at hword with htrue hfalse hnull hthis hmem
    exact absurd (List.contains_iff_mem.mp hmem) hreserved

private theorem kind_ne_numberLiteral (name : String) : kind name ≠ .numberLiteral := by
  intro h
  have hdecoded := isDecoded_kind name
  rw [h] at hdecoded
  simp [TokenKind.isDecoded] at hdecoded

theorem escape_eq_ok {length : Nat} (h : escape isLegal text = .ok (decoded, length)) :
    isLegal decoded = true := by
  cases text with
  | nil => simp [escape] at h
  | cons c text =>
    rw [escape_cons] at h
    split_ifs at h with hc
    cases hunicode : Escape.unicode? text with
    | none => simp [hunicode] at h
    | some found =>
      rw [hunicode] at h
      dsimp only at h
      split_ifs at h with hlegal
      obtain ⟨rfl, -⟩ := Prod.mk.inj (Except.ok.inj h)
      exact hlegal

-- Raw or escaped, only parts of names get into a name
private theorem isPart_of_mem_run (hlegal : ∀ c, isLegal c = true → isPart c = true) :
    ∀ c ∈ (run isLegal text).name, isPart c = true := by
  fun_induction run isLegal text with
  | case1 => simp
  | case2 isLegal rest decoded length hescape ih =>
    exact List.forall_mem_cons.mpr ⟨hlegal _ (escape_eq_ok hescape), ih fun _ h => h⟩
  | case3 => simp
  | case4 isLegal c rest hc hpart ih =>
    exact List.forall_mem_cons.mpr ⟨hpart, ih fun _ h => h⟩
  | case5 => simp

private theorem isName_run (hc : isStart c = true ∨ c = '\\')
    (h : (run isStart (c :: rest)).wellFormed = true) :
    IsName (run isStart (c :: rest)).name := by
  rw [run_cons] at h ⊢
  by_cases hescape : c = '\\'
  · rw [if_pos hescape] at h ⊢
    cases hdecoded : escape isStart rest with
    | error length => simp [hdecoded] at h
    | ok found =>
      exact ⟨found.1, _, rfl, escape_eq_ok hdecoded, isPart_of_mem_run fun _ h => h⟩
  · have hstart : isStart c = true := hc.resolve_right hescape
    rw [if_neg hescape, if_pos (Lexeme.isPart_of_isStart hstart)]
    exact ⟨c, _, rfl, hstart, isPart_of_mem_run fun _ h => h⟩

end Name

namespace Lexeme

-- What holds of the text of a token: a name that its kind fits, or a numeral
structure Genuine (kind : TokenKind) (text : List Char) : Prop where
  name : kind = .identifier ∨ kind = .reservedWord →
    Name.IsName text ∧ Name.kind (String.ofList text) = kind
  numeral : kind = .numberLiteral → NumberLiteral.Literal text

variable {c : Char} {rest text : List Char} {kind : TokenKind} {more : Nat}

private theorem genuine_of_kind (h : kind ∉ [TokenKind.identifier, .reservedWord, .numberLiteral]) :
    Genuine kind text := by
  simp only [List.mem_cons, List.not_mem_nil, or_false, not_or] at h
  obtain ⟨hidentifier, hreserved, hnumber⟩ := h
  exact ⟨fun hkind => absurd hkind (by simp [hidentifier, hreserved]), fun h => absurd h hnumber⟩

private theorem genuine_spelled (h : kind ∉ [TokenKind.identifier, .reservedWord, .numberLiteral]) :
    Genuine (spelled kind c rest more).kind (spelled kind c rest more).text :=
  genuine_of_kind h

private theorem punctuation_plain (h : punctuation? c = some kind) :
    kind ∉ [TokenKind.identifier, .reservedWord, .numberLiteral] := by
  unfold punctuation? at h
  split at h
  case h_10 => simp at h
  all_goals
    obtain rfl := Option.some.inj h
    decide

private theorem genuine_stringLiteral (quote : Char) (rest : List Char) :
    Genuine (stringLiteral quote rest).kind (stringLiteral quote rest).text := by
  unfold stringLiteral
  split
  · exact genuine_of_kind (by simp)
  · exact genuine_spelled (by decide)

private theorem genuine_name (hc : Name.isStart c = true ∨ c = '\\') :
    Genuine (name c rest).kind (name c rest).text := by
  unfold name
  dsimp only
  split_ifs with hrun
  · exact ⟨fun _ => ⟨Name.isName_run hc hrun, rfl⟩,
      fun hnumber => absurd hnumber (Name.kind_ne_numberLiteral _)⟩
  · exact genuine_spelled (by decide)

theorem genuine_first (c : Char) (rest : List Char) :
    Genuine (first c rest).kind (first c rest).text := by
  unfold first
  by_cases hseparator : isSeparator c = true
  · rw [if_pos hseparator]
    exact genuine_spelled (by decide)
  rw [if_neg hseparator]
  cases hpunctuation : punctuation? c with
  | some kind => exact genuine_spelled (punctuation_plain hpunctuation)
  | none =>
    dsimp only
    split_ifs with hnumber hpoint hquote hname
    · exact ⟨fun h => absurd h (by simp [spelled]), fun _ => NumberLiteral.literal_take hnumber⟩
    · exact genuine_spelled (by decide)
    · exact genuine_stringLiteral c rest
    · exact genuine_name hname
    · exact genuine_spelled (by decide)

end Lexeme

namespace Token

def Genuine (t : Token) : Prop := Lexeme.Genuine t.kind t.text.toList

variable {t : Token} {offset : Nat} {text : List Char}

theorem genuine_of_mem (h : t ∈ scanFrom offset text) : t.Genuine := by
  fun_induction scanFrom offset text with
  | case1 offset =>
    obtain rfl := List.mem_singleton.mp h
    exact Lexeme.genuine_of_kind (by simp)
  | case2 offset c rest lexeme ih =>
    cases List.mem_cons.mp h with
    | inl he =>
      subst he
      simpa [Genuine] using Lexeme.genuine_first c rest
    | inr hm => exact ih hm

-- A number literal of a text has a number, which is not NaN
theorem Genuine.exists_number (h : t.Genuine) (ht : t.kind = .numberLiteral) :
    ∃ n, t.number? = some n ∧ n ≠ .nan := by
  obtain ⟨negative, m, hm⟩ := NumberLiteral.exists_read (h.numeral ht)
  exact ⟨.signed negative m, by rw [number?, if_pos ht, hm], by simp⟩

end Token

end DeclarativeOptions
