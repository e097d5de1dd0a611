import DeclarativeOptions.Proofs.Text.Units
import DeclarativeOptions.Proofs.Token.Leading
import DeclarativeOptions.Proofs.Token.Lexeme

namespace DeclarativeOptions.Token

open Lexeme

variable {offset : Nat} {kind : TokenKind} {text chars more rest : List Char}
  {tokens moreTokens : List Token}

-- The tokens of a text that is read from the front, separators left out
def significant (offset : Nat) (text : List Char) : List Token :=
  (scanFrom offset text).filter (·.kind != .separator)

-- The characters in front of the rest of a text are these tokens
def Scans (offset : Nat) (chars rest : List Char) (tokens : List Token) : Prop :=
  significant offset (chars ++ rest) =
    tokens ++ significant (offset + Text.unitCount chars) rest

theorem Scans.append (h : Scans offset chars (more ++ rest) tokens)
    (hmore : Scans (offset + Text.unitCount chars) more rest moreTokens) :
    Scans offset (chars ++ more) rest (tokens ++ moreTokens) := by
  unfold Scans at h hmore ⊢
  rw [List.append_assoc, h, hmore, Text.unitCount_append, List.append_assoc, Nat.add_assoc]

theorem scans_nil : Scans offset [] rest [] := rfl

theorem scans_leads (h : Leads kind text chars rest) (hkind : kind ≠ .separator) :
    Scans offset chars rest [⟨kind, String.ofList text, offset⟩] := by
  unfold Scans significant
  rw [scanFrom_leads offset h]
  simp [hkind]

theorem scans_text {value : String} (h : Leads kind value.toList chars rest)
    (hkind : kind ≠ .separator) : Scans offset chars rest [⟨kind, value, offset⟩] := by
  have hscans : Scans offset chars rest [⟨kind, String.ofList value.toList, offset⟩] :=
    scans_leads h hkind
  rwa [String.ofList_toList] at hscans

theorem significant_cons_separator {c : Char} (hc : isSeparator c = true) :
    significant offset (c :: rest) =
      significant (offset + Text.unitCount (c :: rest.takeWhile isSeparator))
        (rest.dropWhile isSeparator) := by
  have hfirst : first c rest = spelled .separator c rest (rest.takeWhile isSeparator).length := by
    simp [first, hc]
  unfold significant
  rw [scanFrom]
  simp [hfirst, spelled, take_separators, drop_separators]

-- A separator takes all whitespace that follows it, so it may as well take one character of it
theorem scans_separator {c : Char} (hc : isSeparator c = true) : Scans offset [c] rest [] := by
  unfold Scans
  rw [List.singleton_append, List.nil_append, significant_cons_separator hc]
  cases rest with
  | nil => rfl
  | cons next rest =>
    by_cases hnext : isSeparator next = true
    · rw [significant_cons_separator hnext, List.takeWhile_cons_of_pos hnext,
        List.dropWhile_cons_of_pos hnext, Text.unitCount_cons c, Text.unitCount_cons c,
        Text.unitCount_nil, Nat.add_zero, Nat.add_assoc]
    · rw [List.takeWhile_cons_of_neg hnext, List.dropWhile_cons_of_neg hnext]

theorem scans_whitespace (h : ∀ c ∈ chars, isSeparator c = true) : Scans offset chars rest [] := by
  induction chars generalizing offset with
  | nil => exact scans_nil
  | cons c chars ih =>
    have hmore := @ih (offset + Text.unitCount [c]) fun c hc => h c (List.mem_cons_of_mem _ hc)
    exact (scans_separator (h c (by simp))).append hmore

-- What stands between brackets or braces is read on its own
theorem scans_enclosed {opening closing : Char} {kind kind' : TokenKind}
    {inner inside outer : List Char} (hopening : punctuation? opening = some kind)
    (hclosing : punctuation? closing = some kind') (hinner : ∀ c ∈ inner, isSeparator c = true)
    (houter : ∀ c ∈ outer, isSeparator c = true)
    (hinside : Scans (offset + Text.unitCount (opening :: inner)) inside
      (outer ++ closing :: rest) tokens) :
    ∃ offset', Scans offset (opening :: inner ++ inside ++ outer ++ [closing]) rest
      (⟨kind, String.ofList [opening], offset⟩ :: tokens ++
        [⟨kind', String.ofList [closing], offset'⟩]) := by
  have hfirst : Scans offset [opening] (inner ++ (inside ++ (outer ++ closing :: rest)))
      [⟨kind, String.ofList [opening], offset⟩] :=
    scans_leads (leads_punctuation hopening) (punctuation_isDecoded hopening).2
  have hstart := hfirst.append (scans_whitespace hinner)
  have hend := (hstart.append hinside).append (scans_whitespace houter)
  have hlast (offset : Nat) : Scans offset [closing] rest
      [⟨kind', String.ofList [closing], offset⟩] :=
    scans_leads (leads_punctuation hclosing) (punctuation_isDecoded hclosing).2
  have hall := hend.append (hlast _)
  exact ⟨_, by simpa using hall⟩

-- Words that are spelled raw and read as names
theorem scans_word {word : String} (hstart : word.toList.head?.any Name.isStart = true)
    (hpart : word.toList.all Name.isPart = true) (hrest : Ends rest) :
    Scans offset word.toList rest [⟨Name.kind word, word, offset⟩] := by
  have hleads := leads_word hstart hpart hrest
  rw [String.ofList_toList] at hleads
  apply scans_text hleads
  intro hseparator
  have hkind := Name.isDecoded_kind word
  rw [hseparator] at hkind
  simp [TokenKind.isDecoded] at hkind

theorem exists_scans_number {n : Number} (hfinite : n.isFinite = true) (hrest : Stops rest) : ∃ t,
    Scans offset n.keyChars rest [t] ∧ t.kind = .numberLiteral ∧
      t.number? = some n.withoutZeroSign := by
  obtain ⟨text, d, negative, htext, hspells, -⟩ := Number.exists_spells_keyChars hfinite
  have hread := Number.read_keyChars hfinite
  have hleads := leads_number hspells hrest negative
  rw [← htext] at hleads
  exact ⟨_, scans_leads hleads (by simp), rfl, by simpa [number?] using hread⟩

-- What has been scanned to the end of a text are its tokens
theorem filter_scan {input : String} (h : Scans 0 input.toList [] tokens) :
    (scan input).filter (·.kind != .separator) =
      tokens ++ [⟨.eof, "", Text.unitCount input.toList⟩] := by
  unfold Scans at h
  rw [List.append_nil] at h
  simpa [scan, significant, scanFrom] using h

end DeclarativeOptions.Token
