import DeclarativeOptions.Proofs.Token.Escaped
import DeclarativeOptions.Proofs.Token.Significant
import Mathlib.Data.List.Forall2

namespace DeclarativeOptions

namespace Lexeme

open NumberLiteral

variable {c : Char} {kind : TokenKind} {text chars rest rest' blanks : List Char}

-- A string literal that has been opened and is never closed
def IsOpenString (chars : List Char) : Prop :=
  ∃ quote body, chars = quote :: body ∧ (quote = '"' ∨ quote = '\'') ∧
    StringLiteral.read? quote body = none

private theorem name_more_le (c : Char) (rest : List Char) : (name c rest).more ≤ rest.length := by
  have hle := Name.length_run_le Name.isStart (c :: rest)
  rw [List.length_cons] at hle
  have hmore : (name c rest).more = (Name.run Name.isStart (c :: rest)).length - 1 := by
    unfold name
    dsimp only
    split_ifs <;> rfl
  omega

private theorem stringLiteral_more_le (c : Char) (rest : List Char) :
    (stringLiteral c rest).more ≤ rest.length := by
  unfold stringLiteral
  cases hread : StringLiteral.read? c rest with
  | none => exact Nat.le_refl _
  | some found =>
    obtain ⟨inside, after, rfl, hlength⟩ := StringLiteral.exists_of_read hread
    simp only [hlength, List.length_append, List.length_cons]
    omega

-- A token takes nothing behind the end of the text
theorem first_more_le (c : Char) (rest : List Char) : (first c rest).more ≤ rest.length := by
  unfold first
  by_cases hc : isSeparator c = true
  · rw [if_pos hc]
    exact (List.takeWhile_prefix isSeparator).length_le
  rw [if_neg hc]
  cases punctuation? c with
  | some kind => exact Nat.zero_le _
  | none =>
    have hnumber := numberLength_le c rest
    dsimp only
    split_ifs
    · simp only [spelled]
      omega
    · exact Nat.zero_le _
    · exact stringLiteral_more_le c rest
    · exact name_more_le c rest
    · exact Nat.zero_le _

-- The token that a text begins with, in front of the rest of the text
private theorem leads_first (c : Char) (rest : List Char) :
    Leads (first c rest).kind (first c rest).text (c :: rest.take (first c rest).more)
      (rest.drop (first c rest).more) := by
  refine ⟨c, rest.take (first c rest).more, rfl, ?_⟩
  rw [List.take_append_drop, List.length_take_of_le (first_more_le c rest)]

theorem spelled_steady {more : List Char} {found : TokenKind} {length : Nat}
    (h : spelled found c (more ++ rest) length = ⟨kind, text, more.length⟩) (rest' : List Char) :
    length = more.length ∧
      spelled found c (more ++ rest') more.length = ⟨kind, text, more.length⟩ := by
  obtain ⟨hkind, htext, rfl⟩ := Lexeme.mk.inj h
  refine ⟨rfl, ?_⟩
  rw [List.take_left] at htext
  rw [spelled, List.take_left, hkind, htext]

private theorem name_steady {more : List Char} (hstart : Name.isStart c = true ∨ c = '\\')
    (h : name c (more ++ rest) = ⟨kind, text, more.length⟩) (hopens : Opens rest rest') :
    name c (more ++ rest') = ⟨kind, text, more.length⟩ := by
  have hpos : 0 < (Name.run Name.isStart (c :: (more ++ rest))).length :=
    Name.length_run_pos (hstart.imp_left isPart_of_isStart)
  have hlength : (Name.run Name.isStart (c :: more ++ rest)).length = (c :: more).length := by
    have hmore := congrArg Lexeme.more h
    simp only [name] at hmore
    rw [List.cons_append, List.length_cons]
    split_ifs at hmore
    all_goals
      simp only [spelled] at hmore
      omega
  have hrun := Name.run_steady hlength hopens
  rw [List.cons_append, List.cons_append] at hrun
  unfold name at h ⊢
  rw [hrun]
  dsimp only at h ⊢
  split_ifs at h ⊢
  · exact h
  · obtain ⟨hequal, hsteady⟩ := spelled_steady h rest'
    rw [hequal, hsteady]

private theorem stringLiteral_steady {more : List Char} (hquote : c = '"' ∨ c = '\'')
    (h : stringLiteral c (more ++ rest) = ⟨kind, text, more.length⟩)
    (hclosed : kind = .error → ¬IsOpenString (c :: more)) (hopens : Opens rest rest') :
    stringLiteral c (more ++ rest') = ⟨kind, text, more.length⟩ := by
  unfold stringLiteral at h ⊢
  cases hread : StringLiteral.read? c (more ++ rest) with
  | some found =>
    rw [hread] at h
    obtain ⟨rfl, rfl, hlength⟩ := Lexeme.mk.inj h
    have hread' : StringLiteral.read? c (more ++ rest) = some (found.1, more.length) := by
      rw [hread, ← hlength]
    rw [StringLiteral.read_steady hread' hopens]
  | none =>
    rw [hread] at h
    obtain ⟨hkind, -, hlength⟩ := Lexeme.mk.inj h
    obtain rfl : rest = [] := by
      rw [List.length_append] at hlength
      exact List.eq_nil_of_length_eq_zero (by omega)
    rw [List.append_nil] at hread
    exact absurd ⟨c, more, rfl, hquote, hread⟩ (hclosed hkind.symm)

-- A token stays the same when whitespace is put in behind it, unless it is a separator or a string
-- that has been left open
theorem leads_of_opens (h : Leads kind text chars rest) (hseparator : kind ≠ .separator)
    (hclosed : kind = .error → ¬IsOpenString chars) (hopens : Opens rest rest') :
    Leads kind text chars rest' := by
  obtain ⟨c, more, rfl, hfirst⟩ := h
  refine ⟨c, more, rfl, ?_⟩
  unfold first at hfirst ⊢
  by_cases hc : isSeparator c = true
  · rw [if_pos hc] at hfirst
    exact absurd (congrArg Lexeme.kind hfirst).symm hseparator
  rw [if_neg hc] at hfirst ⊢
  cases hpunctuation : punctuation? c with
  | some found =>
    rw [hpunctuation] at hfirst
    obtain ⟨hzero, hsteady⟩ := spelled_steady hfirst rest'
    dsimp only
    rw [hzero, hsteady]
  | none =>
    rw [hpunctuation] at hfirst
    dsimp only at hfirst ⊢
    by_cases hstarts : starts (c :: (more ++ rest)) = true
    · rw [if_pos hstarts] at hfirst
      obtain ⟨hmore, hsteady⟩ := spelled_steady hfirst rest'
      have hpos := numberLength_pos hstarts
      obtain ⟨hstarts', hlength⟩ := number_steady hstarts (by omega) hopens
      rw [if_pos hstarts', hlength, Nat.add_sub_cancel, hsteady]
    have hstarts' : ¬starts (c :: (more ++ rest')) = true := fun hstarts' =>
      hstarts (starts_of_opens (hopens.append (c :: more)) hstarts')
    rw [if_neg hstarts] at hfirst
    rw [if_neg hstarts']
    by_cases hdot : c = '.'
    · rw [if_pos hdot] at hfirst ⊢
      obtain ⟨hzero, hsteady⟩ := spelled_steady hfirst rest'
      rw [hzero, hsteady]
    rw [if_neg hdot] at hfirst ⊢
    by_cases hquote : c = '"' ∨ c = '\''
    · rw [if_pos hquote] at hfirst ⊢
      exact stringLiteral_steady hquote hfirst hclosed hopens
    rw [if_neg hquote] at hfirst ⊢
    by_cases hstart : Name.isStart c = true ∨ c = '\\'
    · rw [if_pos hstart] at hfirst ⊢
      exact name_steady hstart hfirst hopens
    · rw [if_neg hstart] at hfirst ⊢
      obtain ⟨hzero, hsteady⟩ := spelled_steady hfirst rest'
      rw [hzero, hsteady]

-- A string that has been left open takes all of the text
theorem leads_of_isOpenString (h : IsOpenString chars) : Leads .error chars chars [] := by
  obtain ⟨quote, body, rfl, hquote, hread⟩ := h
  refine ⟨quote, body, rfl, ?_⟩
  rw [List.append_nil, first_quote hquote, stringLiteral, hread]
  simp only [spelled, List.take_length]

theorem IsOpenString.append (h : IsOpenString chars)
    (hblanks : ∀ c ∈ blanks, isSeparator c = true) : IsOpenString (chars ++ blanks) := by
  obtain ⟨quote, body, rfl, hquote, hread⟩ := h
  have hseparator : isSeparator quote = false := by obtain rfl | rfl := hquote <;> decide
  exact ⟨quote, body ++ blanks, rfl, hquote,
    StringLiteral.read_append_separators hseparator hblanks hread⟩

-- Nothing follows a string that has been left open
private theorem rest_eq_nil (h : Leads .error text chars rest) (hopened : IsOpenString chars) :
    rest = [] := by
  obtain ⟨quote, body, rfl, hquote, hread⟩ := hopened
  obtain ⟨c, more, hchars, hfirst⟩ := h
  obtain ⟨rfl, rfl⟩ := List.cons.inj hchars
  rw [first_quote hquote, stringLiteral] at hfirst
  cases hmore : StringLiteral.read? quote (body ++ rest) with
  | some found => simp [hmore] at hfirst
  | none =>
    rw [hmore] at hfirst
    have hlength := congrArg Lexeme.more hfirst
    simp only [spelled, List.length_append] at hlength
    exact List.eq_nil_of_length_eq_zero (by omega)

end Lexeme

-- A text with characters put in at the given UTF-16 offsets of it
def Text.insertAt (blanks : Nat → List Char) (offset : Nat) : List Char → List Char
  | [] => blanks offset
  | c :: rest =>
    blanks offset ++ c :: insertAt blanks (offset + (Text.charUnits c).length) rest

namespace Text

variable {blanks : Nat → List Char} {offset : Nat} {c : Char} {piece rest : List Char}

-- A piece of the text that nothing is put into
theorem insertAt_append
    (hblanks : ∀ o, offset ≤ o → o < offset + unitCount piece → blanks o = []) :
    insertAt blanks offset (piece ++ rest) =
      piece ++ insertAt blanks (offset + unitCount piece) rest := by
  induction piece generalizing offset with
  | nil => rfl
  | cons c piece ih =>
    rw [unitCount_cons] at hblanks ⊢
    have hc := charUnits_length_pos c
    have hhere : blanks offset = [] := hblanks offset (by omega) (by omega)
    have hmore := @ih (offset + (charUnits c).length) fun o hlow hhigh =>
      hblanks o (by omega) (by omega)
    rw [List.cons_append, insertAt, hhere, hmore, Nat.add_assoc]
    rfl

-- A piece of the text that nothing is put into but in front of it
private theorem insertAt_cons_append
    (hblanks : ∀ o, offset < o → o < offset + unitCount (c :: piece) → blanks o = []) :
    insertAt blanks offset (c :: piece ++ rest) =
      blanks offset ++ (c :: piece ++
        insertAt blanks (offset + unitCount (c :: piece)) rest) := by
  rw [unitCount_cons] at hblanks ⊢
  have hc := charUnits_length_pos c
  have hmore : insertAt blanks (offset + (charUnits c).length) (piece ++ rest) =
      piece ++ insertAt blanks (offset + (charUnits c).length + unitCount piece) rest :=
    insertAt_append fun o hlow hhigh => hblanks o (by omega) (by omega)
  rw [List.cons_append, insertAt, hmore, Nat.add_assoc]
  rfl

end Text

namespace Lexeme

-- Whitespace that is put in does not make a text begin with more than it did
theorem opens_insertAt {blanks : Nat → List Char}
    (hblanks : ∀ o, ∀ c ∈ blanks o, isSeparator c = true) (offset : Nat) (text : List Char) :
    Opens text (Text.insertAt blanks offset text) := by
  induction text generalizing offset with
  | nil => exact opens_separators (hblanks offset)
  | cons c text ih =>
    rw [Text.insertAt]
    cases hhere : blanks offset with
    | nil => exact (ih _).cons c
    | cons blank more => exact opens_separator (hblanks offset blank (by simp [hhere]))

end Lexeme

namespace Token

open Lexeme

-- A string that has been left open up to the end of the text
structure IsUnfinished (stop : Nat) (t : Token) : Prop where
  kind : t.kind = .error
  opened : IsOpenString t.text.toList
  ends : t.offset + Text.unitCount t.text.toList = stop

-- Tokens of two texts of the given lengths that mean the same
structure Alike (stop stop' : Nat) (t t' : Token) : Prop where
  kind : t.kind = t'.kind
  text : t.text = t'.text ∨ t.IsUnfinished stop ∧ t'.IsUnfinished stop'

variable {blanks : Nat → List Char} {offset offset' stop stop' : Nat} {kind : TokenKind}
  {text chars space rest : List Char} {t : Token}

theorem le_offset_of_mem (h : t ∈ scanFrom offset text) : offset ≤ t.offset := by
  fun_induction scanFrom offset text with
  | case1 offset =>
    obtain rfl := List.mem_singleton.mp h
    exact Nat.le_refl _
  | case2 offset c rest lexeme ih =>
    cases List.mem_cons.mp h with
    | inl hhead => rw [hhead]
    | inr htail => exact Nat.le_trans (Nat.le_add_right _ _) (ih htail)

-- Whitespace is put in only where a token begins
def Between (blanks : Nat → List Char) (offset : Nat) (text : List Char) : Prop :=
  ∀ o, offset ≤ o → blanks o ≠ [] → ∃ t ∈ scanFrom offset text, t.offset = o

-- So nothing is put into the first token, and the same holds of the text behind it
theorem Between.tail {c : Char} (h : Between blanks offset (c :: rest)) :
    let piece := c :: rest.take (first c rest).more
    (∀ o, offset < o → o < offset + Text.unitCount piece → blanks o = []) ∧
      Between blanks (offset + Text.unitCount piece) (rest.drop (first c rest).more) := by
  intro piece
  have hpiece : 0 < Text.unitCount piece := Text.unitCount_pos (List.cons_ne_nil _ _)
  have hmore : ∀ o, offset < o → blanks o ≠ [] →
      ∃ t ∈ scanFrom (offset + Text.unitCount piece) (rest.drop (first c rest).more),
        t.offset = o := by
    intro o ho hne
    obtain ⟨t, ht, hoffset⟩ := h o (Nat.le_of_lt ho) hne
    rw [scanFrom] at ht
    cases List.mem_cons.mp ht with
    | inl hhead =>
      rw [hhead] at hoffset
      exact absurd hoffset (Nat.ne_of_lt ho)
    | inr htail => exact ⟨t, htail, hoffset⟩
  refine ⟨fun o hlow hhigh => ?_, fun o ho hne => hmore o (by omega) hne⟩
  by_contra hne
  obtain ⟨t, ht, hoffset⟩ := hmore o hlow hne
  have hle := le_offset_of_mem ht
  omega

theorem significant_nil : significant offset [] = [⟨.eof, "", offset⟩] := by
  rw [significant, scanFrom]
  rfl

-- Scanning goes on behind a token
theorem significant_leads (h : Leads kind text chars rest) (hkind : kind ≠ .separator) :
    significant offset (chars ++ rest) =
      ⟨kind, String.ofList text, offset⟩ :: significant (offset + Text.unitCount chars) rest :=
  scans_leads h hkind

-- Scanning goes on behind whitespace
theorem significant_append (h : ∀ c ∈ chars, isSeparator c = true) :
    significant offset (chars ++ rest) = significant (offset + Text.unitCount chars) rest :=
  scans_whitespace h

theorem significant_of_isOpenString (h : IsOpenString chars) : significant offset chars =
    [⟨.error, String.ofList chars, offset⟩, ⟨.eof, "", offset + Text.unitCount chars⟩] := by
  have hscan : significant offset (chars ++ []) = _ :=
    significant_leads (leads_of_isOpenString h) (by simp)
  rwa [List.append_nil, significant_nil] at hscan

theorem isUnfinished_of_isOpenString (h : IsOpenString chars) :
    IsUnfinished (offset + Text.unitCount chars) ⟨.error, String.ofList chars, offset⟩ where
  kind := rfl
  opened := by rwa [String.toList_ofList]
  ends := by rw [String.toList_ofList]

-- Whitespace at the end of the text goes into a string that has been left open
theorem alike_unfinished (hopened : IsOpenString chars)
    (hspace : ∀ c ∈ space, isSeparator c = true) :
    List.Forall₂ (Alike (offset + Text.unitCount chars) (offset' + Text.unitCount (chars ++ space)))
      (significant offset chars) (significant offset' (chars ++ space)) := by
  have hopened' := hopened.append hspace
  rw [significant_of_isOpenString hopened, significant_of_isOpenString hopened']
  have hunfinished : Alike (offset + Text.unitCount chars)
      (offset' + Text.unitCount (chars ++ space)) ⟨.error, String.ofList chars, offset⟩
      ⟨.error, String.ofList (chars ++ space), offset'⟩ :=
    ⟨rfl, .inr ⟨isUnfinished_of_isOpenString hopened, isUnfinished_of_isOpenString hopened'⟩⟩
  exact .cons hunfinished (.cons ⟨rfl, .inl rfl⟩ .nil)

-- The induction is on the scanning of the text that nothing has been put into
theorem alike_significant (hblanks : ∀ o, ∀ c ∈ blanks o, isSeparator c = true)
    (hbetween : Between blanks offset text) (hstop : offset + Text.unitCount text = stop)
    (hstop' : offset' + Text.unitCount (Text.insertAt blanks offset text) = stop') :
    List.Forall₂ (Alike stop stop') (significant offset text)
      (significant offset' (Text.insertAt blanks offset text)) := by
  induction offset, text using scanFrom.induct generalizing offset' with
  | case1 offset =>
    have hspace : significant offset' (blanks offset) =
        significant (offset' + Text.unitCount (blanks offset)) [] := by
      have happend : significant offset' (blanks offset ++ []) = _ :=
        significant_append (hblanks offset)
      rwa [List.append_nil] at happend
    rw [Text.insertAt, hspace, significant_nil, significant_nil]
    exact .cons ⟨rfl, .inl rfl⟩ .nil
  | case2 offset c rest lexeme =>
    rename_i ih
    obtain ⟨hinside, hmore⟩ := hbetween.tail
    have hcovers : Covers lexeme.kind lexeme.text (c :: rest.take lexeme.more)
        (rest.drop lexeme.more) := covers_first c rest
    have hleads : Leads lexeme.kind lexeme.text (c :: rest.take lexeme.more)
        (rest.drop lexeme.more) := leads_first c rest
    have htext : c :: rest = c :: rest.take lexeme.more ++ rest.drop lexeme.more := by simp
    rw [htext] at hstop hstop' ⊢
    rw [Text.insertAt_cons_append hinside] at hstop' ⊢
    rw [significant_append (hblanks offset)]
    generalize c :: rest.take lexeme.more = piece at *
    generalize rest.drop lexeme.more = tail at *
    simp only [Text.unitCount_append] at hstop hstop'
    have htail := @ih (offset' + Text.unitCount (blanks offset) + Text.unitCount piece) hmore
      (by omega) (by omega)
    by_cases hseparator : lexeme.kind = .separator
    · rw [significant_append (hcovers.separator hseparator).1,
        significant_append (hcovers.separator hseparator).1]
      exact htail
    by_cases hopened : lexeme.kind = .error ∧ IsOpenString piece
    · obtain rfl := rest_eq_nil (hopened.1 ▸ hleads) hopened.2
      rw [Text.insertAt] at hstop' ⊢
      rw [List.append_nil]
      obtain rfl : offset + Text.unitCount piece = stop := hstop
      obtain rfl : offset' + Text.unitCount (blanks offset) +
          Text.unitCount (piece ++ blanks (offset + Text.unitCount piece)) = stop' := by
        rw [Text.unitCount_append]
        omega
      exact alike_unfinished hopened.2 (hblanks _)
    · have hopens := opens_insertAt hblanks (offset + Text.unitCount piece) tail
      have hleads' := leads_of_opens hleads hseparator (not_and.mp hopened) hopens
      rw [significant_leads hleads hseparator, significant_leads hleads' hseparator]
      exact .cons ⟨rfl, .inl rfl⟩ htail

end Token

end DeclarativeOptions
