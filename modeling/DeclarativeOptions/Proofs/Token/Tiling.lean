import DeclarativeOptions.Proofs.Text.Units
import DeclarativeOptions.Proofs.Token.Lexeme
import Mathlib.Data.List.Chain

namespace DeclarativeOptions.Token

-- The pieces of a text from the offset of each token to that of the next one
def slices (text : List Char) : List Token → List (List Char)
  | t :: next :: rest => Text.between t.offset next.offset text :: slices text (next :: rest)
  | _ => []

-- What it means that tokens take in a text without loss and without addition
structure Tiles (text : List Char) (tokens : List Token) : Prop where
  ends : ∃ front, tokens = front ++ [⟨.eof, "", Text.unitCount text⟩] ∧
    ∀ t ∈ front, t.kind ≠ .eof
  begins : tokens.head?.map Token.offset = some 0
  increases : tokens.IsChain fun t next => t.offset < next.offset
  boundary : ∀ t ∈ tokens, Text.IsBoundary text t.offset
  slices_length : (slices text tokens).length + 1 = tokens.length
  slices_ne_nil : ∀ piece ∈ slices text tokens, piece ≠ []
  slices_flatten : (slices text tokens).flatten = text
  spelled : ∀ p ∈ tokens.zip (slices text tokens),
    p.1.kind.isDecoded = false → p.1.text.toList = p.2
  separator : ∀ p ∈ tokens.zip (slices text tokens),
    p.1.kind = .separator → ∀ c ∈ p.2, Lexeme.isSeparator c = true
  other : ∀ p ∈ tokens.zip (slices text tokens),
    p.1.kind ≠ .separator → ∀ c ∈ p.2.head?, Lexeme.isSeparator c = false
  apart : tokens.IsChain fun t next => ¬(t.kind = .separator ∧ next.kind = .separator)

-- Tokens laid over a text that begins at an offset, one piece after the other
inductive Laid : Nat → List Char → List Token → Prop where
  | done (offset : Nat) : Laid offset [] [⟨.eof, "", offset⟩]
  | next {offset : Nat} {piece rest : List Char} {t : Token} {tokens : List Token}
      (hoffset : t.offset = offset) (hcovers : Lexeme.Covers t.kind t.text.toList piece rest)
      (hrest : Laid (offset + Text.unitCount piece) rest tokens) :
      Laid offset (piece ++ rest) (t :: tokens)

theorem laid_scanFrom (offset : Nat) (text : List Char) :
    Laid offset text (scanFrom offset text) := by
  fun_induction scanFrom offset text with
  | case1 offset => exact .done offset
  | case2 offset c rest lexeme ih =>
    have hcovers := Lexeme.covers_first c rest
    have htext : c :: rest = (c :: rest.take lexeme.more) ++ rest.drop lexeme.more := by simp
    rw [htext]
    exact .next rfl (by simpa using hcovers) ih

namespace Laid

variable {offset : Nat} {before text : List Char} {tokens : List Token}

theorem exists_cons (h : Laid offset text tokens) :
    ∃ t rest, tokens = t :: rest ∧ t.offset = offset := by
  cases h with
  | done => exact ⟨_, _, rfl, rfl⟩
  | next hoffset _ _ => exact ⟨_, _, rfl, hoffset⟩

theorem ends (h : Laid offset text tokens) :
    ∃ front, tokens = front ++ [⟨.eof, "", offset + Text.unitCount text⟩] ∧
      ∀ t ∈ front, t.kind ≠ .eof := by
  induction h with
  | done offset => exact ⟨[], by simp, by simp⟩
  | @next offset piece rest t tokens _ hcovers _ ih =>
    obtain ⟨front, hfront, hkinds⟩ := ih
    refine ⟨t :: front, ?_, ?_⟩
    · simp [hfront, Nat.add_assoc]
    · intro u hu
      cases List.mem_cons.mp hu with
      | inl he => exact he ▸ hcovers.kind_ne_eof
      | inr hm => exact hkinds u hm

theorem increases (h : Laid offset text tokens) :
    tokens.IsChain fun t next => t.offset < next.offset := by
  induction h with
  | done => exact .singleton _
  | next hoffset hcovers hrest ih =>
    obtain ⟨next, more, rfl, hnext⟩ := hrest.exists_cons
    have hpos := Text.unitCount_pos hcovers.piece_ne_nil
    exact .cons_cons (by omega) ih

-- A separator takes all whitespace there is, so what is behind it begins another kind of token
theorem apart (h : Laid offset text tokens) :
    tokens.IsChain fun t next => ¬(t.kind = .separator ∧ next.kind = .separator) := by
  induction h with
  | done => exact .singleton _
  | @next offset piece rest t tokens hoffset hcovers hrest ih =>
    cases hrest with
    | done => exact .cons_cons (by simp) ih
    | @next _ piece' rest' _ _ _ hcovers' _ =>
      refine .cons_cons ?_ ih
      rintro ⟨hsep, hsep'⟩
      obtain ⟨c, piece', rfl⟩ := List.exists_cons_of_ne_nil hcovers'.piece_ne_nil
      have hfirst := (hcovers.separator hsep).2 c (by simp)
      have hall := (hcovers'.separator hsep').1 c (by simp)
      simp [hfirst] at hall

-- The statements about pieces are proved for the end of a longer text, whose front has been cut
theorem boundary (h : Laid (Text.unitCount before) text tokens) :
    ∀ t ∈ tokens, Text.IsBoundary (before ++ text) t.offset := by
  generalize hoffset : Text.unitCount before = offset at h
  induction h generalizing before with
  | done offset =>
    intro t ht
    obtain rfl := List.mem_singleton.mp ht
    exact ⟨before, [], rfl, hoffset⟩
  | @next offset piece rest t tokens hfirst hcovers hrest ih =>
    intro u hu
    cases List.mem_cons.mp hu with
    | inl he =>
      subst he
      exact ⟨before, piece ++ rest, rfl, hoffset.trans hfirst.symm⟩
    | inr hm =>
      rw [← List.append_assoc]
      exact ih (by simp [hoffset]) u hm

-- The pieces of the tokens are what lies between their offsets
private theorem slices_eq (h : Laid (Text.unitCount before) text tokens) :
    ∃ pieces, slices (before ++ text) tokens = pieces ∧ pieces.length + 1 = tokens.length ∧
      pieces.flatten = text ∧
      ∀ p ∈ tokens.zip pieces, ∃ rest, Lexeme.Covers p.1.kind p.1.text.toList p.2 rest := by
  generalize hoffset : Text.unitCount before = offset at h
  induction h generalizing before with
  | done => exact ⟨[], rfl, rfl, rfl, by simp⟩
  | @next offset piece rest t tokens hfirst hcovers hrest ih =>
    have hmiddle : Text.unitCount (before ++ piece) = offset + Text.unitCount piece := by
      simp [hoffset]
    obtain ⟨pieces, hpieces, hlength, hflatten, hzip⟩ := ih hmiddle
    obtain ⟨next, more, rfl, hnext⟩ := hrest.exists_cons
    have hbetween : Text.between t.offset next.offset (before ++ (piece ++ rest)) = piece := by
      rw [hfirst, hnext, ← hoffset, Text.between_unitCount]
    rw [List.append_assoc] at hpieces
    refine ⟨piece :: pieces, by rw [slices, hbetween, hpieces], by simpa using hlength,
      by simp [hflatten], ?_⟩
    intro p hp
    cases List.mem_cons.mp hp with
    | inl he => exact he ▸ ⟨rest, hcovers⟩
    | inr hm => exact hzip p hm

end Laid

-- The tokens of a text lie end to end over it
theorem tiles_scan (text : String) : Tiles text.toList (scan text) := by
  have hlaid : Laid (Text.unitCount []) text.toList (scan text) := laid_scanFrom 0 text.toList
  obtain ⟨pieces, hpieces, hlength, hflatten, hzip⟩ := hlaid.slices_eq
  rw [List.nil_append] at hpieces
  refine ⟨by simpa using hlaid.ends, ?_, hlaid.increases, hlaid.boundary, by rw [hpieces, hlength],
    ?_, by rw [hpieces, hflatten], ?_, ?_, ?_, hlaid.apart⟩
  · obtain ⟨t, rest, htokens, ht⟩ := hlaid.exists_cons
    simpa [htokens] using ht
  · rw [hpieces]
    intro piece hpiece
    obtain ⟨i, hi, rfl⟩ := List.getElem_of_mem hpiece
    have hmem : ((scan text)[i], pieces[i]) ∈ (scan text).zip pieces := by
      rw [← List.getElem_zip (h := by simp; omega)]
      exact List.getElem_mem _
    obtain ⟨rest, hcovers⟩ := hzip _ hmem
    exact hcovers.piece_ne_nil
  · rw [hpieces]
    intro p hp hkind
    obtain ⟨rest, hcovers⟩ := hzip p hp
    exact hcovers.spelled hkind
  · rw [hpieces]
    intro p hp hkind
    obtain ⟨rest, hcovers⟩ := hzip p hp
    exact (hcovers.separator hkind).1
  · rw [hpieces]
    intro p hp hkind
    obtain ⟨rest, hcovers⟩ := hzip p hp
    exact hcovers.other hkind

-- The tokens of a text that are not separators: one end token, which is the last one
theorem exists_kept (text : String) : ∃ front kept,
    scan text = front ++ [⟨.eof, "", Text.unitCount text.toList⟩] ∧
      front.filter (·.kind != .separator) = kept ∧ (∀ t ∈ kept, t.kind ≠ .eof) ∧
      (scan text).filter (·.kind != .separator) =
        kept ++ [⟨.eof, "", Text.unitCount text.toList⟩] := by
  have hlaid : Laid (Text.unitCount []) text.toList (scan text) := laid_scanFrom 0 text.toList
  obtain ⟨front, htokens, hfront⟩ := hlaid.ends
  rw [Text.unitCount_nil, Nat.zero_add] at htokens
  refine ⟨front, _, htokens, rfl, fun t ht => hfront t (List.mem_filter.mp ht).1, ?_⟩
  simp [htokens]

end DeclarativeOptions.Token
