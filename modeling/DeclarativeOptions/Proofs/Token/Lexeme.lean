import DeclarativeOptions.Token.Scan
import Mathlib.Data.List.TakeWhile

namespace DeclarativeOptions

-- The kinds whose text is the meaning of what is written and not its spelling
def TokenKind.isDecoded : TokenKind → Bool
  | stringLiteral | identifier | reservedWord | thisKeyword | trueLiteral | falseLiteral
  | nullLiteral => true
  | _ => false

-- A name is a keyword or an identifier, and nothing else
theorem Name.isDecoded_kind (name : String) : (Name.kind name).isDecoded = true := by
  unfold Name.kind
  split_ifs <;> rfl

namespace Lexeme

-- What holds of a token that covers `piece` and is followed by `rest`
structure Covers (kind : TokenKind) (text piece rest : List Char) : Prop where
  piece_ne_nil : piece ≠ []
  kind_ne_eof : kind ≠ .eof
  spelled : kind.isDecoded = false → text = piece
  separator : kind = .separator →
    (∀ c ∈ piece, isSeparator c = true) ∧ ∀ c ∈ rest.head?, isSeparator c = false
  other : kind ≠ .separator → ∀ c ∈ piece.head?, isSeparator c = false

variable {c : Char} {rest : List Char}

private theorem covers_spelled (kind : TokenKind) (more : Nat) (hc : isSeparator c = false)
    (heof : kind ≠ .eof) (hsep : kind ≠ .separator) :
    Covers kind (spelled kind c rest more).text (c :: rest.take more) (rest.drop more) where
  piece_ne_nil := by simp
  kind_ne_eof := heof
  spelled _ := rfl
  separator h := absurd h hsep
  other _ := by simpa using hc

private theorem covers_decoded {kind : TokenKind} (text : List Char) (more : Nat)
    (hc : isSeparator c = false) (hkind : kind.isDecoded = true) :
    Covers kind text (c :: rest.take more) (rest.drop more) where
  piece_ne_nil := by simp
  kind_ne_eof := by rintro rfl; simp [TokenKind.isDecoded] at hkind
  spelled h := by simp [hkind] at h
  separator h := by subst h; simp [TokenKind.isDecoded] at hkind
  other _ := by simpa using hc

theorem take_separators (rest : List Char) :
    rest.take (rest.takeWhile isSeparator).length = rest.takeWhile isSeparator :=
  (List.prefix_iff_eq_take.mp (List.takeWhile_prefix _)).symm

theorem drop_separators (rest : List Char) :
    rest.drop (rest.takeWhile isSeparator).length = rest.dropWhile isSeparator := by
  have hdrop : (rest.takeWhile isSeparator ++ rest.dropWhile isSeparator).drop
      (rest.takeWhile isSeparator).length = rest.dropWhile isSeparator := List.drop_left' rfl
  rwa [List.takeWhile_append_dropWhile] at hdrop

-- Whitespace is taken as far as it goes, so that what follows does not begin with whitespace
private theorem covers_separator (hc : isSeparator c = true) :
    Covers .separator (c :: rest.takeWhile isSeparator)
      (c :: rest.take (rest.takeWhile isSeparator).length)
      (rest.drop (rest.takeWhile isSeparator).length) := by
  rw [take_separators, drop_separators]
  refine ⟨by simp, by simp, fun _ => rfl, fun _ => ⟨?_, ?_⟩, fun h => absurd rfl h⟩
  · intro d hd
    cases List.mem_cons.mp hd with
    | inl he => exact he ▸ hc
    | inr hm => exact List.mem_takeWhile_imp hm
  · intro d hd
    have hfirst := List.head?_dropWhile_not isSeparator rest
    rw [Option.mem_def.mp hd] at hfirst
    simpa using hfirst

theorem punctuation_isDecoded {kind : TokenKind} (h : punctuation? c = some kind) :
    kind ≠ .eof ∧ kind ≠ .separator := by
  unfold punctuation? at h
  split at h <;> simp_all <;> subst h <;> simp

private theorem covers_stringLiteral (hc : isSeparator c = false) :
    Covers (stringLiteral c rest).kind (stringLiteral c rest).text
      (c :: rest.take (stringLiteral c rest).more) (rest.drop (stringLiteral c rest).more) := by
  unfold stringLiteral
  split
  · exact covers_decoded _ _ hc rfl
  · exact covers_spelled _ _ hc (by simp [spelled]) (by simp [spelled])

private theorem covers_name (hc : isSeparator c = false) :
    Covers (name c rest).kind (name c rest).text
      (c :: rest.take (name c rest).more) (rest.drop (name c rest).more) := by
  unfold name
  dsimp only
  split_ifs
  · exact covers_decoded _ _ hc (Name.isDecoded_kind _)
  · exact covers_spelled _ _ hc (by simp [spelled]) (by simp [spelled])

-- The token at the front of a text covers what is in front of the rest of the text
theorem covers_first (c : Char) (rest : List Char) :
    Covers (first c rest).kind (first c rest).text
      (c :: rest.take (first c rest).more) (rest.drop (first c rest).more) := by
  unfold first
  by_cases hc : isSeparator c = true
  · simp only [hc, ite_true]
    have htext : (spelled .separator c rest (rest.takeWhile isSeparator).length).text =
        c :: rest.takeWhile isSeparator := by
      rw [spelled, take_separators]
    rw [htext]
    exact covers_separator hc
  · have hc : isSeparator c = false := by simpa using hc
    simp only [hc, Bool.false_eq_true, ite_false]
    split
    · rename_i kind hkind
      obtain ⟨heof, hsep⟩ := punctuation_isDecoded hkind
      exact covers_spelled kind _ hc heof hsep
    · split_ifs
      · exact covers_spelled _ _ hc (by simp [spelled]) (by simp [spelled])
      · exact covers_spelled _ _ hc (by simp [spelled]) (by simp [spelled])
      · exact covers_stringLiteral hc
      · exact covers_name hc
      · exact covers_spelled _ _ hc (by simp [spelled]) (by simp [spelled])

end Lexeme

end DeclarativeOptions
