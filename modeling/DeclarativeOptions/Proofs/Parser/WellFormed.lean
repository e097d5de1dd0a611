import DeclarativeOptions.Proofs.Parser.Expectation
import DeclarativeOptions.Proofs.Token.Content

namespace DeclarativeOptions

-- The name that a chain begins with
def Head.word : Head → String
  | identifier name => name
  | call target _ => target

structure Head.WellFormed (head : Head) : Prop where
  isName : Name.IsName head.word.toList
  not_reserved : head.word ∉ Name.reservedWords
  not_value : head.word ∉ Name.valueWords

-- Behind a point a reserved word is a name like any other
def Accessor.WellFormed : Accessor → Prop
  | name text => Name.IsName text.toList ∧ text ∉ Name.valueWords
  | index (.name _) => True
  | index (.number value) => value ≠ .nan

structure Access.WellFormed (chain : Access) : Prop where
  head : chain.head.WellFormed
  reads : ∀ read ∈ chain.tail, read.WellFormed

namespace Expr

mutual

-- What holds of the chains and numbers everywhere in a tree
def WellFormed : Expr → Prop
  | number value => value ≠ .nan
  | array slots => SlotsWellFormed slots
  | object pairs => PairsWellFormed pairs
  | access chain => chain.WellFormed
  | _ => True
termination_by structural e => e

def SlotsWellFormed : List (Option Expr) → Prop
  | [] => True
  | none :: rest => SlotsWellFormed rest
  | some e :: rest => e.WellFormed ∧ SlotsWellFormed rest
termination_by structural slots => slots

def PairsWellFormed : List (String × Expr) → Prop
  | [] => True
  | (_, e) :: rest => e.WellFormed ∧ PairsWellFormed rest
termination_by structural pairs => pairs

end

end Expr

namespace Grammar

variable {t : Token} {e : Expr} {key : IndexKey} {head : Head} {read : Accessor}
  {reads : List Accessor} {phrase : Phrase} {tokens : List Token}

def Phrase.WellFormed : Phrase → Prop
  | value e => e.WellFormed
  | elements slots => Expr.SlotsWellFormed slots
  | members pairs => Expr.PairsWellFormed pairs

theorem number_ne_nan {n : Number} (ht : t.Genuine) (hkind : t.kind = .numberLiteral)
    (hn : t.number? = some n) : n ≠ .nan := by
  obtain ⟨found, hfound, hne⟩ := ht.exists_number hkind
  obtain rfl := Option.some.inj (hn.symm.trans hfound)
  exact hne

theorem Scalar.wellFormed (h : Scalar e t) (ht : t.Genuine) : e.WellFormed := by
  cases h with
  | number hkind hn => exact number_ne_nan ht hkind hn
  | _ => trivial

theorem Key.wellFormed (h : Key key t) (ht : t.Genuine) : (Accessor.index key).WellFormed := by
  cases h with
  | string => trivial
  | number hkind hn => exact number_ne_nan ht hkind hn

private theorem wellFormed_of_identifier (ht : t.Genuine) (hkind : t.kind = .identifier)
    (hword : head.word = t.text) : head.WellFormed := by
  obtain ⟨hname, hword'⟩ := ht.name (.inl hkind)
  rw [String.ofList_toList, hkind] at hword'
  obtain ⟨hreserved, hvalue⟩ := Name.kind_eq_identifier hword'
  exact ⟨hword ▸ hname, hword ▸ hreserved, hword ▸ hvalue⟩

theorem Start.wellFormed (h : Start head tokens) (htokens : ∀ t ∈ tokens, t.Genuine) :
    head.WellFormed := by
  cases h with
  | identifier ht => exact wellFormed_of_identifier (htokens _ (by simp)) ht rfl
  | call ht => exact wellFormed_of_identifier (htokens _ (by simp)) ht rfl

theorem Suffix.wellFormed (h : Suffix read tokens) (htokens : ∀ t ∈ tokens, t.Genuine) :
    read.WellFormed := by
  cases h with
  | @name point t hpoint ht =>
    obtain ⟨hname, hword⟩ := (htokens t (by simp)).name ht
    rw [String.ofList_toList] at hword
    refine ⟨hname, ?_⟩
    cases ht with
    | inl ht => exact (Name.kind_eq_identifier (hword.trans ht)).2
    | inr ht => exact Name.kind_eq_reservedWord (hword.trans ht)
  | index hopening hkey hclosing => exact hkey.wellFormed (htokens _ (by simp))

theorem Suffixes.wellFormed (h : Suffixes reads tokens) (htokens : ∀ t ∈ tokens, t.Genuine) :
    ∀ read ∈ reads, read.WellFormed := by
  induction h with
  | nil => simp
  | cons hread _ ih =>
    obtain ⟨hfirst, hrest⟩ := List.forall_mem_append.mp htokens
    exact List.forall_mem_cons.mpr ⟨hread.wellFormed hfirst, ih hrest⟩

-- By induction on the derivation: a phrase is as well-formed as its parts
theorem Derives.wellFormed (h : Derives phrase tokens) (htokens : ∀ t ∈ tokens, t.Genuine) :
    phrase.WellFormed := by
  induction h with
  | scalar h => exact h.wellFormed (htokens _ (by simp))
  | access hstart hreads =>
    obtain ⟨hfirst, hrest⟩ := List.forall_mem_append.mp htokens
    exact ⟨hstart.wellFormed hfirst, hreads.wellFormed hrest⟩
  | array _ _ _ ih => exact ih fun t ht => htokens t (by simp [ht])
  | object _ _ _ ih => exact ih fun t ht => htokens t (by simp [ht])
  | noElements => trivial
  | hole _ _ ih => exact ih fun t ht => htokens t (by simp [ht])
  | lastElement _ ih => exact ⟨ih htokens, trivial⟩
  | element _ _ _ ih ihRest =>
    exact ⟨ih fun t ht => htokens t (by simp [ht]), ihRest fun t ht => htokens t (by simp [ht])⟩
  | noMembers => trivial
  | lastMember _ _ _ ih => exact ⟨ih fun t ht => htokens t (by simp [ht]), trivial⟩
  | member _ _ _ _ _ ih ihRest =>
    exact ⟨ih fun t ht => htokens t (by simp [ht]), ihRest fun t ht => htokens t (by simp [ht])⟩

end Grammar

namespace Parser

-- The trees of texts do not nest too deeply, their chains begin with names that are no keywords, a
-- point stands before a name only, and none of their numbers is NaN. Scanned numbers are never at
-- fault.
theorem parse_wellFormed (text : String) :
    (∀ e, Expr.parse text = .ok e → e.nesting ≤ maxDepth ∧ e.WellFormed) ∧
    (∀ err, Expr.parse text = .error err → err.expected ≠ .one .numberLiteral) ∧
    ∀ t ∈ Token.scan text, t.kind = .numberLiteral → ∃ n, t.number? = some n ∧ n ≠ .nan := by
  have hgenuine : ∀ t ∈ Token.scan text, t.Genuine := fun t ht => Token.genuine_of_mem ht
  have hkept {t : Token} (ht : t ∈ (Token.scan text).filter (·.kind != .separator)) : t.Genuine :=
    hgenuine t (List.mem_filter.mp ht).1
  refine ⟨fun e h => ?_, fun err h => ?_, fun t ht hkind => (hgenuine t ht).exists_number hkind⟩
  · obtain ⟨front, endOffset, htokens, hderives, hfits⟩ := derives_of_parse h
    exact ⟨hfits, hderives.wellFormed fun t ht => hkept (by simp [htokens, ht])⟩
  · obtain ⟨front, t, more, s, htokens, -, hrefuses, rfl⟩ := exists_refused_of_parse h
    have ht : t.Genuine := hkept (by simp [htokens])
    refine expected_ne_numberLiteral hrefuses fun hkind => ?_
    obtain ⟨n, hn, -⟩ := ht.exists_number hkind
    simp [hn]

private theorem scan_escaped_chain : Token.scan "\\u0061.if" =
    [⟨.identifier, "a", 0⟩, ⟨.dot, ".", 6⟩, ⟨.reservedWord, "if", 7⟩, ⟨.eof, "", 9⟩] := by
  have hescaped : Name.run Name.isStart ['\\', 'u', '0', '0', '6', '1', '.', 'i', 'f'] =
      ⟨['a'], 6, true⟩ := by
    have hescape : Name.escape Name.isStart ['u', '0', '0', '6', '1', '.', 'i', 'f'] =
        .ok ('a', 5) := rfl
    have hend : Name.run Name.isPart ['.', 'i', 'f'] = ⟨[], 0, true⟩ := by
      rw [Name.run_cons]
      rfl
    simp only [Name.run_cons, hescape]
    simp [hend, Name.Run.extend]
  have hplain : Name.run Name.isStart ['i', 'f'] = ⟨['i', 'f'], 2, true⟩ := by
    have hend : Name.run Name.isPart [] = ⟨[], 0, true⟩ := by rw [Name.run]
    have hpart : Name.isPart 'i' = true ∧ Name.isPart 'f' = true := by decide
    simp [Name.run_cons, hend, hpart, Name.Run.extend]
  have hhead : Lexeme.first '\\' ['u', '0', '0', '6', '1', '.', 'i', 'f'] =
      ⟨.identifier, ['a'], 5⟩ := by
    have hkind : Name.kind (String.ofList ['a']) = .identifier := by decide
    change Lexeme.name '\\' ['u', '0', '0', '6', '1', '.', 'i', 'f'] = _
    simp [Lexeme.name, hescaped, hkind]
  have hdot : Lexeme.first '.' ['i', 'f'] = ⟨.dot, ['.'], 0⟩ := rfl
  have hread : Lexeme.first 'i' ['f'] = ⟨.reservedWord, ['i', 'f'], 1⟩ := by
    have hkind : Name.kind (String.ofList ['i', 'f']) = .reservedWord := by decide
    change Lexeme.name 'i' ['f'] = _
    simp [Lexeme.name, hplain, hkind]
  have hchars : "\\u0061.if".toList = ['\\', 'u', '0', '0', '6', '1', '.', 'i', 'f'] := rfl
  rw [Token.scan, hchars]
  simp [Token.scanFrom, hhead, hdot, hread]
  decide

-- The name is `a`, and behind the point a keyword is a name
theorem parse_wellFormed_escaped :
    let chain : Access := ⟨.identifier "a", [.name "if"]⟩
    Expr.parse "\\u0061.if" = .ok (.access chain) ∧ chain.WellFormed := by
  have h : Expr.parse "\\u0061.if" = .ok (.access ⟨.identifier "a", [.name "if"]⟩) := by
    rw [Expr.parse, ofText, scan_escaped_chain]
    rfl
  exact ⟨h, ((parse_wellFormed _).1 _ h).2⟩

end Parser

end DeclarativeOptions
