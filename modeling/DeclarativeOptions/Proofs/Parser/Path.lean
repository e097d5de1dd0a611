import DeclarativeOptions.Proofs.Evaluation.Chains
import DeclarativeOptions.Proofs.Evaluation.Reading
import DeclarativeOptions.Proofs.Number.Key
import DeclarativeOptions.Proofs.Parser.WellFormed
import DeclarativeOptions.Proofs.Token.NameSpelling
import DeclarativeOptions.Proofs.Token.Significant

namespace DeclarativeOptions

-- Chains whose strings can stand between quotes as they are, with finite numbers. Strings stand in
-- a path as they are, so that other chains are not read back from their path.
def Head.isBare : Head → Bool
  | identifier _ => true
  | call _ argument => Text.isBare argument.toList

def IndexKey.isBare : IndexKey → Bool
  | name text => Text.isBare text.toList
  | number value => value.isFinite

def Accessor.isBare : Accessor → Bool
  | name _ => true
  | index key => key.isBare

def Access.isBare (a : Access) : Bool := a.head.isBare && a.tail.all Accessor.isBare

-- What a path tells of a chain: everything but the sign of zero

def IndexKey.withoutZeroSign : IndexKey → IndexKey
  | name text => name text
  | number value => number value.withoutZeroSign

def Accessor.withoutZeroSign : Accessor → Accessor
  | name text => name text
  | index key => index key.withoutZeroSign

def Access.withoutZeroSign (a : Access) : Access := ⟨a.head, a.tail.map Accessor.withoutZeroSign⟩

variable {offset : Nat} {rest : List Char} {head : Head} {key : IndexKey} {read : Accessor}
  {tail : List Accessor} {a : Access} {text : String} {e : Expr}

theorem IndexKey.keyChars_withoutZeroSign (key : IndexKey) :
    key.withoutZeroSign.keyChars = key.keyChars := by
  cases key with
  | name text => rfl
  | number value => exact Number.keyChars_withoutZeroSign value

theorem Accessor.pathChars_withoutZeroSign (read : Accessor) :
    read.withoutZeroSign.pathChars = read.pathChars := by
  cases read with
  | name text => rfl
  | index key => rw [withoutZeroSign, pathChars, pathChars, key.keyChars_withoutZeroSign]

theorem Access.path_withoutZeroSign (a : Access) : a.withoutZeroSign.path = a.path := by
  simp [path, pathChars, withoutZeroSign, List.flatMap_map, Accessor.pathChars_withoutZeroSign]

theorem Access.isBare_upTo (h : a.isBare = true) (count : Nat) : (a.upTo count).isBare = true := by
  simp only [isBare, Bool.and_eq_true, List.all_eq_true] at h ⊢
  exact ⟨h.1, fun read hread => h.2 read (List.mem_of_mem_take hread)⟩

theorem Access.WellFormed.upTo (h : a.WellFormed) (count : Nat) : (a.upTo count).WellFormed :=
  ⟨h.head, fun read hread => h.reads read (List.mem_of_mem_take hread)⟩

-- The chains of a well-formed tree are well-formed

namespace Expr

mutual

theorem WellFormed.chains : (e : Expr) → e.WellFormed → ∀ a ∈ e.chains, a.WellFormed
  | null, _ | boolean _, _ | number _, _ | string _, _ => by simp [Expr.chains]
  | array slots, h => SlotsWellFormed.chains slots h
  | object pairs, h => PairsWellFormed.chains pairs h
  | access chain, h => List.forall_mem_singleton.mpr h

theorem SlotsWellFormed.chains : (slots : List (Option Expr)) → SlotsWellFormed slots →
    ∀ a ∈ slotsChains slots, a.WellFormed
  | [], _ => by simp [slotsChains]
  | none :: rest, h => SlotsWellFormed.chains rest h
  | some e :: rest, h =>
    List.forall_mem_append.mpr ⟨WellFormed.chains e h.1, SlotsWellFormed.chains rest h.2⟩

theorem PairsWellFormed.chains : (pairs : List (String × Expr)) → PairsWellFormed pairs →
    ∀ a ∈ pairsChains pairs, a.WellFormed
  | [], _ => by simp [pairsChains]
  | (_, e) :: rest, h =>
    List.forall_mem_append.mpr ⟨WellFormed.chains e h.1, PairsWellFormed.chains rest h.2⟩

end

end Expr

namespace Parser

open Grammar Lexeme Token

theorem wellFormed_of_mem_chains (h : Expr.parse text = .ok e) (ha : a ∈ e.chains) :
    a.WellFormed := by
  obtain ⟨front, endOffset, htokens, hderives, -⟩ := derives_of_parse h
  have hgenuine : ∀ t ∈ front, t.Genuine := by
    intro t ht
    have hkept : t ∈ (scan text).filter (·.kind != .separator) := by simp [htokens, ht]
    exact genuine_of_mem (List.mem_filter.mp hkept).1
  exact Expr.WellFormed.chains e (hderives.wellFormed hgenuine) a ha

-- A path in tokens, segment by segment

theorem scans_isName (hname : Name.IsName text.toList) (hrest : Ends rest) :
    Scans offset text.toList rest [⟨Name.kind text, text, offset⟩] := by
  obtain ⟨c, more, hchars, hc, hmore⟩ := hname
  have hstart : text.toList.head?.any Name.isStart = true := by simp [hchars, hc]
  have hpart : text.toList.all Name.isPart = true := by
    rw [hchars, List.all_eq_true]
    exact List.forall_mem_cons.mpr ⟨isPart_of_isStart hc, hmore⟩
  exact scans_word hstart hpart hrest

private theorem scans_quoted (hbare : Text.isBare text.toList = true) : Scans offset
    ('\'' :: text.toList ++ ['\'']) rest [⟨.stringLiteral, text, offset⟩] :=
  scans_text (leads_bare hbare rest) (by simp)

private theorem exists_scans_bracketed {opening closing : Char} {kind kind' : TokenKind}
    {inside : List Char} {t : Token} (hopening : punctuation? opening = some kind)
    (hclosing : punctuation? closing = some kind')
    (hinside : Scans (offset + Text.unitCount [opening]) inside (closing :: rest) [t]) :
    ∃ offset', Scans offset (opening :: inside ++ [closing]) rest
      [⟨kind, String.ofList [opening], offset⟩, t, ⟨kind', String.ofList [closing], offset'⟩] := by
  obtain ⟨offset', hscans⟩ := @scans_enclosed offset rest _ _ _ _ _ [] _ [] hopening hclosing
    (by simp) (by simp) hinside
  exact ⟨offset', by simpa using hscans⟩

private theorem exists_scans_key (hbare : key.isBare = true) : ∃ t,
    Scans offset key.keyChars (']' :: rest) [t] ∧ Key key.withoutZeroSign t := by
  cases key with
  | name text => exact ⟨_, scans_quoted hbare, @Key.string ⟨.stringLiteral, text, offset⟩ rfl⟩
  | number value =>
    have hstops : Stops (']' :: rest) := stops_cons (by decide)
    obtain ⟨t, hscans, hkind, hnumber⟩ := exists_scans_number hbare hstops
    exact ⟨t, hscans, .number hkind hnumber⟩

private theorem exists_scans_start (hhead : head.WellFormed) (hbare : head.isBare = true)
    (hrest : Ends rest) : ∃ tokens, Scans offset head.pathChars rest tokens ∧
      Start head tokens := by
  have hkind : Name.kind head.word = .identifier :=
    Name.kind_of_not_word hhead.not_reserved hhead.not_value
  cases head with
  | identifier name =>
    have hname : Scans offset name.toList rest _ := scans_isName hhead.isName hrest
    exact ⟨_, hname, @Start.identifier ⟨Name.kind name, name, offset⟩ hkind⟩
  | call target argument =>
    obtain ⟨offset', hcall⟩ := @exists_scans_bracketed (offset + Text.unitCount target.toList) rest
      '(' ')' _ _ _ _ rfl rfl (scans_quoted hbare)
    have hends : Ends ('(' :: ('\'' :: argument.toList ++ ['\'']) ++ [')'] ++ rest) :=
      @ends_cons '(' _ (by decide)
    have hname : Scans offset target.toList _ _ := @scans_isName _ _ target hhead.isName hends
    have hall := hname.append hcall
    refine ⟨_, by simpa [Head.pathChars] using hall, ?_⟩
    exact @Start.call ⟨Name.kind target, target, offset⟩ _ ⟨.stringLiteral, argument, _⟩ _ hkind
      rfl rfl rfl

-- Behind a point a word is a name whether it is reserved or not
private theorem exists_scans_suffix (hread : read.WellFormed) (hbare : read.isBare = true)
    (hrest : Ends rest) : ∃ tokens, Scans offset read.pathChars rest tokens ∧
      Suffix read.withoutZeroSign tokens := by
  cases read with
  | name text =>
    obtain ⟨hname, hvalue⟩ := hread
    have hpoint : Scans offset ['.'] (text.toList ++ rest) [⟨.dot, ".", offset⟩] := by
      obtain ⟨c, more, hchars, hc, -⟩ := hname
      rw [hchars]
      exact scans_leads (leads_point hc) (by decide)
    have hall := hpoint.append (scans_isName hname hrest)
    exact ⟨_, hall, @Suffix.name _ ⟨Name.kind text, text, _⟩ rfl (Name.kind_of_not_value hvalue)⟩
  | index key =>
    obtain ⟨t, hscans, hkey⟩ := exists_scans_key hbare
    obtain ⟨offset', hall⟩ := @exists_scans_bracketed offset rest '[' ']' _ _ _ _ rfl rfl hscans
    exact ⟨_, hall, .index rfl hkey rfl⟩

private theorem ends_pathChars (read : Accessor) : Ends (read.pathChars ++ rest) := by
  cases read with
  | name text => exact ends_cons (by decide)
  | index key => exact ends_cons (by decide)

private theorem ends_tail (tail : List Accessor) : Ends (tail.flatMap Accessor.pathChars) := by
  cases tail with
  | nil => simp [Ends]
  | cons read tail => exact ends_pathChars read

theorem exists_scans_suffixes (hreads : ∀ read ∈ tail, read.WellFormed)
    (hbare : ∀ read ∈ tail, read.isBare = true) : ∃ tokens,
      Scans offset (tail.flatMap Accessor.pathChars) [] tokens ∧
        Suffixes (tail.map Accessor.withoutZeroSign) tokens := by
  induction tail generalizing offset with
  | nil => exact ⟨[], scans_nil, .nil⟩
  | cons read tail ih =>
    obtain ⟨hread, hreads⟩ := List.forall_mem_cons.mp hreads
    obtain ⟨hbareRead, hbare⟩ := List.forall_mem_cons.mp hbare
    obtain ⟨tokens, hscans, hsuffix⟩ := exists_scans_suffix hread hbareRead (ends_tail tail)
    obtain ⟨more, hmore, hsuffixes⟩ := ih hreads hbare
    rw [← List.append_nil (tail.flatMap _)] at hscans
    exact ⟨_, hscans.append hmore, .cons hsuffix hsuffixes⟩

-- A path is read as what the chain is without the sign of zero
theorem parse_path (hchain : a.WellFormed) (hbare : a.isBare = true) :
    Expr.parse a.path = .ok (.access a.withoutZeroSign) := by
  simp only [Access.isBare, Bool.and_eq_true, List.all_eq_true] at hbare
  obtain ⟨hbareHead, hbareReads⟩ := hbare
  obtain ⟨start, hscans, hstart⟩ := exists_scans_start hchain.head hbareHead (ends_tail a.tail)
  obtain ⟨suffixes, hmore, hsuffixes⟩ := exists_scans_suffixes hchain.reads hbareReads
  rw [← List.append_nil (a.tail.flatMap _)] at hscans
  have hall : Scans 0 a.path.toList [] (start ++ suffixes) := by
    rw [Access.path, String.toList_ofList]
    exact hscans.append hmore
  exact parse_of_derives (filter_scan hall) (.access hstart hsuffixes) (Nat.zero_le _)

theorem path_eq_path_iff {b : Access} (ha : a.WellFormed) (hbareA : a.isBare = true)
    (hb : b.WellFormed) (hbareB : b.isBare = true) :
    a.path = b.path ↔ a.withoutZeroSign = b.withoutZeroSign := by
  constructor
  · intro hpath
    have hparse := parse_path ha hbareA
    rw [hpath, parse_path hb hbareB] at hparse
    exact (Expr.access.inj (Except.ok.inj hparse)).symm
  · intro heq
    rw [← a.path_withoutZeroSign, heq, b.path_withoutZeroSign]

-- The path in an error is that of the chain before the read that fails
theorem path_of_fault {env : Environment} {fault : PropertyAccessError}
    (h : (env.access a).result = .error (.propertyAccess fault)) :
    ∃ i < a.tail.length, fault.path = (a.upTo i).path := by
  obtain ⟨v, -, hreads⟩ := Environment.access_eq_propertyAccess.mp h
  obtain ⟨i, read, receiver, hread, -, rfl⟩ := Environment.reads_eq_error.mp hreads
  exact ⟨i, (List.getElem?_eq_some_iff.mp hread).1, rfl⟩

-- Every chain of a text, and every part of it that an error may name, is told by its path
theorem paths_read_back (text : String) (e : Expr) (a : Access) (hparse : Expr.parse text = .ok e)
    (ha : a ∈ e.chains) (hbare : a.isBare = true) :
    Expr.parse a.path = .ok (.access a.withoutZeroSign) ∧
    (∀ i, Expr.parse (a.upTo i).path = .ok (.access (a.upTo i).withoutZeroSign)) ∧
    (∀ env fault, (Environment.access env a).result = .error (.propertyAccess fault) →
      ∃ i < a.tail.length, fault.path = (a.upTo i).path ∧
        Expr.parse fault.path = .ok (.access (a.upTo i).withoutZeroSign)) ∧
    ∀ text' e' b, Expr.parse text' = .ok e' → b ∈ e'.chains → b.isBare = true → ∀ i j,
      ((a.upTo i).path = (b.upTo j).path ↔
        (a.upTo i).withoutZeroSign = (b.upTo j).withoutZeroSign) := by
  have hchain := wellFormed_of_mem_chains hparse ha
  have hprefix (i : Nat) :
      Expr.parse (a.upTo i).path = .ok (.access (a.upTo i).withoutZeroSign) :=
    parse_path (hchain.upTo i) (Access.isBare_upTo hbare i)
  refine ⟨parse_path hchain hbare, hprefix, fun env fault hfault => ?_,
    fun text' e' b hparse' hb hbare' i j => ?_⟩
  · obtain ⟨i, hi, hpath⟩ := path_of_fault hfault
    exact ⟨i, hi, hpath, hpath ▸ hprefix i⟩
  · have hchain' := wellFormed_of_mem_chains hparse' hb
    exact path_eq_path_iff (hchain.upTo i) (Access.isBare_upTo hbare i) (hchain'.upTo j)
      (Access.isBare_upTo hbare' j)

-- An escaped name, a string with a quote of the other kind in it and a negative zero
private theorem parse_escaped_chain : Expr.parse "\\u0061['\"'][-0]" = .ok (.access
    ⟨.identifier "a", [.index (.name "\""), .index (.number (.signed true .zero))]⟩) := by
  have hend : Name.run Name.isPart "['\"'][-0]".toList = ⟨[], 0, true⟩ :=
    @run_raw "['\"'][-0]".toList Name.isPart [] (by simp) (@ends_cons '[' _ (by decide))
  have hrun : Name.run Name.isStart ('\\' :: ("u0061".toList ++ "['\"'][-0]".toList)) =
      ⟨['a'], 6, true⟩ := by
    rw [Name.run_cons, if_pos rfl]
    exact congrArg (Name.Run.extend 'a' 6) hend
  have hname : Scans 0 ('\\' :: "u0061".toList) "['\"'][-0]".toList [⟨.identifier, "a", 0⟩] :=
    scans_leads (leads_run (.inr rfl) hrun) (by decide)
  have hquoted (offset : Nat) :
      Scans offset "'\"'".toList "][-0]".toList [⟨.stringLiteral, "\"", offset⟩] :=
    @scans_quoted offset "][-0]".toList "\"" rfl
  have hnumber (offset : Nat) :
      Scans offset "-0".toList "]".toList [⟨.numberLiteral, "-0", offset⟩] :=
    scans_leads ⟨'-', ['0'], rfl, rfl⟩ (by decide)
  obtain ⟨first, hfirst⟩ := @exists_scans_bracketed (0 + Text.unitCount _) "[-0]".toList '[' ']'
    _ _ _ _ rfl rfl (hquoted _)
  obtain ⟨second, hsecond⟩ := @exists_scans_bracketed _ [] '[' ']' _ _ _ _ rfl rfl (hnumber _)
  have hall := hname.append (hfirst.append hsecond)
  have hread : Number.read? "-0".toList = some (.signed true .zero) := by decide
  have hzero (offset : Nat) :
      Token.number? ⟨.numberLiteral, "-0", offset⟩ = some (.signed true .zero) := by
    rw [Token.number?, if_pos rfl]
    exact hread
  exact parse_of_derives (filter_scan hall) (.access (@Start.identifier ⟨_, "a", _⟩ rfl)
    (.cons (.index rfl (@Key.string ⟨_, "\"", _⟩ rfl) rfl)
      (.cons (.index rfl (.number rfl (hzero _)) rfl) .nil))) (Nat.zero_le _)

-- The escape is not in the path, the double quote is, and the negative zero is read back as zero
theorem paths_read_back_escaped :
    let a : Access :=
      ⟨.identifier "a", [.index (.name "\""), .index (.number (.signed true .zero))]⟩
    Expr.parse "\\u0061['\"'][-0]" = .ok (.access a) ∧ a.isBare = true ∧
      a.path = "a['\"'][0]" ∧ Expr.parse a.path = .ok (.access a.withoutZeroSign) ∧
      a.withoutZeroSign.tail[1]? = some (.index (.number .zero)) := by
  intro a
  have hbare : a.isBare = true := rfl
  have hread := paths_read_back _ _ a parse_escaped_chain (by simp [Expr.chains, a]) hbare
  exact ⟨parse_escaped_chain, hbare, by decide, hread.1, rfl⟩

end Parser

end DeclarativeOptions
