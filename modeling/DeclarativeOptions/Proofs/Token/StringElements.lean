import DeclarativeOptions.Proofs.Text.Longest
import DeclarativeOptions.Proofs.Text.Units
import DeclarativeOptions.Proofs.Token.UnitEscape

namespace DeclarativeOptions

namespace StringLiteral

open Escape Text

-- The letters and the digit that stand for a control character behind a backslash
def controls : List (Char × Char) :=
  [('b', '\x08'), ('f', '\x0c'), ('n', '\n'), ('r', '\r'), ('t', '\t'), ('v', '\x0b'),
   ('0', '\x00')]

-- The line ends that a backslash continues a literal over
def lineEnds : List (List Char) := [['\r', '\n'], ['\r'], ['\n'], ['\u2028'], ['\u2029']]

-- How an element of a literal is written, and what it stands for
inductive Element (quote : Char) : List Char → List Char → Prop where
  | raw {c : Char} (hquote : c ≠ quote) (hescape : c ≠ '\\') (hline : ¬(c = '\r' ∨ c = '\n')) :
      Element quote [c] [c]
  | hexadecimal {code : Nat} {digits : List Char} (h : Digits 2 code digits) :
      Element quote ('\\' :: 'x' :: digits) [Char.ofNat code]
  | unit {unit : Nat} {spelling : List Char} (h : Escapes [unit] spelling) :
      Element quote spelling [unitChar unit]
  | pair {high low : Nat} {spelling : List Char} (hhigh : isHighSurrogate high = true)
      (hlow : isLowSurrogate low = true) (h : Escapes [high, low] spelling) :
      Element quote spelling [pairChar high low]
  | continuation {line : List Char} (hline : line ∈ lineEnds) : Element quote ('\\' :: line) []
  | control {c meaning : Char} (hc : (c, meaning) ∈ controls) : Element quote ['\\', c] [meaning]
  | itself {c : Char} (hc : c ∉ ['x', 'u']) (hcontrol : c ∉ controls.map (·.1))
      (hline : [c] ∉ lineEnds) : Element quote ['\\', c] [c]

-- The longest element that a text begins with
abbrev LongestElement (quote : Char) : List Char → List Char → Prop :=
  Longest fun element => ∃ meaning, Element quote element meaning

-- What stands in front of `after` taken apart into elements, each of them the longest one there is,
-- and what the elements stand for
inductive Elements (quote : Char) : List Char → List Char → List Char → Prop where
  | nil {after : List Char} : Elements quote [] [] after
  | cons {element meaning spelling value after : List Char} (helement : Element quote element meaning)
      (hlongest : LongestElement quote element (element ++ (spelling ++ after)))
      (hmore : Elements quote spelling value after) :
      Elements quote (element ++ spelling) (meaning ++ value) after

-- The texts in which a literal breaks off: none at all, a bare line end, and a malformed escape
inductive Unfinished : List Char → Prop where
  | ends : Unfinished []
  | line {c : Char} {rest : List Char} (hc : c = '\r' ∨ c = '\n') : Unfinished (c :: rest)
  | escape : Unfinished ['\\']
  | hexadecimal {rest : List Char} (h : ∀ digits code, digits <+: rest → ¬Digits 2 code digits) :
      Unfinished ('\\' :: 'x' :: rest)
  | unicode {rest : List Char} (h : ∀ digits code, digits <+: rest → ¬Digits 4 code digits) :
      Unfinished ('\\' :: 'u' :: rest)

variable {quote c : Char} {inside element meaning spelling value after text rest : List Char}

-- An element is a character, or it begins with a backslash
theorem Element.raw_or_escape (h : Element quote element meaning) :
    (∃ c, element = [c] ∧ meaning = [c] ∧ c ≠ quote ∧ c ≠ '\\' ∧ ¬(c = '\r' ∨ c = '\n')) ∨
      ∃ inside, element = '\\' :: inside := by
  cases h with
  | @raw c hquote hescape hline => exact .inl ⟨c, rfl, rfl, hquote, hescape, hline⟩
  | unit h =>
    cases h
    exact .inr ⟨_, rfl⟩
  | pair hhigh hlow h =>
    cases h
    exact .inr ⟨_, rfl⟩
  | _ => exact .inr ⟨_, rfl⟩

theorem Element.ne_nil (h : Element quote element meaning) : element ≠ [] := by
  obtain ⟨c, rfl, -⟩ | ⟨inside, rfl⟩ := h.raw_or_escape
  · exact List.cons_ne_nil _ _
  · exact List.cons_ne_nil _ _

-- No element is longer than a pair of surrogates
theorem Element.length_le (h : Element quote element meaning) : element.length ≤ 12 := by
  cases h with
  | hexadecimal h => simp [h.length]
  | unit h => simp [h.length]
  | pair hhigh hlow h => simp [h.length]
  | continuation hline =>
    have hall : ∀ line ∈ lineEnds, ('\\' :: line).length ≤ 12 := by decide
    exact hall _ hline
  | _ => simp

private theorem single_eq_self (h : c ∉ controls.map (·.1)) : single c = c := by
  unfold single
  split
  case h_8 => rfl
  all_goals exact absurd (by decide) h

-- The escape at the front of a text is read as its longest element. Of two elements of different
-- length one begins with the other only behind a high surrogate and behind a carriage return.
private theorem inString_of_element (h : Element quote ('\\' :: inside) meaning)
    (hlongest : LongestElement quote ('\\' :: inside) ('\\' :: (inside ++ rest))) :
    inString? (inside ++ rest) = some (meaning, inside.length) := by
  cases h with
  | raw hquote hescape hline => exact absurd rfl hescape
  | hexadecimal hdigits => simp [inString?, hdigits.code_append, hdigits.length]
  | @unit unit _ hunits =>
    cases hunits with
    | @cons _ _ digits _ hunit hmore =>
      cases hmore
      rw [List.append_nil] at hlongest ⊢
      have halone : isHighSurrogate unit = true → lowSurrogate? rest = none := by
        intro hhigh
        cases hlow : lowSurrogate? rest with
        | none => rfl
        | some low =>
          obtain ⟨hrange, spelling, behind, rfl, hspelling⟩ := lowSurrogate_eq_some.mp hlow
          have hpair : Escapes [unit, low] ('\\' :: 'u' :: (digits ++ spelling)) :=
            .cons hunit hspelling
          have hle := hlongest.le _ ⟨_, .pair hhigh hrange hpair⟩ ⟨behind, by simp⟩
          rw [hpair.length] at hle
          simp only [List.length_cons, List.length_nil, hunit.length] at hle
          omega
      simp [inString?, unicode_unit hunit halone, hunit.length]
  | pair hhigh hlow hunits =>
    cases hunits with
    | cons hunit hmore =>
      simp [inString?, unicode_pair hunit hhigh hmore hlow, hunit.length, hmore.length]
  | continuation hline =>
    simp only [lineEnds, List.mem_cons, List.not_mem_nil, or_false] at hline
    obtain rfl | rfl | rfl | rfl | rfl := hline
    · rfl
    · have halone : rest.head? ≠ some '\n' := by
        intro hhead
        obtain ⟨more, rfl⟩ := List.head?_eq_some_iff.mp hhead
        have hle := hlongest.le ['\\', '\r', '\n'] ⟨_, .continuation (by decide)⟩ ⟨more, rfl⟩
        simp at hle
      exact inString_single (by decide) (by decide) fun _ => halone
    all_goals rfl
  | control hc =>
    simp only [controls, List.mem_cons, Prod.mk.injEq, List.not_mem_nil, or_false] at hc
    obtain ⟨rfl, rfl⟩ | ⟨rfl, rfl⟩ | ⟨rfl, rfl⟩ | ⟨rfl, rfl⟩ | ⟨rfl, rfl⟩ | ⟨rfl, rfl⟩ |
      ⟨rfl, rfl⟩ := hc
    all_goals rfl
  | @itself c hc hcontrol hline =>
    simp only [List.mem_cons, List.not_mem_nil, or_false, not_or] at hc
    simp [lineEnds] at hline
    obtain ⟨hreturn, hfeed, hseparator, hparagraph⟩ := hline
    rw [List.singleton_append, inString_single hc.1 hc.2 (fun h => absurd h hreturn),
      if_neg (by simp [hreturn, hfeed, hseparator, hparagraph]), single_eq_self hcontrol]
    rfl

-- An element in front of the rest of a literal
private theorem read_element (hquote : quote = '"' ∨ quote = '\'')
    (h : Element quote element meaning)
    (hlongest : LongestElement quote element (element ++ rest)) :
    read? quote (element ++ rest) = (read? quote rest).map fun (value, length) =>
      (meaning ++ value, length + element.length) := by
  obtain ⟨c, rfl, rfl, hc, hescape, hline⟩ | ⟨inside, rfl⟩ := h.raw_or_escape
  · rw [List.singleton_append, read?, if_neg hc, if_neg hline, if_neg hescape]
    rfl
  · have hc : '\\' ≠ quote := by obtain rfl | rfl := hquote <;> decide
    rw [List.cons_append] at hlongest ⊢
    rw [read?, if_neg hc, if_neg (by decide), if_pos rfl, inString_of_element h hlongest]
    simp [Nat.add_assoc]

theorem read_elements (hquote : quote = '"' ∨ quote = '\'')
    (h : Elements quote spelling value after) :
    read? quote (spelling ++ after) = (read? quote after).map fun (more, length) =>
      (value ++ more, length + spelling.length) := by
  induction h with
  | nil => simp
  | cons helement hlongest hmore ih =>
    rw [List.append_assoc, read_element hquote helement hlongest, ih, Option.map_map]
    congr 1
    funext found
    simp only [Function.comp_apply, List.append_assoc, List.length_append, Prod.mk.injEq, true_and]
    omega

theorem Unfinished.read_eq_none (hquote : quote = '"' ∨ quote = '\'') (h : Unfinished text) :
    read? quote text = none := by
  have hbackslash : '\\' ≠ quote := by obtain rfl | rfl := hquote <;> decide
  have hescape (rest : List Char) (h : inString? rest = none) :
      read? quote ('\\' :: rest) = none := by
    rw [read?, if_neg hbackslash, if_neg (by decide), if_pos rfl, h]
  have hcode {count : Nat} {rest : List Char}
      (h : ∀ digits code, digits <+: rest → ¬Digits count code digits) :
      code? count rest = none := by
    cases hcode : code? count rest with
    | none => rfl
    | some code => exact absurd (code_eq_some.mp hcode) (h _ _ (List.take_prefix _ _))
  cases h with
  | ends => rw [read?]
  | line hc =>
    have hne : ∀ c, c = '\r' ∨ c = '\n' → c ≠ quote := by
      rintro c (rfl | rfl) rfl <;> simp at hquote
    rw [read?, if_neg (hne _ hc), if_pos hc]
  | escape => exact hescape [] rfl
  | hexadecimal h => exact hescape _ (by rw [inString?, hcode h, Option.map_none])
  | unicode h => exact hescape _ (by rw [inString?, unicode?, hcode h]; rfl)

-- Where no element begins, the literal is closed or breaks off
private theorem closes_or_unfinished (h : ∀ element meaning, Element quote element meaning →
    ¬element <+: text) : text.head? = some quote ∨ Unfinished text := by
  cases text with
  | nil => exact .inr .ends
  | cons c rest =>
    by_cases hquote : c = quote
    · exact .inl (by rw [List.head?_cons, hquote])
    refine .inr ?_
    by_cases hline : c = '\r' ∨ c = '\n'
    · exact .line hline
    by_cases hescape : c = '\\'
    · subst hescape
      cases rest with
      | nil => exact .escape
      | cons c rest =>
        have hbegins {inside : List Char} (h : inside <+: c :: rest) :
            '\\' :: inside <+: '\\' :: c :: rest := List.cons_prefix_cons.mpr ⟨rfl, h⟩
        by_cases hx : c = 'x'
        · subst hx
          refine .hexadecimal fun digits code hdigits hcode => h _ _ (.hexadecimal hcode) ?_
          exact hbegins (List.cons_prefix_cons.mpr ⟨rfl, hdigits⟩)
        by_cases hu : c = 'u'
        · subst hu
          refine .unicode fun digits code hdigits hcode => h _ _ (.unit (.cons hcode .nil)) ?_
          rw [List.append_nil]
          exact hbegins (List.cons_prefix_cons.mpr ⟨rfl, hdigits⟩)
        have hone : [c] <+: c :: rest := ⟨rest, rfl⟩
        by_cases hends : [c] ∈ lineEnds
        · exact absurd (hbegins hone) (h _ _ (.continuation hends))
        by_cases hcontrol : c ∈ controls.map (·.1)
        · obtain ⟨found, hfound, rfl⟩ := List.mem_map.mp hcontrol
          exact absurd (hbegins hone) (h _ _ (.control hfound))
        · exact absurd (hbegins hone) (h _ _ (.itself (by simp [hx, hu]) hcontrol hends))
    · exact absurd ⟨rest, rfl⟩ (h _ _ (.raw hquote hescape hline))

theorem exists_elements (quote : Char) (text : List Char) : ∃ spelling value after,
    text = spelling ++ after ∧ Elements quote spelling value after ∧
      (after.head? = some quote ∨ Unfinished after) := by
  induction hn : text.length using Nat.strongRecOn generalizing text with
  | ind n ih =>
    subst hn
    by_cases hnone : ∀ element meaning, Element quote element meaning → ¬element <+: text
    · exact ⟨[], [], text, rfl, .nil, closes_or_unfinished hnone⟩
    · push Not at hnone
      obtain ⟨first, meaning, hfirst, hbegins⟩ := hnone
      obtain ⟨element, hlongest⟩ : ∃ element, LongestElement quote element text :=
        exists_longest ⟨meaning, hfirst⟩ hbegins
      obtain ⟨meaning, helement⟩ := hlongest.holds
      obtain ⟨rest, rfl⟩ := hlongest.begins
      have hpos := List.length_pos_of_ne_nil helement.ne_nil
      obtain ⟨spelling, value, after, rfl, hmore, hends⟩ :=
        ih rest.length (by rw [List.length_append]; omega) rest rfl
      exact ⟨element ++ spelling, meaning ++ value, after, (List.append_assoc ..).symm,
        .cons helement hlongest hmore, hends⟩

end StringLiteral

namespace Token

open Lexeme StringLiteral

variable {offset : Nat} {quote : Char} {spelling value after rest : List Char}

theorem leads_elements (hquote : quote = '"' ∨ quote = '\'')
    (h : Elements quote spelling value (quote :: after)) :
    Leads .stringLiteral value (quote :: (spelling ++ [quote])) after := by
  have hclosed : read? quote (quote :: after) = some ([], 1) := by rw [read?, if_pos rfl]
  have hread : read? quote (spelling ++ quote :: after) = some (value, spelling.length + 1) := by
    simp [read_elements hquote h, hclosed, Nat.add_comm]
  refine ⟨quote, spelling ++ [quote], rfl, ?_⟩
  have hlength : (spelling ++ [quote]).length = spelling.length + 1 := List.length_append
  rw [first_quote hquote, List.append_assoc, List.singleton_append, stringLiteral, hread, hlength]

theorem scanFrom_unfinished (hquote : quote = '"' ∨ quote = '\'')
    (h : Elements quote spelling value after) (hafter : Unfinished after) :
    scanFrom offset (quote :: (spelling ++ after)) =
      [⟨.error, String.ofList (quote :: (spelling ++ after)), offset⟩,
        ⟨.eof, "", offset + Text.unitCount (quote :: (spelling ++ after))⟩] := by
  have hread : read? quote (spelling ++ after) = none := by
    rw [read_elements hquote h, hafter.read_eq_none hquote, Option.map_none]
  have hfirst : first quote (spelling ++ after) =
      spelled .error quote (spelling ++ after) (spelling ++ after).length := by
    rw [first_quote hquote, stringLiteral, hread]
  rw [scanFrom_spelled offset hfirst, List.take_length, List.drop_length, scanFrom]

-- A string literal is made of characters, escapes and continued lines, each as long as it can be.
-- It is closed by a quote that is reached between two of them, and what they stand for is its text.
-- A literal that is never closed takes the rest of the text and is in error.
theorem scan_string_elements (offset : Nat) (quote : Char) (rest : List Char)
    (hquote : quote = '"' ∨ quote = '\'') :
    (∀ spelling value after, rest = spelling ++ quote :: after →
      Elements quote spelling value (quote :: after) →
      scanFrom offset (quote :: rest) = ⟨.stringLiteral, String.ofList value, offset⟩ ::
        scanFrom (offset + Text.unitCount (quote :: (spelling ++ [quote]))) after) ∧
    ((∀ spelling value after, rest = spelling ++ quote :: after →
        ¬Elements quote spelling value (quote :: after)) →
      (∃ spelling value after, rest = spelling ++ after ∧ Elements quote spelling value after ∧
        Unfinished after) ∧
      scanFrom offset (quote :: rest) = [⟨.error, String.ofList (quote :: rest), offset⟩,
        ⟨.eof, "", offset + Text.unitCount (quote :: rest)⟩]) := by
  refine ⟨?_, fun hopen => ?_⟩
  · rintro spelling value after rfl helements
    have hscan := scanFrom_leads offset (leads_elements hquote helements)
    rwa [List.cons_append, List.append_assoc, List.singleton_append] at hscan
  · obtain ⟨spelling, value, after, rfl, helements, hclosed | hafter⟩ := exists_elements quote rest
    · obtain ⟨behind, rfl⟩ := List.head?_eq_some_iff.mp hclosed
      exact absurd helements (hopen _ _ _ rfl)
    · exact ⟨⟨spelling, value, after, rfl, helements, hafter⟩,
        scanFrom_unfinished hquote helements hafter⟩

-- A pair of surrogates is one character, and the second digit of an escape cannot be the quote
theorem scan_string_elements_pair :
    let spelling := ['\\', 'u', 'd', '8', '3', 'D', '\\', 'u', 'D', 'E', '0', '0']
    Elements '\'' spelling ['😀'] ['\'', 'x'] ∧
    scanFrom 0 ('\'' :: (spelling ++ ['\'', 'x'])) =
      ⟨.stringLiteral, "😀", 0⟩ :: scanFrom 14 ['x'] ∧
    (∀ spelling value after, ['\\', 'x', '4', '\''] = spelling ++ '\'' :: after →
      ¬Elements '\'' spelling value ('\'' :: after)) ∧
    scanFrom 0 ['\'', '\\', 'x', '4', '\''] = [⟨.error, "'\\x4'", 0⟩, ⟨.eof, "", 5⟩] := by
  intro spelling
  have hhigh : Escape.Digits 4 0xD83D ['d', '8', '3', 'D'] :=
    Escape.code_eq_some.mp (show Escape.code? 4 ['d', '8', '3', 'D'] = some 0xD83D from rfl)
  have hlow : Escape.Digits 4 0xDE00 ['D', 'E', '0', '0'] :=
    Escape.code_eq_some.mp (show Escape.code? 4 ['D', 'E', '0', '0'] = some 0xDE00 from rfl)
  have hchar : Text.pairChar 0xD83D 0xDE00 = '😀' := by decide
  have hpair : Element '\'' spelling ['😀'] :=
    hchar ▸ .pair (by decide) (by decide) (.cons hhigh (.cons hlow .nil))
  have hlongest : LongestElement '\'' spelling (spelling ++ ['\'', 'x']) :=
    ⟨⟨_, hpair⟩, List.prefix_append _ _, fun other hother _ => hother.elim fun _ h => h.length_le⟩
  have helements : Elements '\'' spelling ['😀'] ['\'', 'x'] := .cons hpair hlongest .nil
  have hopen : Unfinished ['\\', 'x', '4', '\''] := by
    refine .hexadecimal fun digits code hbegins hdigits => ?_
    obtain ⟨more, hmore⟩ := hbegins
    have hcode := hdigits.code_append more
    have hmalformed : Escape.code? 2 ['4', '\''] = none := by decide
    simp [hmore, hmalformed] at hcode
  have hnone : ∀ spelling value after, ['\\', 'x', '4', '\''] = spelling ++ '\'' :: after →
      ¬Elements '\'' spelling value ('\'' :: after) := by
    intro spelling value after heq helements
    have hread := hopen.read_eq_none (.inr rfl)
    rw [heq, read_elements (.inr rfl) helements] at hread
    simp [read?] at hread
  exact ⟨helements, (scan_string_elements 0 '\'' _ (.inr rfl)).1 _ _ ['x'] rfl helements, hnone,
    ((scan_string_elements 0 '\'' _ (.inr rfl)).2 hnone).2⟩

end Token

end DeclarativeOptions
