import DeclarativeOptions.Proofs.Text.Longest
import DeclarativeOptions.Proofs.Text.Units
import DeclarativeOptions.Proofs.Token.Content
import DeclarativeOptions.Proofs.Token.UnitEscape

namespace DeclarativeOptions

namespace Name

open Escape

-- A character as it is, or its UTF-16 units as escapes
def Writes (c : Char) (piece : List Char) : Prop := piece = [c] ∨ Escapes (Text.charUnits c) piece

-- A character that may come next in a name: a part of names, or the escape of a legal character
def Piece (isLegal : Char → Bool) (c : Char) (piece : List Char) : Prop :=
  (piece = [c] ∧ isPart c = true) ∨ (Escapes (Text.charUnits c) piece ∧ isLegal c = true)

-- A run of such characters. What is legal is given for the first one, and behind it all parts of
-- names are.
inductive Spelled : (Char → Bool) → List Char → List Char → Prop where
  | nil {isLegal : Char → Bool} : Spelled isLegal [] []
  | cons {isLegal : Char → Bool} {c : Char} {piece name spelling : List Char}
      (hpiece : Piece isLegal c piece) (hmore : Spelled isPart name spelling) :
      Spelled isLegal (c :: name) (piece ++ spelling)

-- The longest run that a text begins with
abbrev LongestRun : List Char → List Char → Prop :=
  Text.Longest fun spelling => ∃ name, Spelled isStart name spelling

-- What is legal behind the characters of a run
def legalBehind (isLegal : Char → Bool) : List Char → Char → Bool
  | [] => isLegal
  | _ :: _ => isPart

variable {c : Char} {isLegal : Char → Bool} {name piece spelling text rest after : List Char}

private theorem legalBehind_isPart (name : List Char) : legalBehind isPart name = isPart := by
  cases name <;> rfl

theorem exists_of_escapes (h : Escapes (Text.charUnits c) piece) :
    ∃ more, piece = '\\' :: 'u' :: more := by
  have hpos := Text.charUnits_length_pos c
  generalize Text.charUnits c = units at h hpos
  cases h with
  | nil => simp at hpos
  | cons => exact ⟨_, rfl⟩

private theorem piece_of_escape {length : Nat} (hlegal : isLegal '\uFFFD' = false)
    (h : escape isLegal text = .ok (c, length)) :
    Piece isLegal c ('\\' :: text.take length) := by
  have hc := escape_eq_ok h
  have hne : c ≠ '\uFFFD' := by
    rintro rfl
    simp [hlegal] at hc
  cases text with
  | nil => simp [escape] at h
  | cons d more =>
    rw [escape_cons] at h
    split_ifs at h with hd
    cases hunicode : unicode? more with
    | none => simp [hunicode] at h
    | some found =>
      rw [hunicode] at h
      dsimp only at h
      split_ifs at h
      obtain ⟨rfl, rfl⟩ := Prod.mk.inj (Except.ok.inj h)
      rw [hd, List.take_succ_cons]
      exact .inr ⟨escapes_charUnits hunicode hne, hc⟩

private theorem run_piece (h : Piece isLegal c piece) (rest : List Char) :
    run isLegal (piece ++ rest) = (run isPart rest).extend c piece.length := by
  obtain ⟨rfl, hpart⟩ | ⟨hescapes, hlegal⟩ := h
  · have hescape : c ≠ '\\' := by
      rintro rfl
      revert hpart
      decide
    rw [List.singleton_append, run_cons, if_neg hescape, if_pos hpart, List.length_singleton]
  · obtain ⟨more, rfl⟩ := exists_of_escapes hescapes
    have hescape : escape isLegal ('u' :: (more ++ rest)) = .ok (c, more.length + 1) := by
      rw [escape_cons, if_pos rfl, unicode_charUnits hescapes]
      simp [hlegal]
    rw [List.cons_append, List.cons_append, run_cons, if_pos rfl, hescape]
    simp

theorem run_spelled (h : Spelled isLegal name spelling) (rest : List Char) :
    run isLegal (spelling ++ rest) =
      ⟨name ++ (run (legalBehind isLegal name) rest).name,
        (run (legalBehind isLegal name) rest).length + spelling.length,
        (run (legalBehind isLegal name) rest).wellFormed⟩ := by
  induction h with
  | nil => rfl
  | @cons isLegal c piece name spelling hpiece hmore ih =>
    rw [List.append_assoc, run_piece hpiece, ih, legalBehind_isPart, legalBehind, Run.extend]
    simp [Nat.add_assoc, Nat.add_comm]

theorem Spelled.concat (h : Spelled isLegal name spelling)
    (hpiece : Piece (legalBehind isLegal name) c piece) :
    Spelled isLegal (name ++ [c]) (spelling ++ piece) := by
  induction h with
  | nil => simpa [legalBehind] using Spelled.cons hpiece .nil
  | @cons isLegal d first name spelling hfirst hmore ih =>
    rw [List.append_assoc]
    exact .cons hfirst (ih (by rwa [legalBehind_isPart]))

-- A run that cannot go on ends the name, or a backslash behind it makes it malformed
private theorem run_of_stuck (hlegal : isLegal '\uFFFD' = false)
    (h : ∀ c piece, Piece isLegal c piece → ¬piece <+: text) :
    (text.head? = some '\\' ∧ ∃ more, run isLegal text = ⟨[], more + 1, false⟩) ∨
      (text.head? ≠ some '\\' ∧ run isLegal text = ⟨[], 0, true⟩) := by
  cases text with
  | nil => exact .inr ⟨by simp, by rw [run]⟩
  | cons c rest =>
    by_cases hescape : c = '\\'
    · subst hescape
      refine .inl ⟨rfl, ?_⟩
      rw [run_cons, if_pos rfl]
      cases hdecoded : escape isLegal rest with
      | error length => exact ⟨length, rfl⟩
      | ok found =>
        have hpiece := piece_of_escape hlegal hdecoded
        exact absurd (List.cons_prefix_cons.mpr ⟨rfl, List.take_prefix _ _⟩) (h _ _ hpiece)
    · have hpart : ¬isPart c = true := fun hpart => h c [c] (.inl ⟨rfl, hpart⟩) ⟨rest, rfl⟩
      exact .inr ⟨by simpa using hescape, by rw [run_cons, if_neg hescape, if_neg hpart]⟩

-- U+FFFD, which a surrogate without its other half is read as, is legal nowhere in a name
private theorem legalBehind_replacement (name : List Char) :
    legalBehind isStart name '\uFFFD' = false := by
  cases name with
  | nil => exact (by decide +kernel : isStart '\uFFFD' = false)
  | cons => exact (by decide +kernel : isPart '\uFFFD' = false)

private theorem LongestRun.stuck (h : LongestRun spelling (spelling ++ after))
    (hname : Spelled isStart name spelling) (c : Char) (piece : List Char)
    (hpiece : Piece (legalBehind isStart name) c piece) : ¬piece <+: after := by
  rintro ⟨more, rfl⟩
  have hle := h.le _ ⟨_, hname.concat hpiece⟩ ⟨more, by rw [List.append_assoc]⟩
  have hne : piece ≠ [] := by
    obtain ⟨rfl, -⟩ | ⟨hescapes, -⟩ := hpiece
    · exact List.cons_ne_nil _ _
    · obtain ⟨more, rfl⟩ := exists_of_escapes hescapes
      exact List.cons_ne_nil _ _
  have hpos := List.length_pos_of_ne_nil hne
  rw [List.length_append] at hle
  omega

-- A longest run is read as the name that it spells, and is well-formed unless a backslash follows it
theorem run_of_longest (h : LongestRun spelling (spelling ++ after))
    (hname : Spelled isStart name spelling) :
    (after.head? = some '\\' ∧ ∃ more, run isStart (spelling ++ after) =
        ⟨name, spelling.length + more + 1, false⟩) ∨
      (after.head? ≠ some '\\' ∧
        run isStart (spelling ++ after) = ⟨name, spelling.length, true⟩) := by
  rw [run_spelled hname after]
  obtain ⟨hhead, more, hrun⟩ | ⟨hhead, hrun⟩ :=
    run_of_stuck (legalBehind_replacement name) (h.stuck hname)
  · refine .inl ⟨hhead, more, ?_⟩
    have hlength : more + 1 + spelling.length = spelling.length + more + 1 := by omega
    rw [hrun, List.append_nil, hlength]
  · refine .inr ⟨hhead, ?_⟩
    rw [hrun, List.append_nil, Nat.zero_add]

theorem exists_longestRun (text : List Char) : ∃ spelling, LongestRun spelling text :=
  Text.exists_longest ⟨[], .nil⟩ List.nil_prefix

theorem Spelled.of_parts {pieces : List (List Char)}
    (h : List.Forall₂ Writes name pieces) (hname : ∀ c ∈ name, isPart c = true) :
    Spelled isPart name pieces.flatten := by
  induction h with
  | nil => exact .nil
  | cons hpiece _ ih =>
    obtain ⟨hc, hname⟩ := List.forall_mem_cons.mp hname
    exact .cons (hpiece.imp (⟨·, hc⟩) (⟨·, hc⟩)) (ih hname)

theorem Spelled.of_writes {pieces : List (List Char)} (hname : IsName name)
    (h : List.Forall₂ Writes name pieces) : Spelled isStart name pieces.flatten := by
  obtain ⟨c, rest, rfl, hc, hrest⟩ := hname
  cases h with
  | cons hpiece hmore =>
    exact .cons (hpiece.imp (⟨·, Lexeme.isPart_of_isStart hc⟩) (⟨·, hc⟩)) (.of_parts hmore hrest)

end Name

namespace Token

open Lexeme Name

variable {c : Char} {name spelling rest after more : List Char}

theorem leads_run (hc : isStart c = true ∨ c = '\\')
    (hrun : run isStart (c :: (more ++ after)) = ⟨name, more.length + 1, true⟩) :
    Leads (Name.kind (String.ofList name)) name (c :: more) after := by
  refine ⟨c, more, rfl, ?_⟩
  rw [first_name hc, Lexeme.name, hrun]
  simp

-- A spelling of a name is one token and nothing else
theorem scan_spelled (offset : Nat) (hname : IsName name) (h : Spelled isStart name spelling) :
    scanFrom offset spelling = [⟨Name.kind (String.ofList name), String.ofList name, offset⟩,
      ⟨.eof, "", offset + Text.unitCount spelling⟩] := by
  obtain ⟨c, more, rfl, hc⟩ : ∃ c more, spelling = c :: more ∧ (isStart c = true ∨ c = '\\') := by
    obtain ⟨c, rest, rfl, hc, -⟩ := hname
    cases h with
    | cons hpiece _ =>
      obtain ⟨rfl, -⟩ | ⟨hescapes, -⟩ := hpiece
      · exact ⟨c, _, rfl, .inl hc⟩
      · obtain ⟨more, rfl⟩ := exists_of_escapes hescapes
        exact ⟨'\\', _, rfl, .inr rfl⟩
  have hrun : run isStart (c :: (more ++ [])) = ⟨name, more.length + 1, true⟩ := by
    rw [← List.cons_append, run_spelled h [], run, List.append_nil, Nat.zero_add, List.length_cons]
  have hscan := scanFrom_leads offset (leads_run hc hrun)
  rwa [List.append_nil, scanFrom] at hscan

-- Which of its characters are written as escapes does not matter to a name, and neither does it to
-- whether the name is a keyword. Of any text that begins like a name, the longest run of characters
-- and escapes that are legal where they stand is the name.
theorem scan_name_spelling :
    (∀ offset name pieces, IsName name → List.Forall₂ Writes name pieces →
      scanFrom offset pieces.flatten =
        [⟨Name.kind (String.ofList name), String.ofList name, offset⟩,
          ⟨.eof, "", offset + Text.unitCount pieces.flatten⟩] ∧
      scanFrom offset name = [⟨Name.kind (String.ofList name), String.ofList name, offset⟩,
        ⟨.eof, "", offset + Text.unitCount name⟩]) ∧
    (∀ offset c rest, isStart c = true ∨ c = '\\' →
      (∃ spelling, LongestRun spelling (c :: rest)) ∧
      ∀ name spelling after, c :: rest = spelling ++ after → Spelled isStart name spelling →
        LongestRun spelling (c :: rest) →
        (after.head? = some '\\' → ∃ text, (scanFrom offset (c :: rest)).head? =
          some ⟨.error, text, offset⟩ ∧ spelling ++ ['\\'] <+: text.toList) ∧
        (after.head? ≠ some '\\' → scanFrom offset (c :: rest) =
          ⟨Name.kind (String.ofList name), String.ofList name, offset⟩ ::
            scanFrom (offset + Text.unitCount spelling) after)) := by
  refine ⟨fun offset name pieces hname hpieces => ?_, fun offset c rest hc =>
    ⟨exists_longestRun _, fun name spelling after htext hname hlongest => ?_⟩⟩
  · have hraw : List.Forall₂ Writes name (name.map ([·])) :=
      List.forall₂_map_right_iff.mpr (List.forall₂_same.mpr fun _ _ => .inl rfl)
    have hflatten : (name.map ([·])).flatten = name := by
      rw [← List.flatMap_def, List.flatMap_singleton']
    have hscan := scan_spelled offset hname (.of_writes hname hraw)
    rw [hflatten] at hscan
    exact ⟨scan_spelled offset hname (.of_writes hname hpieces), hscan⟩
  · rw [htext] at hlongest
    obtain ⟨hhead, more, hrun⟩ | ⟨hhead, hrun⟩ := run_of_longest hlongest hname
    · refine ⟨fun _ => ?_, fun hother => absurd hhead hother⟩
      rw [← htext] at hrun
      have hfirst : first c rest = spelled .error c rest (spelling.length + more) := by
        rw [first_name hc, Lexeme.name, hrun]
        rfl
      obtain ⟨behind, rfl⟩ := List.head?_eq_some_iff.mp hhead
      rw [scanFrom_spelled offset hfirst]
      refine ⟨_, rfl, behind.take more, ?_⟩
      rw [String.toList_ofList, ← List.take_succ_cons, htext, Nat.add_assoc,
        List.take_length_add_append, List.take_succ_cons, List.append_assoc, List.singleton_append]
    · refine ⟨fun hother => absurd hother hhead, fun _ => ?_⟩
      have hpos := @length_run_pos c rest isStart (hc.imp_left isPart_of_isStart)
      rw [htext, hrun] at hpos
      obtain ⟨d, more, rfl⟩ := List.exists_cons_of_ne_nil (List.ne_nil_of_length_pos hpos)
      obtain ⟨rfl, rfl⟩ := List.cons.inj htext
      exact scanFrom_leads offset (leads_run hc hrun)

-- A keyword stays one when two of its letters are escaped. Of two texts that begin with a backslash
-- one begins with an escape and the other one does not.
theorem scan_name_spelling_escaped :
    let pieces := [['\\', 'u', '0', '0', '7', '4'], ['r'], ['u'], ['\\', 'u', '0', '0', '6', '5']]
    let letter := ['\\', 'u', '0', '0', '6', '1']
    IsName ['t', 'r', 'u', 'e'] ∧ List.Forall₂ Writes ['t', 'r', 'u', 'e'] pieces ∧
    scanFrom 0 pieces.flatten = [⟨.trueLiteral, "true", 0⟩, ⟨.eof, "", 14⟩] ∧
    LongestRun letter (letter ++ ['-']) ∧
    scanFrom 0 (letter ++ ['-']) = ⟨.identifier, "a", 0⟩ :: scanFrom 6 ['-'] ∧
    LongestRun [] ['\\', 'x'] ∧
    ∃ text, (scanFrom 0 ['\\', 'x']).head? = some ⟨.error, text, 0⟩ ∧ ['\\'] <+: text.toList := by
  intro pieces letter
  have escape {c : Char} {digits : List Char} (h : Escape.code? 4 digits = some c.toNat)
      (hlength : digits.take 4 = digits) (hc : Text.charUnits c = [c.toNat]) :
      Escape.Escapes (Text.charUnits c) ('\\' :: 'u' :: digits) := by
    have hdigits := Escape.code_eq_some.mp h
    rw [hlength] at hdigits
    rw [hc]
    simpa using Escape.Escapes.cons hdigits .nil
  have hmore : ['r', 'u', 'e'].all isPart = true := by decide
  have hname : IsName ['t', 'r', 'u', 'e'] :=
    ⟨'t', ['r', 'u', 'e'], rfl, by decide, List.all_eq_true.mp hmore⟩
  have hpieces : List.Forall₂ Writes ['t', 'r', 'u', 'e'] pieces :=
    .cons (.inr (escape rfl rfl rfl)) (.cons (.inl rfl) (.cons (.inl rfl)
      (.cons (.inr (escape rfl rfl rfl)) .nil)))
  have hpiece : Piece isStart 'a' letter := .inr ⟨escape rfl rfl rfl, by decide⟩
  have hletter : Spelled isStart ['a'] letter := by simpa using Spelled.cons hpiece .nil
  have hlongest : LongestRun letter (letter ++ ['-']) := by
    refine ⟨⟨_, hletter⟩, List.prefix_append _ _, ?_⟩
    rintro other ⟨name, hother⟩ ⟨more, hmore⟩
    have hlength := congrArg Run.length (run_spelled hother more)
    rw [hmore, run_spelled hletter, run_cons, if_neg (by decide), if_neg (by decide)] at hlength
    dsimp only at hlength
    omega
  have hnone : LongestRun [] ['\\', 'x'] := by
    refine ⟨⟨[], .nil⟩, List.nil_prefix, ?_⟩
    rintro other ⟨name, hother⟩ ⟨more, hmore⟩
    have hempty := congrArg Run.name (run_spelled hother more)
    rw [hmore, run_cons, if_pos rfl] at hempty
    cases hother with
    | nil => exact Nat.le_refl 0
    | cons => simp [Name.escape] at hempty
  obtain ⟨hspelled, hruns⟩ := scan_name_spelling
  exact ⟨hname, hpieces, (hspelled 0 _ _ hname hpieces).1, hlongest,
    ((hruns 0 '\\' _ (.inr rfl)).2 _ letter ['-'] rfl hletter hlongest).2 (by decide), hnone,
    ((hruns 0 '\\' ['x'] (.inr rfl)).2 [] [] _ rfl .nil hnone).1 rfl⟩

end Token

end DeclarativeOptions
