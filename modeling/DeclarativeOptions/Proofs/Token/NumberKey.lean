import DeclarativeOptions.Evaluation
import DeclarativeOptions.Proofs.Number.Key
import DeclarativeOptions.Proofs.Parser.Acceptance
import DeclarativeOptions.Proofs.Token.Content
import DeclarativeOptions.Proofs.Token.Leading
import DeclarativeOptions.Proofs.Value.Data
import DeclarativeOptions.Value.Literal

namespace DeclarativeOptions

open Lexeme

private theorem Number.exists_infinite {x : Number} (hne : x ≠ .nan)
    (hinfinite : x.isFinite = false) : ∃ negative, x = .signed negative .infinity ∧
      x.key = if negative then "-Infinity" else "Infinity" := by
  cases x with
  | nan => exact absurd rfl hne
  | signed negative m =>
    obtain rfl := Magnitude.eq_infinity (by simpa [isFinite] using hinfinite)
    refine ⟨negative, rfl, ?_⟩
    cases negative with
    | true => rfl
    | false => rfl

namespace Token

variable {text : String} {t : Token} {x : Number}

theorem kind_of_number (hx : t.number? = some x) : t.kind = .numberLiteral := by
  by_cases hkind : t.kind = .numberLiteral
  · exact hkind
  · rw [number?, if_neg hkind] at hx
    simp at hx

theorem ne_nan_of_mem (ht : t ∈ scan text) (hx : t.number? = some x) : x ≠ .nan := by
  obtain ⟨n, hn, hne⟩ := (genuine_of_mem ht).exists_number (kind_of_number hx)
  rw [hx] at hn
  exact Option.some.inj hn ▸ hne

-- The name of a finite number is a token, whatever form it has
theorem scan_key (hfinite : x.isFinite = true) :
    scan x.key = [⟨.numberLiteral, x.key, 0⟩, ⟨.eof, "", Text.unitCount x.key.toList⟩] := by
  obtain ⟨text, d, negative, htext, hspells, -⟩ := Number.exists_spells_keyChars hfinite
  have hstops : Stops [] := by simp [Stops]
  have hleads := leads_number hspells hstops negative
  have hscan := scanFrom_leads 0 hleads
  rw [← htext, List.append_nil, Nat.zero_add, scanFrom] at hscan
  rw [scan, Number.key, String.toList_ofList, hscan]

theorem number_key (x : Number) :
    number? ⟨.numberLiteral, x.key, 0⟩ = some x.withoutZeroSign := by
  rw [number?, if_pos rfl, Number.read_key]

-- A finite number of a text is named by a number literal of the same number, and is printed like
-- that. What a literal writes beyond the last finite number is named by a word.
theorem scan_number_key (ht : t ∈ scan text) (hx : t.number? = some x) :
    (x.isFinite = true →
      scan x.key = [⟨.numberLiteral, x.key, 0⟩, ⟨.eof, "", Text.unitCount x.key.toList⟩] ∧
      number? ⟨.numberLiteral, x.key, 0⟩ = some x.withoutZeroSign ∧
      x.withoutZeroSign.equal x = true ∧
      ∀ layout, (Value.number x).literal layout = x.key) ∧
    (x.isFinite = false → ∃ negative, x = .signed negative .infinity ∧
      x.key = if negative then "-Infinity" else "Infinity") := by
  constructor
  · intro hfinite
    exact ⟨scan_key hfinite, number_key x, Number.withoutZeroSign_equal hfinite, fun _ => rfl⟩
  · exact Number.exists_infinite (ne_nan_of_mem ht hx)

-- Below the least positive number the sign is all that is left, and it is not named
theorem scan_number_key_zero :
    ⟨.numberLiteral, "-1e-999", 0⟩ ∈ scan "-1e-999" ∧
    number? ⟨.numberLiteral, "-1e-999", 0⟩ = some (.signed true .zero) ∧
    scan (Number.signed true .zero).key = [⟨.numberLiteral, "0", 0⟩, ⟨.eof, "", 1⟩] := by
  have hmem : ⟨.numberLiteral, "-1e-999", 0⟩ ∈ scan "-1e-999" := by
    have hfirst : first '-' "1e-999".toList = spelled .numberLiteral '-' "1e-999".toList 6 := rfl
    have hscan := scanFrom_spelled 0 hfirst
    exact List.mem_of_mem_head? (congrArg List.head? hscan)
  have hnumber : number? ⟨.numberLiteral, "-1e-999", 0⟩ = some (.signed true .zero) := by
    decide +kernel
  exact ⟨hmem, hnumber, ((scan_number_key hmem hnumber).1 rfl).1⟩

-- What a literal writes beyond the last finite number is printed as a word, which is read as a name
-- that nothing is bound to
theorem infinite_number_read_back :
    let x : Number := .signed false .infinity
    let env : Environment := ⟨.idle, .empty, .empty⟩
    ⟨.numberLiteral, "1e999", 0⟩ ∈ scan "1e999" ∧
    number? ⟨.numberLiteral, "1e999", 0⟩ = some x ∧
    env.evaluateText "1e999" = ([], .ok (.number x)) ∧
    scan x.key = [⟨.identifier, "Infinity", 0⟩, ⟨.eof, "", 8⟩] ∧
    ∀ layout, (Value.number x).literal layout = x.key ∧
      env.evaluateText ((Value.number x).literal layout) = ([], .ok .undefined) ∧
      Value.undefined.equal (.number x) = false := by
  intro x env
  have hfirst : first '1' "e999".toList = spelled .numberLiteral '1' "e999".toList 4 := rfl
  have hscan : scan "1e999" = [⟨.numberLiteral, "1e999", 0⟩, ⟨.eof, "", 5⟩] := by
    have hscan := scanFrom_spelled 0 hfirst
    rw [List.drop_eq_nil_of_le (by decide), scanFrom] at hscan
    exact hscan
  have hnumber : number? ⟨.numberLiteral, "1e999", 0⟩ = some x := by decide +kernel
  have hparse : Expr.parse "1e999" = .ok (.number x) :=
    Parser.parse_of_derives (congrArg _ hscan) (.scalar (.number rfl hnumber)) (by decide)
  have hleads : Leads .identifier "Infinity".toList "Infinity".toList [] :=
    leads_name (by decide) (by decide) (by simp [Stops])
  have hword : scan "Infinity" = [⟨.identifier, "Infinity", 0⟩, ⟨.eof, "", 8⟩] := by
    have hscan := scanFrom_leads 0 hleads
    rw [scanFrom] at hscan
    exact hscan
  have hname : Grammar.Derives (.value (.access ⟨.identifier "Infinity", []⟩))
      [⟨.identifier, "Infinity", 0⟩] :=
    .access (@Grammar.Start.identifier ⟨.identifier, "Infinity", 0⟩ rfl) .nil
  have hback : Expr.parse "Infinity" = .ok (.access ⟨.identifier "Infinity", []⟩) :=
    Parser.parse_of_derives (congrArg _ hword) hname (by decide)
  refine ⟨hscan ▸ List.mem_cons_self, hnumber, ?_, hword, fun layout => ⟨rfl, ?_, rfl⟩⟩
  · simp only [Environment.evaluateText, hparse]
    rfl
  · have hliteral : (Value.number x).literal layout = "Infinity" := rfl
    simp only [Environment.evaluateText, hliteral, hback]
    rfl

end Token

end DeclarativeOptions
