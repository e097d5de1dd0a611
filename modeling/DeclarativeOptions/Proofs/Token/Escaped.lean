import DeclarativeOptions.Proofs.Token.Lookahead

namespace DeclarativeOptions

namespace Escape

open Lexeme

variable {c : Char} {front rest rest' text text' meaning : List Char} {count unit : Nat}

theorem code_append (h : count ≤ front.length) (rest : List Char) :
    code? count (front ++ rest) = code? count front := by
  rw [code?, code?, List.take_append_of_le_length h]

theorem code_le (h : code? count text = some unit) : count ≤ text.length := by
  unfold code? at h
  split_ifs at h with hlength
  rw [List.length_take] at hlength
  omega

theorem lowSurrogate_le {low : Nat} (h : lowSurrogate? text = some low) : 6 ≤ text.length := by
  unfold lowSurrogate? at h
  split at h
  · rename_i digits
    have hdigits := code_le (Option.filter_eq_some_iff.mp h).1
    simp only [List.length_cons]
    omega
  · simp at h

private theorem isHexDigit_of_mapM {values : List Nat} (h : text.mapM hexDigit? = some values) :
    ∀ c ∈ text, isHexDigit c = true := by
  induction text generalizing values with
  | nil => simp
  | cons c text ih =>
    rw [List.mapM_cons] at h
    obtain ⟨value, hvalue, h⟩ := Option.bind_eq_some_iff.mp h
    obtain ⟨more, hmore, -⟩ := Option.bind_eq_some_iff.mp h
    exact List.forall_mem_cons.mpr ⟨by simp [isHexDigit, hvalue], ih hmore⟩

-- The digits of a code are seen as a whole, or there is no code
theorem code_of_opens (h : Opens text text') (hcode : code? count text' = some unit) :
    code? count text = some unit := by
  have hboth := hcode
  unfold code? at hcode
  split_ifs at hcode with hlength
  obtain ⟨values, hvalues, -⟩ := Option.map_eq_some_iff.mp hcode
  have hfront := h (text'.take count)
    (fun c hc => isSeparator_of_isHexDigit (isHexDigit_of_mapM hvalues c hc))
    (List.take_prefix count text')
  obtain ⟨more, rfl⟩ := hfront
  rw [code_append (Nat.le_of_eq hlength.symm)]
  conv at hboth => lhs; rw [← List.take_append_drop count text']
  rwa [code_append (Nat.le_of_eq hlength.symm)] at hboth

private theorem code_eq_none_of_opens (h : Opens text text') (hcode : code? count text = none) :
    code? count text' = none := by
  cases hcode' : code? count text' with
  | none => rfl
  | some unit => simp [code_of_opens h hcode'] at hcode

private theorem lowSurrogate_of_opens (h : Opens text text') (hlow : lowSurrogate? text = none) :
    lowSurrogate? text' = none := by
  cases hlow' : lowSurrogate? text' with
  | none => rfl
  | some low =>
    unfold lowSurrogate? at hlow'
    split at hlow'
    · obtain ⟨more, rfl, hmore⟩ := h.exists_cons (by decide)
      obtain ⟨digits, rfl, hdigits⟩ := hmore.exists_cons (by decide)
      obtain ⟨hcode, hrange⟩ := Option.filter_eq_some_iff.mp hlow'
      simp [lowSurrogate?, code_of_opens hdigits hcode, Option.filter, hrange] at hlow
    · simp at hlow'

private theorem lowSurrogate_append (h : front.length = 6) {low : Nat}
    (hlow : lowSurrogate? (front ++ rest) = some low) (rest' : List Char) :
    lowSurrogate? (front ++ rest') = some low := by
  match front, h with
  | a :: b :: digits, h =>
    have hdigits : 4 ≤ digits.length := by
      simp only [List.length_cons] at h
      omega
    unfold lowSurrogate? at hlow
    split at hlow
    · rename_i heq
      simp only [List.cons_append, List.cons.injEq] at heq
      obtain ⟨rfl, rfl, rfl⟩ := heq
      rw [code_append hdigits] at hlow
      simp only [List.cons_append, lowSurrogate?, code_append hdigits]
      exact hlow
    · simp at hlow

theorem unicode_of_code (h : code? 4 text = some unit) : unicode? text = some
    (if Text.isHighSurrogate unit then
      match lowSurrogate? (text.drop 4) with
      | some low => (Text.pairChar unit low, 10)
      | none => (Text.unitChar unit, 4)
    else (Text.unitChar unit, 4)) :=
  congrArg (Option.map _) h

theorem unicode_le {length : Nat} (h : unicode? text = some (c, length)) :
    length ≤ text.length := by
  cases hcode : code? 4 text with
  | none => simp [unicode?, hcode] at h
  | some unit =>
    have hfour := code_le hcode
    rw [unicode_of_code hcode] at h
    split_ifs at h with hhigh
    · cases hlow : lowSurrogate? (text.drop 4) with
      | some low =>
        obtain ⟨-, rfl⟩ : Text.pairChar unit low = c ∧ 10 = length := by simpa [hlow] using h
        have hsix := lowSurrogate_le hlow
        rw [List.length_drop] at hsix
        omega
      | none =>
        obtain ⟨-, rfl⟩ : Text.unitChar unit = c ∧ 4 = length := by simpa [hlow] using h
        exact hfour
    · obtain ⟨-, rfl⟩ : Text.unitChar unit = c ∧ 4 = length := by simpa using h
      exact hfour

-- The two surrogates of a pair stand together, and where there is no second one none comes to stand
theorem unicode_steady (h : unicode? (front ++ rest) = some (c, front.length))
    (hopens : Opens rest rest') : unicode? (front ++ rest') = some (c, front.length) := by
  cases hcode : code? 4 (front ++ rest) with
  | none => simp [unicode?, hcode] at h
  | some unit =>
    have hcode' (hfour : 4 ≤ front.length) : code? 4 (front ++ rest') = some unit := by
      rwa [code_append hfour] at hcode ⊢
    have hdrop (hfour : 4 ≤ front.length) (more : List Char) :
        (front ++ more).drop 4 = front.drop 4 ++ more := List.drop_append_of_le_length hfour
    rw [unicode_of_code hcode] at h
    split_ifs at h with hhigh
    · cases hlow : lowSurrogate? ((front ++ rest).drop 4) with
      | some low =>
        obtain ⟨hc, hlength⟩ : Text.pairChar unit low = c ∧ 10 = front.length := by
          simpa [hlow] using h
        have hfour : 4 ≤ front.length := by omega
        rw [hdrop hfour] at hlow
        have hlow' := lowSurrogate_append (by rw [List.length_drop]; omega) hlow rest'
        rw [unicode_of_code (hcode' hfour), if_pos hhigh, hdrop hfour, hlow', ← hlength, ← hc]
      | none =>
        obtain ⟨hc, hlength⟩ : Text.unitChar unit = c ∧ 4 = front.length := by
          simpa [hlow] using h
        have hfour : 4 ≤ front.length := by omega
        have hnil : front.drop 4 = [] := List.drop_eq_nil_of_le (by omega)
        rw [hdrop hfour, hnil, List.nil_append] at hlow
        rw [unicode_of_code (hcode' hfour), if_pos hhigh, hdrop hfour, hnil, List.nil_append,
          lowSurrogate_of_opens hopens hlow, ← hlength, ← hc]
    · obtain ⟨hc, hlength⟩ : Text.unitChar unit = c ∧ 4 = front.length := by simpa using h
      rw [unicode_of_code (hcode' (by omega)), if_neg hhigh, ← hlength, ← hc]

private theorem unicode_eq_none_of_opens (h : Opens text text') (hunicode : unicode? text = none) :
    unicode? text' = none := by
  rw [unicode?, Option.map_eq_none_iff] at hunicode ⊢
  exact code_eq_none_of_opens h hunicode

theorem inString_single (hx : c ≠ 'x') (hu : c ≠ 'u')
    (hline : c = '\r' → text.head? ≠ some '\n') : inString? (c :: text) =
      if c = '\r' ∨ c = '\n' ∨ c = '\u2028' ∨ c = '\u2029' then some ([], 1)
      else some ([single c], 1) := by
  unfold inString?
  split
  · rename_i heq
    exact absurd heq (List.cons_ne_nil _ _)
  · rename_i heq
    exact absurd (List.cons.inj heq).1 hx
  · rename_i heq
    exact absurd (List.cons.inj heq).1 hu
  · rename_i heq
    obtain ⟨hc, htext⟩ := List.cons.inj heq
    exact absurd (by rw [htext]; rfl) (hline hc)
  · rename_i heq
    obtain ⟨rfl, -⟩ := List.cons.inj heq
    rfl

theorem inString_pos {length : Nat}
    (h : inString? text = some (meaning, length)) : length ≠ 0 := by
  unfold inString? at h
  split at h
  · simp at h
  · obtain ⟨code, -, h⟩ := Option.map_eq_some_iff.mp h
    obtain ⟨-, rfl⟩ := Prod.mk.inj h
    decide
  · obtain ⟨found, -, h⟩ := Option.map_eq_some_iff.mp h
    obtain ⟨-, rfl⟩ := Prod.mk.inj h
    exact Nat.succ_ne_zero _
  · obtain ⟨-, rfl⟩ := Prod.mk.inj (Option.some.inj h)
    decide
  · split_ifs at h
    all_goals
      obtain ⟨-, rfl⟩ := Prod.mk.inj (Option.some.inj h)
      decide

-- Behind a carriage return the next character counts, so it has to be the same one
theorem inString_steady (h : inString? (front ++ rest) = some (meaning, front.length))
    (hhead : rest.head? = rest'.head?) (hopens : Opens rest rest') :
    inString? (front ++ rest') = some (meaning, front.length) := by
  cases front with
  | nil => exact absurd rfl (inString_pos h)
  | cons c front =>
    rw [List.cons_append, List.length_cons] at h ⊢
    by_cases hx : c = 'x'
    · subst hx
      obtain ⟨code, hcode, h⟩ := Option.map_eq_some_iff.mp h
      obtain ⟨hmeaning, hlength⟩ := Prod.mk.inj h
      have htwo : 2 ≤ front.length := by omega
      rw [code_append htwo] at hcode
      simp only [inString?, code_append htwo, hcode, Option.map_some, hmeaning, hlength]
    by_cases hu : c = 'u'
    · subst hu
      obtain ⟨⟨decoded, length⟩, hunicode, h⟩ := Option.map_eq_some_iff.mp h
      obtain ⟨hmeaning, hlength⟩ := Prod.mk.inj h
      obtain rfl := Nat.succ.inj hlength
      simp only [inString?, unicode_steady hunicode hopens, Option.map_some, hmeaning]
    by_cases hline : c = '\r' ∧ (front ++ rest).head? = some '\n'
    · obtain ⟨rfl, hnext⟩ := hline
      obtain ⟨more, hmore⟩ := List.head?_eq_some_iff.mp hnext
      rw [hmore] at h
      obtain ⟨hmeaning, hlength⟩ := Prod.mk.inj (Option.some.inj h)
      obtain ⟨d, rfl⟩ := List.length_eq_one_iff.mp (Nat.succ.inj hlength).symm
      obtain ⟨rfl, -⟩ := List.cons.inj hmore
      rw [← hmeaning]
      rfl
    · have hsingle : c = '\r' → (front ++ rest).head? ≠ some '\n' :=
        fun hc hnext => hline ⟨hc, hnext⟩
      rw [inString_single hx hu hsingle] at h
      obtain rfl : front = [] := by
        have hlength : 1 = front.length + 1 := by
          split_ifs at h
          all_goals exact (Prod.mk.inj (Option.some.inj h)).2
        exact List.eq_nil_of_length_eq_zero (by omega)
      rw [List.nil_append, hhead] at hsingle
      rw [List.nil_append, inString_single hx hu hsingle, h]

end Escape

namespace Name

open Lexeme

variable {c : Char} {front rest rest' text : List Char} {isLegal : Char → Bool}

private theorem isPart_of_isSeparator (h : isSeparator c = true) : isPart c = false := by
  have hstart := isStart_of_isSeparator h
  have hnumeric : Text.Ranges.numeric.contains c.toNat = false := by
    cases (Bool.or_eq_true _ _).mp h with
    | inl hwhitespace => exact Text.Ranges.contains_disjoint (by decide +kernel) hwhitespace
    | inr hmark =>
      obtain rfl := eq_of_beq hmark
      decide +kernel
  simp only [isStart, Bool.or_eq_false_iff] at hstart
  simp only [isPart, Text.isAlphanumeric, hstart, hnumeric, Bool.or_false]

theorem escape_cons (c : Char) (text : List Char) : escape isLegal (c :: text) =
    if c = 'u' then
      match Escape.unicode? text with
      | some (c, length) => if isLegal c then .ok (c, length + 1) else .error (length + 1)
      | none => .error 1
    else .error 0 := by
  by_cases hc : c = 'u'
  · subst hc
    rfl
  · rw [if_neg hc]
    unfold escape
    split
    · rename_i heq
      exact absurd (List.cons.inj heq).1 hc
    · rfl

-- How many characters an escape or what is none takes
def escapeLength : Except Nat (Char × Nat) → Nat
  | .ok (_, length) => length
  | .error length => length

private theorem escapeLength_cons_pos (c : Char) (text : List Char) (hc : c = 'u') :
    escapeLength (escape isLegal (c :: text)) ≠ 0 := by
  rw [escape_cons, if_pos hc]
  cases Escape.unicode? text with
  | none => simp [escapeLength]
  | some found => by_cases hlegal : isLegal found.1 <;> simp [hlegal, escapeLength]

theorem escapeLength_le (isLegal : Char → Bool) (text : List Char) :
    escapeLength (escape isLegal text) ≤ text.length := by
  cases text with
  | nil => exact Nat.le_refl 0
  | cons c text =>
    rw [escape_cons]
    by_cases hc : c = 'u'
    · rw [if_pos hc]
      cases hunicode : Escape.unicode? text with
      | none => simp [escapeLength]
      | some found =>
        have hle := Escape.unicode_le hunicode
        by_cases hlegal : isLegal found.1 <;> simpa [hlegal, escapeLength] using hle
    · simp [hc, escapeLength]

theorem escape_of_opens (h : escapeLength (escape isLegal rest) = 0) (hopens : Opens rest rest') :
    escape isLegal rest' = .error 0 := by
  cases rest' with
  | nil => rfl
  | cons c rest' =>
    by_cases hc : c = 'u'
    · obtain ⟨more, rfl, -⟩ := hopens.exists_cons (hc ▸ by decide)
      exact absurd h (escapeLength_cons_pos c more hc)
    · rw [escape_cons, if_neg hc]

theorem escape_steady (h : escapeLength (escape isLegal (front ++ rest)) = front.length)
    (hopens : Opens rest rest') :
    escape isLegal (front ++ rest') = escape isLegal (front ++ rest) := by
  cases front with
  | nil =>
    rw [List.nil_append] at h
    rw [List.nil_append, List.nil_append, escape_of_opens h hopens, escape_of_opens h (.refl rest)]
  | cons c front =>
    rw [List.cons_append, escape_cons] at h
    rw [List.cons_append, List.cons_append, escape_cons, escape_cons]
    by_cases hc : c = 'u'
    · rw [if_pos hc] at h
      rw [if_pos hc, if_pos hc]
      cases hunicode : Escape.unicode? (front ++ rest) with
      | none =>
        rw [hunicode] at h
        obtain rfl : front = [] := by simpa [escapeLength] using h
        rw [List.nil_append] at hunicode ⊢
        rw [Escape.unicode_eq_none_of_opens hopens hunicode]
      | some found =>
        obtain ⟨decoded, length⟩ := found
        obtain rfl : length = front.length := by
          rw [hunicode] at h
          by_cases hlegal : isLegal decoded <;> simpa [hlegal, escapeLength] using h
        rw [Escape.unicode_steady hunicode hopens]
    · simp [hc, escapeLength] at h

theorem run_cons (c : Char) (text : List Char) : run isLegal (c :: text) =
    if c = '\\' then
      match escape isLegal text with
      | .ok (decoded, length) => (run isPart (text.drop length)).extend decoded (length + 1)
      | .error length => ⟨[], length + 1, false⟩
    else if isPart c then (run isPart text).extend c 1
    else ⟨[], 0, true⟩ :=
  run.eq_2 isLegal c text

theorem length_run_le (isLegal : Char → Bool) (text : List Char) :
    (run isLegal text).length ≤ text.length := by
  fun_induction run isLegal text with
  | case1 => exact Nat.le_refl 0
  | case2 isLegal rest decoded length hescape ih =>
    have hle := escapeLength_le isLegal rest
    rw [hescape, escapeLength] at hle
    simp only [Run.extend, List.length_cons, List.length_drop] at ih ⊢
    omega
  | case3 isLegal rest length hescape =>
    have hle := escapeLength_le isLegal rest
    rw [hescape, escapeLength] at hle
    exact Nat.succ_le_succ hle
  | case4 isLegal c rest hc hpart ih =>
    simp only [Run.extend, List.length_cons]
    omega
  | case5 => exact Nat.zero_le _

theorem length_run_cons_eq_zero (h : (run isLegal (c :: text)).length = 0) :
    c ≠ '\\' ∧ isPart c = false := by
  rw [run_cons] at h
  split_ifs at h with hc hpart
  · split at h <;> simp [Run.extend] at h
  · simp [Run.extend] at h
  · exact ⟨hc, by simpa using hpart⟩

theorem length_run_pos (h : isPart c = true ∨ c = '\\') :
    0 < (run isLegal (c :: rest)).length := by
  refine Nat.pos_of_ne_zero fun hzero => ?_
  obtain ⟨hc, hpart⟩ := length_run_cons_eq_zero hzero
  obtain h | h := h
  · simp [hpart] at h
  · exact hc h

theorem run_of_opens (h : (run isLegal rest).length = 0) (hopens : Opens rest rest') :
    run isLegal rest' = ⟨[], 0, true⟩ := by
  cases rest' with
  | nil => rw [run]
  | cons c rest' =>
    obtain ⟨hc, hpart⟩ : c ≠ '\\' ∧ isPart c = false := by
      cases hseparator : isSeparator c with
      | true =>
        refine ⟨?_, isPart_of_isSeparator hseparator⟩
        rintro rfl
        exact absurd hseparator (by decide)
      | false =>
        obtain ⟨more, rfl, -⟩ := hopens.exists_cons hseparator
        exact length_run_cons_eq_zero h
    rw [run_cons, if_neg hc, if_neg (by simp [hpart])]

-- The induction is on what the name takes, whose next part is a character or an escape
theorem run_steady (h : (run isLegal (front ++ rest)).length = front.length)
    (hopens : Opens rest rest') : run isLegal (front ++ rest') = run isLegal (front ++ rest) := by
  induction hn : front.length using Nat.strongRecOn generalizing front isLegal with
  | ind n ih =>
    subst hn
    cases front with
    | nil =>
      rw [List.nil_append] at h
      rw [List.nil_append, List.nil_append, run_of_opens h hopens, run_of_opens h (.refl rest)]
    | cons c front =>
      rw [List.cons_append, run_cons, List.length_cons] at h
      rw [List.cons_append, List.cons_append, run_cons, run_cons]
      by_cases hc : c = '\\'
      · rw [if_pos hc] at h
        rw [if_pos hc, if_pos hc]
        cases hescape : escape isLegal (front ++ rest) with
        | error length =>
          rw [hescape] at h
          obtain rfl : length = front.length := by simpa using h
          have hsteady := escape_steady (by rw [hescape]; rfl) hopens
          rw [hsteady, hescape]
        | ok found =>
          obtain ⟨decoded, length⟩ := found
          rw [hescape] at h
          simp only [Run.extend] at h
          have hle : length ≤ front.length := by omega
          obtain ⟨first, second, rfl, rfl⟩ := exists_append_of_le hle
          rw [List.append_assoc] at hescape h
          rw [List.drop_left, List.length_append] at h
          have hsteady := escape_steady (by rw [hescape]; rfl) (hopens.append second)
          have hless : second.length < (c :: (first ++ second)).length := by
            simp only [List.length_cons, List.length_append]
            omega
          have hmore := @ih second.length hless second isPart (by omega) rfl
          simp only [List.append_assoc, hsteady, hescape, List.drop_left, hmore]
      · rw [if_neg hc] at h
        rw [if_neg hc, if_neg hc]
        by_cases hpart : isPart c = true
        · rw [if_pos hpart] at h
          have hmore := @ih front.length (by simp) front isPart (by simpa [Run.extend] using h) rfl
          rw [if_pos hpart, if_pos hpart, hmore]
        · simp [hpart] at h

end Name

namespace StringLiteral

open Lexeme

variable {c quote : Char} {front rest rest' text value : List Char} {length : Nat}

-- A literal ends with the quote that it begins with
theorem exists_of_read (h : read? quote text = some (value, length)) :
    ∃ inside rest, text = inside ++ quote :: rest ∧ length = inside.length + 1 := by
  fun_induction read? quote text generalizing value length with
  | case1 => simp at h
  | case2 rest =>
    obtain ⟨-, rfl⟩ := Prod.mk.inj (Option.some.inj h)
    exact ⟨[], rest, rfl, rfl⟩
  | case3 c rest hquote hline => simp at h
  | case4 rest hescape => simp at h
  | case5 rest meaning count hescape hquote hline ih =>
    obtain ⟨⟨value, more⟩, hread, h⟩ := Option.map_eq_some_iff.mp h
    obtain ⟨inside, after, hrest, rfl⟩ := ih hread
    obtain ⟨-, rfl⟩ := Prod.mk.inj h
    have htext : rest = rest.take count ++ (inside ++ quote :: after) := by
      rw [← hrest, List.take_append_drop]
    have hcount : (rest.take count).length = count := by
      have hlength := congrArg List.length hrest
      simp only [List.length_drop, List.length_append, List.length_cons] at hlength
      rw [List.length_take]
      omega
    refine ⟨'\\' :: (rest.take count ++ inside), after, ?_, ?_⟩
    · rw [List.cons_append, List.append_assoc, ← htext]
    · rw [List.length_cons, List.length_append, hcount]
      omega
  | case6 c rest hquote hline hescape ih =>
    obtain ⟨⟨value, more⟩, hread, h⟩ := Option.map_eq_some_iff.mp h
    obtain ⟨inside, after, rfl, rfl⟩ := ih hread
    obtain ⟨-, rfl⟩ := Prod.mk.inj h
    exact ⟨c :: inside, after, rfl, rfl⟩

-- So it takes that quote at least
theorem ne_nil_of_read (h : read? quote (front ++ rest) = some (value, front.length)) :
    front ≠ [] := by
  rintro rfl
  obtain ⟨inside, after, -, hlength⟩ := exists_of_read h
  simp at hlength

-- What a literal begins with: its closing quote, an escape or a character that stands for itself
theorem read_cons_eq_some : read? quote (c :: text) = some (value, length) ↔
    (c = quote ∧ [] = value ∧ 1 = length) ∨
    (c ≠ quote ∧ c = '\\' ∧ ∃ meaning count after more,
      Escape.inString? text = some (meaning, count) ∧
      read? quote (text.drop count) = some (after, more) ∧
      meaning ++ after = value ∧ more + count + 1 = length) ∨
    (c ≠ quote ∧ ¬(c = '\r' ∨ c = '\n') ∧ c ≠ '\\' ∧ ∃ after more,
      read? quote text = some (after, more) ∧ c :: after = value ∧ more + 1 = length) := by
  rw [read?]
  by_cases hquote : c = quote
  · simp [hquote]
  by_cases hline : c = '\r' ∨ c = '\n'
  · have hescape : c ≠ '\\' := by
      rintro rfl
      simp at hline
    simp [hquote, hline, hescape]
  by_cases hescape : c = '\\'
  · subst hescape
    cases hmeaning : Escape.inString? text with
    | none => simp [hquote]
    | some found =>
      obtain ⟨meaning, count⟩ := found
      simp [hquote, Option.map_eq_some_iff, and_assoc]
  · simp [hquote, hline, hescape, Option.map_eq_some_iff]

-- The induction is on what the literal takes
theorem read_steady (h : read? quote (front ++ rest) = some (value, front.length))
    (hopens : Opens rest rest') : read? quote (front ++ rest') = some (value, front.length) := by
  induction hn : front.length using Nat.strongRecOn generalizing front value with
  | ind n ih =>
    subst hn
    cases front with
    | nil => exact absurd rfl (ne_nil_of_read h)
    | cons c front =>
      rw [List.cons_append] at h ⊢
      rw [read_cons_eq_some]
      obtain ⟨hquote, hvalue, hlength⟩ | ⟨hquote, hescape, meaning, count, after, more, hmeaning,
        hread, hvalue, hlength⟩ | ⟨hquote, hline, hescape, after, more, hread, hvalue, hlength⟩ :=
        read_cons_eq_some.mp h
      · exact .inl ⟨hquote, hvalue, hlength⟩
      · rw [List.length_cons] at hlength
        have hle : count ≤ front.length := by omega
        obtain ⟨first, second, rfl, rfl⟩ := exists_append_of_le hle
        obtain rfl : more = second.length := by
          rw [List.length_append] at hlength
          omega
        rw [List.append_assoc] at hmeaning hread
        rw [List.drop_left] at hread
        have hless : second.length < (c :: (first ++ second)).length := by
          simp only [List.length_cons, List.length_append]
          omega
        have hread' := ih second.length hless hread rfl
        have hhead : (second ++ rest).head? = (second ++ rest').head? := by
          obtain ⟨d, more, rfl⟩ := List.exists_cons_of_ne_nil (ne_nil_of_read hread)
          rfl
        have hmeaning' := Escape.inString_steady hmeaning hhead (hopens.append second)
        refine .inr (.inl ⟨hquote, hescape, meaning, first.length, after, second.length, ?_, ?_,
          hvalue, hlength⟩)
        · rw [List.append_assoc, hmeaning']
        · rw [List.append_assoc, List.drop_left, hread']
      · obtain rfl : more = front.length := Nat.succ.inj hlength
        have hread' := ih front.length (by simp) hread rfl
        exact .inr (.inr ⟨hquote, hline, hescape, after, front.length, hread', hvalue, hlength⟩)

-- Whitespace at the end of the text does not close a literal that has been left open
theorem read_append_separators {blanks : List Char} (hquote : isSeparator quote = false)
    (hblanks : ∀ c ∈ blanks, isSeparator c = true) (h : read? quote text = none) :
    read? quote (text ++ blanks) = none := by
  cases hread : read? quote (text ++ blanks) with
  | none => rfl
  | some found =>
    obtain ⟨value, length⟩ := found
    obtain ⟨inside, rest, htext, rfl⟩ := exists_of_read hread
    obtain ⟨after, hafter, hrest⟩ : ∃ after, text = inside ++ [quote] ++ after ∧
        rest = after ++ blanks := by
      rw [List.append_cons] at htext
      obtain ⟨more, hmore, hblank⟩ | ⟨more, hmore, hrest⟩ := List.append_eq_append_iff.mp htext
      · cases List.eq_nil_or_concat more with
        | inl hnil =>
          subst hnil
          exact ⟨[], by simpa using hmore.symm, by simpa using hblank.symm⟩
        | inr hconcat =>
          obtain ⟨front, last, rfl⟩ := hconcat
          rw [List.concat_eq_append, ← List.append_assoc] at hmore
          obtain ⟨-, hlast⟩ := List.append_inj' hmore rfl
          have hmem : quote ∈ blanks := by
            rw [hblank, List.singleton_inj.mp hlast]
            simp
          simp [hblanks quote hmem] at hquote
      · exact ⟨more, hmore, hrest⟩
    have hopens : Opens (after ++ blanks) after :=
      fun front _ hprefix => hprefix.trans (List.prefix_append after blanks)
    have hlength : (inside ++ [quote]).length = inside.length + 1 := by simp
    rw [hafter, List.append_assoc, ← hlength] at hread
    rw [hafter, read_steady hread hopens] at h
    simp at h

end StringLiteral

end DeclarativeOptions
