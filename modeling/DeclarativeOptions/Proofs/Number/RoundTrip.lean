import DeclarativeOptions.Proofs.Number.Spelling

namespace DeclarativeOptions

open Numeral

namespace Decimal

variable {d : Decimal}

-- What a decimal reads back as when its leading digits are spelled at their places
theorem nearest_of_eq {significand : Nat} {exponent : Int}
    (hsignificand : significand = Nat.ofDigitChars 10 d.leadingDigits 0)
    (hexponent : exponent = d.place + 1 - d.leadingDigits.length) :
    nearest ⟨significand, exponent⟩ = d.nearest := by
  rw [hsignificand, hexponent, nearest_leadingDigits]

private theorem isDigit_of_mem_replicate {n : Nat} :
    ∀ c ∈ List.replicate n '0', c.isDigit = true := by
  intro c hc
  rw [List.eq_of_mem_replicate hc]
  rfl

-- A whole number with zeros behind its leading digits, before and behind the point
private theorem spells_whole {before behind : Nat} {point : List Char} (hd : d.significand ≠ 0)
    (hpoint : Point point (List.replicate behind '0'))
    (hbefore : (before : Int) = d.place + 1 - d.leadingDigits.length) :
    ∃ d', Spells (d.leadingDigits ++ List.replicate before '0' ++ point) d' ∧
      d'.nearest = d.nearest := by
  have hwhole : ∀ c ∈ d.leadingDigits ++ List.replicate before '0', c.isDigit = true := by
    intro c hc
    cases List.mem_append.mp hc with
    | inl hdigit => exact isDigit_of_mem_leadingDigits hdigit
    | inr hzero => exact isDigit_of_mem_replicate c hzero
  have hne : d.leadingDigits ++ List.replicate before '0' ≠ [] := by
    simp [leadingDigits_ne_nil hd]
  have hspells := Spells.mk hne hwhole hpoint .none
  rw [List.append_nil] at hspells
  refine ⟨_, hspells, ?_⟩
  rw [List.append_assoc, Nat.ofDigitChars_append, List.replicate_append_replicate,
    Nat.ofDigitChars_replicate_zero, Nat.mul_comm, nearest_mul_pow, List.length_replicate]
  exact nearest_of_eq rfl (by omega)

private theorem spells_positional (pointed : Bool) (hd : d.significand ≠ 0) :
    ∃ d', Spells (d.positional pointed) d' ∧ d'.nearest = d.nearest := by
  unfold positional
  dsimp only
  split_ifs with hplace hlength hpointed
  · have hdigits : ∀ c ∈ List.replicate (-d.place - 1).toNat '0' ++ d.leadingDigits,
        c.isDigit = true := by
      intro c hc
      cases List.mem_append.mp hc with
      | inl hzero => exact isDigit_of_mem_replicate c hzero
      | inr hdigit => exact isDigit_of_mem_leadingDigits hdigit
    have hspells := Spells.mk (List.cons_ne_nil '0' []) (by simp) (.some hdigits) .none
    rw [List.append_nil] at hspells
    refine ⟨_, hspells, nearest_of_eq ?_ ?_⟩
    · simp [Nat.ofDigitChars_append, Nat.ofDigitChars_cons]
    · simp only [List.length_append, List.length_replicate]
      omega
  · have hpoint : Point ['.', '0'] (List.replicate 1 '0') := .some (by simp)
    exact spells_whole hd hpoint (by omega)
  · have hpoint : Point [] (List.replicate 0 '0') := .none
    exact spells_whole hd hpoint (by omega)
  · -- the point is inside of the leading digits
    have htake : ∀ c ∈ d.leadingDigits.take (d.place.toNat + 1), c.isDigit = true :=
      fun c hc => isDigit_of_mem_leadingDigits (List.mem_of_mem_take hc)
    have hdrop : ∀ c ∈ d.leadingDigits.drop (d.place.toNat + 1), c.isDigit = true :=
      fun c hc => isDigit_of_mem_leadingDigits (List.mem_of_mem_drop hc)
    have hne : d.leadingDigits.take (d.place.toNat + 1) ≠ [] := by
      simp [leadingDigits_ne_nil hd]
    have hspells := Spells.mk hne htake (.some hdrop) .none
    rw [List.append_nil] at hspells
    refine ⟨_, hspells, nearest_of_eq ?_ ?_⟩
    · rw [List.take_append_drop]
    · simp only [List.length_drop]
      omega

private theorem power_place (plus : Bool) (place : Int) :
    Power ('e' :: if place < 0 then '-' :: Nat.toDigits 10 place.natAbs
      else if plus then '+' :: Nat.toDigits 10 place.natAbs
      else Nat.toDigits 10 place.natAbs) place := by
  have hdigits : ∀ c ∈ Nat.toDigits 10 place.natAbs, c.isDigit = true :=
    fun c hc => Nat.isDigit_of_mem_toDigits (by decide) (by decide) hc
  split_ifs with hplace hplus
  · have hpower := Power.minus Nat.toDigits_ne_nil hdigits
    have hvalue : -(place.natAbs : Int) = place := by omega
    rwa [Nat.ofDigitChars_ten_toDigits, hvalue] at hpower
  · have hpower := Power.plus Nat.toDigits_ne_nil hdigits
    have hvalue : (place.natAbs : Int) = place := by omega
    rwa [Nat.ofDigitChars_ten_toDigits, hvalue] at hpower
  · have hpower := Power.plain Nat.toDigits_ne_nil hdigits
    have hvalue : (place.natAbs : Int) = place := by omega
    rwa [Nat.ofDigitChars_ten_toDigits, hvalue] at hpower

private theorem spells_scientific (plus : Bool) (hd : d.significand ≠ 0) :
    ∃ d', Spells (d.scientific plus) d' ∧ d'.nearest = d.nearest := by
  have hpower := power_place plus d.place
  obtain ⟨digit, more, hdigits⟩ := List.exists_cons_of_ne_nil (leadingDigits_ne_nil hd)
  have hall : ∀ c ∈ digit :: more, c.isDigit = true :=
    fun c hc => isDigit_of_mem_leadingDigits (hdigits ▸ hc)
  have hdigit : ∀ c ∈ [digit], c.isDigit = true := by simpa using hall digit (by simp)
  unfold scientific
  rw [hdigits]
  cases more with
  | nil =>
    refine ⟨_, .mk (List.cons_ne_nil digit []) hdigit .none hpower, nearest_of_eq ?_ ?_⟩
    · rw [hdigits, List.append_nil]
    · simp [hdigits]
  | cons second more =>
    have hmore : ∀ c ∈ second :: more, c.isDigit = true :=
      fun c hc => hall c (List.mem_cons_of_mem _ hc)
    refine ⟨_, .mk (List.cons_ne_nil digit []) hdigit (.some hmore) hpower, nearest_of_eq ?_ ?_⟩
    · rw [hdigits, List.singleton_append]
    · simp only [hdigits, List.length_cons]
      omega

end Decimal

namespace NumberStyle

variable {style : NumberStyle} {m : Magnitude}

theorem spells_magnitude (hfinite : m.isInfinite = false) (hm : m.rank ≠ 0) :
    ∃ d, Spells (style.magnitude m) d ∧ d.nearest = m := by
  have hnearest := Magnitude.nearest_shortest style.tie hfinite hm
  have hd : (m.shortest style.tie).significand ≠ 0 := by
    intro hzero
    rw [Decimal.nearest, if_pos hzero] at hnearest
    exact hm (congrArg Magnitude.rank hnearest).symm
  unfold magnitude
  dsimp only
  split_ifs
  · obtain ⟨d, hspells, hsame⟩ := Decimal.spells_positional style.pointed hd
    exact ⟨d, hspells, hsame.trans hnearest⟩
  · obtain ⟨d, hspells, hsame⟩ := Decimal.spells_scientific style.plus hd
    exact ⟨d, hspells, hsame.trans hnearest⟩

private theorem spells_zero (pointed : Bool) :
    ∃ d, Spells (if pointed then ['0', '.', '0'] else ['0']) d ∧ d.nearest = .zero := by
  have hwhole : ∀ c ∈ ['0'], c.isDigit = true := by simp
  cases pointed with
  | true => exact ⟨_, .mk (List.cons_ne_nil '0' []) hwhole (.some hwhole) .none, if_pos rfl⟩
  | false => exact ⟨_, .mk (List.cons_ne_nil '0' []) hwhole .none .none, if_pos rfl⟩

-- What stands behind the sign of a finite number
theorem exists_spells_finite (style : NumberStyle) (negative : Bool)
    (hfinite : m.isInfinite = false) : ∃ text d,
    style.finite negative m = (if negative then ['-'] else []) ++ text ∧ Spells text d ∧
      d.nearest = m := by
  unfold finite
  by_cases hm : m.rank = 0
  · obtain ⟨d, hspells, hnearest⟩ := spells_zero style.pointed
    have hzero : m = .zero := by
      obtain ⟨rank, hrank⟩ := m
      obtain rfl : rank = 0 := hm
      rfl
    exact ⟨_, d, by rw [if_pos hm], hspells, hnearest.trans hzero.symm⟩
  · obtain ⟨d, hspells, hnearest⟩ := @spells_magnitude style m hfinite hm
    exact ⟨_, d, by rw [if_neg hm], hspells, hnearest⟩

end NumberStyle

namespace Number

-- The numbers that a text can be read back as: the sign of zero is not kept
def withoutZeroSign : Number → Number
  | .nan => .nan
  | .signed negative m => .signed (negative && m.rank != 0) m

-- The spelling of a finite number: a numeral, with a sign if the number is below zero
theorem exists_spells_keyChars {n : Number} (hfinite : n.isFinite = true) : ∃ text d negative,
    n.keyChars = (if negative then ['-'] else []) ++ text ∧ Spells text d ∧
      n.withoutZeroSign = .signed negative d.nearest := by
  cases n with
  | nan => simp [isFinite] at hfinite
  | signed negative m =>
    have hm : m.isInfinite = false := by simpa [isFinite] using hfinite
    obtain ⟨text, d, htext, hspells, hnearest⟩ :=
      keyStyle.exists_spells_finite (negative && m.rank != 0) hm
    refine ⟨text, d, negative && m.rank != 0, ?_, hspells, ?_⟩
    · rw [← htext, keyChars, if_neg (by simp [hm])]
    · rw [hnearest, withoutZeroSign]

theorem read_keyChars {n : Number} (hfinite : n.isFinite = true) :
    read? n.keyChars = some n.withoutZeroSign := by
  obtain ⟨text, d, negative, htext, hspells, hvalue⟩ := exists_spells_keyChars hfinite
  rw [htext, hvalue]
  cases negative with
  | true => exact read_of_spells_negative hspells
  | false => exact read_of_spells hspells

end Number

end DeclarativeOptions
