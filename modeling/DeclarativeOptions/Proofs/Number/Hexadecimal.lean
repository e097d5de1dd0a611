import DeclarativeOptions.Proofs.Number.Nearest
import DeclarativeOptions.Proofs.Number.Spelling
import DeclarativeOptions.Proofs.Token.NumberLiteral
import DeclarativeOptions.Proofs.Token.UnitEscape

namespace DeclarativeOptions

private theorem log2_div_pow (n k : Nat) : Nat.log2 (n / 2 ^ k) = Nat.log2 n - k := by
  rw [Nat.log2_eq_log_two, Nat.log2_eq_log_two, Nat.log_div_base_pow]

private theorem log2_append {n d : Nat} (hn : n ≠ 0) (hd : d < 16) :
    Nat.log2 (16 * n + d) = Nat.log2 n + 4 := by
  have hdiv : (16 * n + d) / 2 ^ 4 = n := by omega
  have hlog := log2_div_pow (16 * n + d) 4
  have hle : 4 ≤ Nat.log2 (16 * n + d) := (Nat.le_log2 (by omega)).mpr (by omega)
  rw [hdiv] at hlog
  omega

-- Digits that are added to a numeral change how it is rounded only if it has been halfway between
-- two numbers and was rounded down
private theorem roundHalfEven_append {front behind base half : Nat} (hbehind : behind < base)
    (hhalf : 0 < half) :
    roundHalfEven (front * base + behind) (2 * half * base) = roundHalfEven front (2 * half) +
      if front % (4 * half) = half ∧ behind ≠ 0 then 1 else 0 := by
  have hbase : 0 < base := by omega
  have hfront : (front * base + behind) / base = front := by
    rw [Nat.mul_comm, Nat.mul_add_div hbase, Nat.div_eq_of_lt hbehind, Nat.add_zero]
  have hquotient : (front * base + behind) / (2 * half * base) = front / (2 * half) := by
    rw [Nat.mul_comm (2 * half), ← Nat.div_div_eq_div_mul, hfront]
  have hremainder : (front * base + behind) % (2 * half * base) =
      front % (2 * half) * base + behind := by
    rw [Nat.mul_comm (2 * half), Nat.mod_mul, hfront, Nat.mul_comm front, Nat.mul_add_mod,
      Nat.mod_eq_of_lt hbehind, Nat.add_comm, Nat.mul_comm]
  have hquadruple : 4 * half = 2 * half * 2 := by omega
  have hhalfway (h : front % (4 * half) = half ∧ behind ≠ 0) : front % (2 * half) = half := by
    rw [← Nat.mod_mul_right_mod front (2 * half) 2, ← hquadruple, h.1,
      Nat.mod_eq_of_lt (by omega)]
  have hstep : 2 * half * base = 2 * (half * base) := Nat.mul_assoc ..
  -- compared with half of the step, the remainder decides unless it is the half itself
  obtain hless | hequal | hmore := Nat.lt_trichotomy (front % (2 * half)) half
  · have hbelow : (front % (2 * half) + 1) * base ≤ half * base := Nat.mul_le_mul_right _ hless
    rw [Nat.add_mul] at hbelow
    have hnot := mt hhalfway (Nat.ne_of_lt hless)
    rw [roundHalfEven_of_lt (by omega), roundHalfEven_of_lt (by omega), hquotient, if_neg hnot,
      Nat.add_zero]
  · rw [hequal] at hremainder
    by_cases hzero : behind = 0
    · rw [roundHalfEven_of_eq (by omega), roundHalfEven_of_eq (by omega), hquotient,
        if_neg (by simp [hzero]), Nat.add_zero]
    · rw [roundHalfEven_of_gt (by omega), roundHalfEven_of_eq (by omega), hquotient, hquadruple,
        Nat.mod_mul, hequal]
      obtain heven | hodd := Nat.mod_two_eq_zero_or_one (front / (2 * half))
      · rw [heven, if_pos ⟨by omega, hzero⟩]
      · rw [hodd, if_neg (by omega)]
  · have habove : half * base < front % (2 * half) * base :=
      Nat.mul_lt_mul_of_pos_right hmore hbase
    have hnot := mt hhalfway (Nat.ne_of_gt hmore)
    rw [roundHalfEven_of_gt (by omega), roundHalfEven_of_gt (by omega), hquotient, if_neg hnot,
      Nat.add_zero]

namespace Magnitude

-- Digits at the end of the hexadecimal numeral that do not count
def surplus (n : Nat) : Nat := (Nat.log2 n - 53) / 4

-- The number with zeros in the place of these digits
def leading (n : Nat) : Nat := n / 16 ^ surplus n * 16 ^ surplus n

-- The digits that count are halfway between two magnitudes of which the lower one is even, and those
-- that do not count make the number larger than that
def SurplusDecides (n : Nat) : Prop :=
  n / 16 ^ surplus n % 2 ^ (Nat.log2 (n / 16 ^ surplus n) - 51) =
    2 ^ (Nat.log2 (n / 16 ^ surplus n) - 53) ∧ n % 16 ^ surplus n ≠ 0

instance : DecidablePred SurplusDecides := fun _ => inferInstanceAs (Decidable (_ ∧ _))

variable {n d : Nat}

theorem surplus_of_lt (hn : n < 2 ^ 57) : surplus n = 0 := by
  have hlog : Nat.log2 n ≤ 56 := by
    by_cases hzero : n = 0
    · simp [hzero]
    · exact Nat.le_of_lt_succ ((Nat.log2_lt hzero).mpr hn)
  unfold surplus
  omega

theorem leading_of_lt (hn : n < 2 ^ 57) : leading n = n := by
  simp [leading, surplus_of_lt hn]

theorem leading_append (hn : 2 ^ 53 ≤ n) (hd : d < 16) :
    leading (16 * n + d) = 16 * leading n := by
  have hne : n ≠ 0 := by omega
  have hlog : 53 ≤ Nat.log2 n := (Nat.le_log2 hne).mpr hn
  have hsurplus : surplus (16 * n + d) = surplus n + 1 := by
    unfold surplus
    rw [log2_append hne hd]
    omega
  have hdiv : (16 * n + d) / 16 = n := by omega
  rw [leading, leading, hsurplus, Nat.pow_succ, Nat.mul_comm (16 ^ surplus n) 16,
    ← Nat.div_div_eq_div_mul, hdiv]
  exact Nat.mul_left_comm ..

theorem pow_sixteen (count : Nat) : 16 ^ count = 2 ^ (4 * count) := by
  rw [Nat.pow_mul]

theorem log2_leading (n : Nat) : Nat.log2 (leading n) = Nat.log2 n := by
  by_cases hn : n < 2 ^ 53
  · rw [leading_of_lt (by omega)]
  · have hne : n ≠ 0 := by omega
    have hlog : 53 ≤ Nat.log2 n := (Nat.le_log2 hne).mpr (by omega)
    have hfits : 4 * surplus n ≤ Nat.log2 n := by
      unfold surplus
      omega
    have hfront : n / 2 ^ (4 * surplus n) ≠ 0 := by
      have hle := (Nat.le_log2 hne).mp hfits
      exact Nat.ne_of_gt (Nat.div_pos hle (Nat.two_pow_pos _))
    rw [leading, pow_sixteen, log2_mul_pow hfront, log2_div_pow, Nat.sub_add_cancel hfits]

theorem leading_ne_zero (hn : n ≠ 0) : leading n ≠ 0 := by
  intro hzero
  have hlog := log2_leading n
  rw [hzero, Nat.log2_zero] at hlog
  have hsmall : n < 2 ^ 57 := (Nat.log2_lt hn).mp (by omega)
  rw [leading_of_lt hsmall] at hzero
  exact hn hzero

private theorem le_leading (hn : 2 ^ 53 ≤ n) : 2 ^ 53 ≤ leading n := by
  have hne : n ≠ 0 := by omega
  rw [← Nat.le_log2 (leading_ne_zero hne), log2_leading]
  exact (Nat.le_log2 hne).mpr hn

private theorem wholeRank_mul (hn : n ≠ 0) : wholeRank (16 * n) = wholeRank n + 4 * 2 ^ 52 := by
  have hlog : Nat.log2 (n * 2 ^ 4) = Nat.log2 n + 4 := log2_mul_pow hn 4
  have hsignificand : significand (n * 2 ^ 4) = significand n := by
    rw [significand, hlog, Nat.pow_add, Nat.mul_right_comm,
      roundHalfEven_mul_right _ _ (by decide), significand]
  have hmul : 16 * n = n * 2 ^ 4 := Nat.mul_comm ..
  rw [hmul, wholeRank, wholeRank, hlog, hsignificand]
  omega

-- A magnitude and less than half of a step
private theorem nearest_of_lt_half {bits place extra : Nat} (hlow : 2 ^ 52 ≤ bits)
    (hhigh : bits < 2 ^ 53) (hextra : 2 * extra < 2 ^ place) :
    nearest (bits * 2 ^ place + extra) unitsPerOne = ofRank (place * 2 ^ 52 + bits) := by
  have hpos : 0 < 2 ^ place := Nat.two_pow_pos place
  obtain ⟨whole, hwhole⟩ : ∃ whole, whole = bits * 2 ^ place + extra := ⟨_, rfl⟩
  have hlog : Nat.log2 whole = place + 52 := by
    have hle : 2 ^ 52 * 2 ^ place ≤ bits * 2 ^ place := Nat.mul_le_mul_right _ hlow
    have hlt : (bits + 1) * 2 ^ place ≤ 2 ^ 53 * 2 ^ place := Nat.mul_le_mul_right _ hhigh
    rw [Nat.add_mul] at hlt
    rw [Nat.log2_eq_iff (by omega), Nat.pow_add, Nat.add_assoc, Nat.pow_add 2 place,
      Nat.mul_comm (2 ^ place), Nat.mul_comm (2 ^ place)]
    omega
  have hquotient : whole / 2 ^ place = bits := by
    rw [hwhole, Nat.mul_comm, Nat.mul_add_div hpos, Nat.div_eq_of_lt (by omega), Nat.add_zero]
  have hremainder : whole % 2 ^ place = extra := by
    rw [hwhole, Nat.mul_comm, Nat.mul_add_mod, Nat.mod_eq_of_lt (by omega)]
  have hround : roundHalfEven (whole * unitsPerOne) (unitsPerOne * 2 ^ place) = bits := by
    rw [Nat.mul_comm unitsPerOne, roundHalfEven_mul_right _ _ unitsPerOne_pos]
    simp only [roundHalfEven, hquotient, hremainder, if_pos hextra]
  have hunits : whole * unitsPerOne / unitsPerOne = whole :=
    Nat.mul_div_cancel _ unitsPerOne_pos
  simp only [← hwhole, nearest_eq, hunits, hlog, Nat.add_sub_cancel, hround]

private theorem append_ofNat_of_lt (hn : n < 2 ^ 53) (d : Nat) :
    append 16 (ofNat n) d = ofNat (16 * n + d) := by
  obtain ⟨hfinite, hunits⟩ := units_ofNat hn
  have hsum : 16 * (n * unitsPerOne) + d * unitsPerOne = (16 * n + d) * unitsPerOne := by
    rw [Nat.add_mul, Nat.mul_assoc]
  have hscaled := nearest_mul_right (16 * n + d) 1 unitsPerOne_pos
  rw [Nat.one_mul] at hscaled
  rw [append, hfinite, if_neg Bool.false_ne_true, hunits, hsum, hscaled, ofNat]

-- Behind 53 bits, a digit is less than half of a step
private theorem append_ofNat_of_le (hn : 2 ^ 53 ≤ n) (hd : d < 16) :
    append 16 (ofNat n) d = ofNat (16 * n) := by
  have hne : n ≠ 0 := by omega
  have hlog : 53 ≤ Nat.log2 n := (Nat.le_log2 hne).mpr hn
  have hsignificand := le_significand hne
  have hrank : 1076 * 2 ^ 52 ≤ wholeRank n := by
    unfold wholeRank
    omega
  rw [ofNat_eq_ofRank (show 16 * n ≠ 0 by omega), wholeRank_mul hne, ofNat_eq_ofRank hne]
  by_cases hfinite : wholeRank n < 2047 * 2 ^ 52
  · obtain ⟨m, hm⟩ : ∃ m, m = ofRank (wholeRank n) := ⟨_, rfl⟩
    have hmRank : m.rank = wholeRank n := by
      rw [hm]
      exact Nat.min_eq_left (Nat.le_of_lt hfinite)
    obtain ⟨run, hrun⟩ : ∃ run, m.rank / 2 ^ 52 = run + 1 := ⟨m.rank / 2 ^ 52 - 1, by omega⟩
    obtain ⟨bits, hbits⟩ : ∃ bits, bits = m.rank - run * 2 ^ 52 := ⟨_, rfl⟩
    have hunits : 16 * m.units = bits * 2 ^ (run + 4) := by
      rw [@units_of_rank m run bits (by omega) (by omega) (by omega), Nat.pow_add, Nat.mul_comm 16,
        Nat.mul_assoc]
    obtain ⟨place, hplace⟩ : ∃ place, run + 4 = 5 + place + 1074 := ⟨run - 1075, by omega⟩
    have hextra : 2 * (d * unitsPerOne) < 2 ^ (run + 4) := by
      calc
        2 * (d * unitsPerOne) = 2 * d * unitsPerOne := (Nat.mul_assoc ..).symm
        _ < 2 ^ 5 * unitsPerOne := Nat.mul_lt_mul_of_pos_right (by omega) unitsPerOne_pos
        _ ≤ 2 ^ (5 + place) * unitsPerOne :=
          Nat.mul_le_mul_right _ (Nat.pow_le_pow_right (by decide) (Nat.le_add_right 5 place))
        _ = 2 ^ (run + 4) := by rw [hplace, two_pow_add]
    have hfinite : m.isInfinite = false := isInfinite_eq_false (by omega)
    have hsum : (run + 4) * 2 ^ 52 + bits = wholeRank n + 4 * 2 ^ 52 := by omega
    rw [← hm, append, hfinite, if_neg Bool.false_ne_true, hunits,
      nearest_of_lt_half (by omega) (by omega) hextra, hsum]
  · rw [ofRank_eq_infinity (by omega), ofRank_eq_infinity (by omega)]
    rfl

private theorem append_leading (n : Nat) (hd : d < 16) :
    append 16 (ofNat (leading n)) d = ofNat (leading (16 * n + d)) := by
  by_cases hn : n < 2 ^ 53
  · rw [leading_of_lt (by omega), leading_of_lt (by omega), append_ofNat_of_lt hn]
  · have hle : 2 ^ 53 ≤ n := Nat.le_of_not_lt hn
    rw [leading_append hle hd, append_ofNat_of_le (le_leading hle) hd]

-- By induction on the digits, from any number that has been read before them
theorem foldl_append {values : List Nat} (hvalues : ∀ d ∈ values, d < 16) (n : Nat) :
    values.foldl (append 16) (ofNat (leading n)) =
      ofNat (leading (values.foldl (fun n d => 16 * n + d) n)) := by
  induction values generalizing n with
  | nil => rfl
  | cons d values ih =>
    obtain ⟨hd, hvalues⟩ := List.forall_mem_cons.mp hvalues
    rw [List.foldl_cons, List.foldl_cons, append_leading n hd, ih hvalues]

-- The digits that do not count are lost to the significand only where they would decide
private theorem significand_leading (n : Nat) :
    significand n = significand (leading n) + if SurplusDecides n then 1 else 0 := by
  by_cases hn : n < 2 ^ 53
  · have hsurplus := surplus_of_lt (show n < 2 ^ 57 by omega)
    have hnot : ¬SurplusDecides n := by
      rintro ⟨-, hmore⟩
      simp [hsurplus, Nat.mod_one] at hmore
    rw [leading_of_lt (by omega), if_neg hnot, Nat.add_zero]
  · have hlog : 53 ≤ Nat.log2 n := (Nat.le_log2 (by omega)).mpr (by omega)
    have hfits : 4 * surplus n + 53 ≤ Nat.log2 n := by
      unfold surplus
      omega
    obtain ⟨more, hmore⟩ : ∃ more, Nat.log2 n = more + 53 + 4 * surplus n :=
      ⟨Nat.log2 n - 53 - 4 * surplus n, by omega⟩
    have hfront : Nat.log2 (n / 16 ^ surplus n) = more + 53 := by
      rw [pow_sixteen, log2_div_pow]
      omega
    have hlow : 2 ^ (Nat.log2 (n / 16 ^ surplus n) - 53) = 2 ^ more := by
      rw [hfront, Nat.add_sub_cancel]
    have hhigh : 2 ^ (Nat.log2 (n / 16 ^ surplus n) - 51) = 4 * 2 ^ more := by
      rw [hfront, Nat.mul_comm]
      exact Nat.pow_add 2 more 2
    have hden : 2 ^ Nat.log2 n = 2 * 2 ^ more * 16 ^ surplus n * 2 ^ 52 := by
      rw [hmore, pow_sixteen, Nat.mul_comm 2, ← Nat.pow_succ, ← Nat.pow_add, ← Nat.pow_add]
      congr 1
      omega
    have hpos : 0 < 16 ^ surplus n := Nat.pow_pos (by decide)
    have hsplit : n / 16 ^ surplus n * 16 ^ surplus n + n % 16 ^ surplus n = n :=
      Nat.div_add_mod' ..
    have happend := @roundHalfEven_append (n / 16 ^ surplus n) (n % 16 ^ surplus n)
      (16 ^ surplus n) (2 ^ more) (Nat.mod_lt _ hpos) (Nat.two_pow_pos more)
    rw [hsplit] at happend
    simp only [SurplusDecides, hlow, hhigh]
    rw [significand, significand, log2_leading, hden,
      roundHalfEven_mul_right _ _ (by decide), roundHalfEven_mul_right _ _ (by decide), happend,
      leading, roundHalfEven_mul_right _ _ hpos]

theorem ofNat_leading_eq_iff (n : Nat) :
    ofNat (leading n) = ofNat n ↔ 1024 ≤ Nat.log2 n ∨ ¬SurplusDecides n := by
  by_cases hzero : n = 0
  · subst hzero
    decide +kernel
  have hlog := log2_leading n
  have hsignificand := significand_leading n
  by_cases hdecides : SurplusDecides n
  · rw [if_pos hdecides] at hsignificand
    by_cases hlarge : 1024 ≤ Nat.log2 n
    · rw [ofNat_eq_infinity hlarge, ofNat_eq_infinity (hlog ▸ hlarge)]
      simp [hlarge]
    · have hle := significand_le n
      have hrank : wholeRank n = wholeRank (leading n) + 1 := by
        rw [wholeRank, wholeRank, hlog, hsignificand, Nat.add_assoc]
      have hfits : wholeRank n ≤ 2047 * 2 ^ 52 := by
        unfold wholeRank
        omega
      have hne : ofNat (leading n) ≠ ofNat n := by
        intro hsame
        rw [ofNat_eq_ofRank (leading_ne_zero hzero), ofNat_eq_ofRank hzero] at hsame
        have hranks := congrArg rank hsame
        rw [rank_ofRank hfits, rank_ofRank (by omega)] at hranks
        omega
      simp [hne, hlarge, hdecides]
  · rw [if_neg hdecides, Nat.add_zero] at hsignificand
    have hrank : wholeRank (leading n) = wholeRank n := by
      rw [wholeRank, wholeRank, hlog, hsignificand]
    rw [ofNat_eq_ofRank (leading_ne_zero hzero), ofNat_eq_ofRank hzero, hrank]
    simp [hdecides]

end Magnitude

open Numeral NumberLiteral

private theorem Numeral.hexadecimal_of_digits {count n : Nat} {digits : List Char}
    (h : Escape.Digits (count + 1) n digits) :
    hexadecimal? digits = some (.signed false (.ofNat (Magnitude.leading n))) := by
  obtain ⟨hlength, values, hvalues, rfl⟩ := h
  have hempty : digits.isEmpty = false := by
    cases digits with
    | nil => simp at hlength
    | cons => rfl
  have hzero : Magnitude.ofNat (Magnitude.leading 0) = .zero := by
    rw [Magnitude.leading_of_lt (by decide), Magnitude.ofNat_zero]
  have hfold := Magnitude.foldl_append (Escape.lt_of_digits hvalues) 0
  rw [hzero, Escape.foldl_digits] at hfold
  rw [hexadecimal?, hempty, Escape.mapM_hexDigit.mpr hvalues, if_neg Bool.false_ne_true,
    Option.map_some, hfold]

-- The digits of a whole number are a numeral
private theorem Numeral.spells_toDigits (n : Nat) : Spells (Nat.toDigits 10 n) ⟨n, 0⟩ := by
  have hdigits : ∀ c ∈ Nat.toDigits 10 n, c.isDigit = true :=
    fun c hc => Nat.isDigit_of_mem_toDigits (by decide) (by decide) hc
  have hspells := Spells.mk Nat.toDigits_ne_nil hdigits .none .none
  rwa [List.append_nil, List.append_nil, Nat.ofDigitChars_ten_toDigits] at hspells

namespace Number

variable {n count : Nat} {sign : Option Char} {x : Char} {digits : List Char}

theorem read_decimal (hsign : ∀ c ∈ sign, isSign c = true) (n : Nat) :
    read? (sign.toList ++ Nat.toDigits 10 n) = some (.signed (sign == some '-') (.ofNat n)) := by
  have hspells := spells_toDigits n
  obtain ⟨c, rest, hcons, hc⟩ := hspells.exists_cons
  rw [← Decimal.nearest_ofNat]
  refine read_of_takeSign hspells ?_
  rw [hcons]
  exact takeSign_append hsign (.inl hc)

theorem read_hexadecimal (hsign : ∀ c ∈ sign, isSign c = true) (hx : x = 'x' ∨ x = 'X')
    (hdigits : Escape.Digits (count + 1) n digits) :
    read? (sign.toList ++ '0' :: x :: digits) =
      some (.signed (sign == some '-') (.ofNat (Magnitude.leading n))) := by
  have htake : takeSign (sign.toList ++ '0' :: x :: digits) =
      (sign == some '-', '0' :: x :: digits) := takeSign_append hsign (.inl rfl)
  have hread := hexadecimal_of_digits hdigits
  unfold read?
  rw [htake]
  obtain rfl | rfl := hx
  · simp only [hread, Option.map_some, withSign_signed]
  · simp only [hread, Option.map_some, withSign_signed]

-- The decimal numeral of a whole number is read as the number nearest to it. The hexadecimal one is
-- rounded at every digit, but the rounding can only change at the digit that exceeds 53 bits: all
-- digits behind it count as zeros. The two differ where the digits that count lie halfway between
-- two magnitudes and those that do not would have to decide.
theorem read_hexadecimal_decimal (hsign : ∀ c ∈ sign, isSign c = true) (hx : x = 'x' ∨ x = 'X')
    (hdigits : Escape.Digits (count + 1) n digits) :
    (∃ m, Magnitude.IsNearest n m ∧
      read? (sign.toList ++ Nat.toDigits 10 n) = some (.signed (sign == some '-') m)) ∧
    (∃ m, Magnitude.IsNearest (Magnitude.leading n) m ∧
      read? (sign.toList ++ '0' :: x :: digits) = some (.signed (sign == some '-') m)) ∧
    (read? (sign.toList ++ '0' :: x :: digits) = read? (sign.toList ++ Nat.toDigits 10 n) ↔
      1024 ≤ Nat.log2 n ∨ ¬Magnitude.SurplusDecides n) := by
  have hdecimal := read_decimal hsign n
  have hhexadecimal := read_hexadecimal hsign hx hdigits
  refine ⟨⟨_, .ofNat n, hdecimal⟩, ⟨_, .ofNat _, hhexadecimal⟩, ?_⟩
  rw [hdecimal, hhexadecimal, ← Magnitude.ofNat_leading_eq_iff]
  simp

theorem read_hexadecimal_decimal_surplus :
    (∀ c ∈ some '-', isSign c = true) ∧ Escape.Digits 15 0x200000000000011 "200000000000011".toList ∧
      (∃ m, Magnitude.IsNearest 0x200000000000010 m ∧
        read? "-0x200000000000011".toList = some (.signed true m)) ∧
      read? "-0x200000000000011".toList ≠ read? "-144115188075855889".toList := by
  have hsign : ∀ c ∈ some '-', isSign c = true := by simp [isSign]
  have hdigits : Escape.Digits 15 0x200000000000011 "200000000000011".toList :=
    (@Escape.code_eq_some 15 _ "200000000000011".toList).mp (by decide +kernel)
  obtain ⟨-, hhexadecimal, hsame⟩ := read_hexadecimal_decimal hsign (.inl rfl) hdigits
  have hdecides : Magnitude.SurplusDecides 0x200000000000011 := by decide +kernel
  have hsmall : Nat.log2 0x200000000000011 < 1024 := by decide +kernel
  refine ⟨hsign, hdigits, hhexadecimal, fun heq => ?_⟩
  cases hsame.mp heq with
  | inl hlarge => omega
  | inr hnot => exact hnot hdecides

-- The last digit decides between two magnitudes, and is not read any more
theorem read_surplus :
    read? "0x200000000000011".toList ≠ read? (Nat.toDigits 10 0x200000000000011) := by
  decide +kernel

end Number

end DeclarativeOptions
