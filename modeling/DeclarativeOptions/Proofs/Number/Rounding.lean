import DeclarativeOptions.Number.Shortest
import Mathlib.Algebra.Group.Nat.Defs

namespace DeclarativeOptions

theorem roundHalfEven_mul_right (num den : Nat) {c : Nat} (hc : 0 < c) :
    roundHalfEven (num * c) (den * c) = roundHalfEven num den := by
  have hmod : num * c % (den * c) = num % den * c := Nat.mul_mod_mul_right c num den
  have hdiv : num * c / (den * c) = num / den := Nat.mul_div_mul_right num den hc
  have hless : 2 * (num % den * c) < den * c ↔ 2 * (num % den) < den := by
    rw [← Nat.mul_assoc]
    exact Nat.mul_lt_mul_right hc
  have hmore : den * c < 2 * (num % den * c) ↔ den < 2 * (num % den) := by
    rw [← Nat.mul_assoc]
    exact Nat.mul_lt_mul_right hc
  simp only [roundHalfEven, hmod, hdiv, hless, hmore]

theorem roundHalfEven_mul_self (n : Nat) {den : Nat} (hden : 0 < den) :
    roundHalfEven (n * den) den = n := by
  have hmod : n * den % den = 0 := Nat.mul_mod_left n den
  have hdiv : n * den / den = n := Nat.mul_div_cancel n hden
  simp [roundHalfEven, hmod, hdiv, hden]

namespace Magnitude

theorem units_eq (m : Magnitude) : m.units = if m.rank / 2 ^ 52 = 0 then m.rank
    else (2 ^ 52 + m.rank % 2 ^ 52) * 2 ^ (m.rank / 2 ^ 52 - 1) := rfl

theorem nearest_eq (num den : Nat) : nearest num den =
    let scale := Nat.log2 (num * unitsPerOne / den) - 52
    ofRank (scale * 2 ^ 52 + roundHalfEven (num * unitsPerOne) (den * 2 ^ scale)) := rfl

theorem unitsPerOne_eq : unitsPerOne = 2 ^ 1074 := by
  unfold unitsPerOne
  -- with the exponent in sight, the power would be computed
  generalize 1074 = places
  rfl

theorem unitsPerOne_pos : 0 < unitsPerOne := by decide +kernel

theorem nearest_mul_right (num den : Nat) {c : Nat} (hc : 0 < c) :
    nearest (num * c) (den * c) = nearest num den := by
  have hunits : num * c * unitsPerOne = num * unitsPerOne * c := Nat.mul_right_comm ..
  have hdiv : num * unitsPerOne * c / (den * c) = num * unitsPerOne / den :=
    Nat.mul_div_mul_right _ _ hc
  have hden (scale : Nat) : den * c * 2 ^ scale = den * 2 ^ scale * c := Nat.mul_right_comm ..
  simp only [nearest_eq, hunits, hdiv, hden, roundHalfEven_mul_right _ _ hc]

theorem ofRank_rank (m : Magnitude) : ofRank m.rank = m := by
  have hrank : min m.rank infinityRank = m.rank := Nat.min_eq_left m.rank_le
  simp only [ofRank, hrank]

-- A whole number of units that is a magnitude is the nearest magnitude to itself. Its leading bit
-- tells its run of ranks, in which it is a whole number of steps.
theorem nearest_units (m : Magnitude) : nearest m.units unitsPerOne = m := by
  have hcancel : m.units * unitsPerOne / unitsPerOne = m.units :=
    Nat.mul_div_cancel _ unitsPerOne_pos
  have hround (scale : Nat) : roundHalfEven (m.units * unitsPerOne) (unitsPerOne * 2 ^ scale) =
      roundHalfEven m.units (2 ^ scale) := by
    rw [Nat.mul_comm unitsPerOne]
    exact roundHalfEven_mul_right _ _ unitsPerOne_pos
  have hrank : m.rank = m.rank / 2 ^ 52 * 2 ^ 52 + m.rank % 2 ^ 52 := by omega
  have hmod : m.rank % 2 ^ 52 < 2 ^ 52 := Nat.mod_lt _ (by decide)
  suffices hunits : (Nat.log2 m.units - 52) * 2 ^ 52 +
      roundHalfEven m.units (2 ^ (Nat.log2 m.units - 52)) = m.rank by
    simp only [nearest_eq, hcancel, hround, hunits, ofRank_rank]
  by_cases hrun : m.rank / 2 ^ 52 = 0
  · have hunits : m.units = m.rank := by rw [units_eq, if_pos hrun]
    have hlog : Nat.log2 m.rank - 52 = 0 := by
      by_cases hzero : m.rank = 0
      · simp [hzero]
      · have hlt : Nat.log2 m.rank < 52 := (Nat.log2_lt hzero).mpr (by omega)
        omega
    have hone := roundHalfEven_mul_self m.rank Nat.one_pos
    rw [Nat.mul_one] at hone
    rw [hunits, hlog, Nat.pow_zero, hone]
    omega
  · obtain ⟨scale, hscale⟩ := Nat.exists_eq_succ_of_ne_zero hrun
    have hunits : m.units = (2 ^ 52 + m.rank % 2 ^ 52) * 2 ^ scale := by
      rw [units_eq, if_neg hrun, hscale, Nat.succ_sub_one]
    have hlog : Nat.log2 m.units = scale + 52 := by
      have hpos : 0 < 2 ^ scale := Nat.two_pow_pos scale
      have hne : m.units ≠ 0 := by
        rw [hunits]
        exact Nat.mul_ne_zero (by omega) (by omega)
      rw [Nat.log2_eq_iff hne, hunits, Nat.add_comm scale 52, Nat.add_right_comm, Nat.pow_add,
        Nat.pow_add 2 (52 + 1)]
      constructor
      · exact Nat.mul_le_mul_right _ (by omega)
      · exact Nat.mul_lt_mul_of_pos_right (by omega) hpos
    rw [hlog, Nat.add_sub_cancel, hunits, roundHalfEven_mul_self _ (Nat.two_pow_pos scale)]
    omega

-- The last run of ranks ends in front of infinity
theorem units_lt {m : Magnitude} (hfinite : m.isInfinite = false) : m.units < 2 ^ 2098 := by
  have hrank : m.rank < 2047 * 2 ^ 52 := by
    have hle : m.rank ≤ 2047 * 2 ^ 52 := m.rank_le
    have hne : m.rank ≠ 2047 * 2 ^ 52 := by simpa [isInfinite, infinityRank] using hfinite
    omega
  rw [units_eq]
  generalize hlast : 2098 = last
  split
  · calc
      m.rank < 2 ^ 63 := by omega
      _ ≤ 2 ^ last := Nat.pow_le_pow_right (by decide) (by omega)
  · calc
      (2 ^ 52 + m.rank % 2 ^ 52) * 2 ^ (m.rank / 2 ^ 52 - 1) <
          2 ^ 53 * 2 ^ (m.rank / 2 ^ 52 - 1) :=
        Nat.mul_lt_mul_of_pos_right (by omega) (Nat.two_pow_pos _)
      _ = 2 ^ (53 + (m.rank / 2 ^ 52 - 1)) := (Nat.pow_add 2 53 _).symm
      _ ≤ 2 ^ last := Nat.pow_le_pow_right (by decide) (by omega)

theorem units_pos {m : Magnitude} (hm : m.rank ≠ 0) : 0 < m.units := by
  rw [units_eq]
  split
  · omega
  · exact Nat.mul_pos (by omega) (Nat.two_pow_pos _)

end Magnitude

namespace Decimal

-- The place of a positive decimal that lies between two powers of ten
theorem place_le {d : Decimal} {n : Nat} (h : d.significand < 10 ^ n) (hn : 0 < n) :
    d.place ≤ n - 1 + d.exponent := by
  have hlength := (Nat.length_toDigits_le_iff (by decide) hn).mpr h
  unfold place
  omega

theorem le_place {d : Decimal} {n : Nat} (h : 10 ^ n ≤ d.significand) :
    n + d.exponent ≤ d.place := by
  have hlength : n < (Nat.toDigits 10 d.significand).length := by
    cases n with
    | zero => exact Nat.length_toDigits_pos
    | succ n =>
      have hnot := mt (Nat.length_toDigits_le_iff (by decide) n.succ_pos).mp (Nat.not_lt.mpr h)
      omega
  unfold place
  omega

-- Zeros at the end of the digits count as much as the exponent
theorem toDigits_mul_pow {n : Nat} (hn : 0 < n) (k : Nat) :
    Nat.toDigits 10 (n * 10 ^ k) = Nat.toDigits 10 n ++ List.replicate k '0' := by
  induction k with
  | zero => simp
  | succ k ih =>
    have hpos : 0 < n * 10 ^ k := Nat.mul_pos hn (Nat.pow_pos (by decide))
    have happend := @Nat.toDigits_append_toDigits 10 (n * 10 ^ k) 0 (by decide) hpos (by decide)
    have hmul : n * 10 ^ (k + 1) = 10 * (n * 10 ^ k) + 0 := by
      rw [Nat.pow_succ, Nat.add_zero, Nat.mul_comm 10, Nat.mul_assoc]
    rw [hmul, ← happend, Nat.toDigits_zero, ih, List.append_assoc, List.replicate_succ']

theorem length_toDigits_mul_pow {n : Nat} (hn : 0 < n) (k : Nat) :
    (Nat.toDigits 10 (n * 10 ^ k)).length = (Nat.toDigits 10 n).length + k := by
  rw [toDigits_mul_pow hn, List.length_append, List.length_replicate]

-- The quotient that a decimal is, for either sign of its exponent
def quotient (significand : Nat) (exponent : Int) : Magnitude :=
  if 0 ≤ exponent then .nearest (significand * 10 ^ exponent.toNat) 1
  else .nearest significand (10 ^ (-exponent).toNat)

theorem nearest_eq (d : Decimal) : d.nearest = if d.significand = 0 then .zero
    else if 310 < d.place then .infinity
    else if d.place < -330 then .zero
    else quotient d.significand d.exponent := rfl

theorem quotient_mul_pow (significand : Nat) (exponent : Int) (k : Nat) :
    quotient (significand * 10 ^ k) exponent = quotient significand (exponent + k) := by
  unfold quotient
  by_cases hexponent : 0 ≤ exponent
  · have hsum : (exponent + k).toNat = k + exponent.toNat := by omega
    rw [if_pos hexponent, if_pos (by omega), hsum, Nat.mul_assoc, Nat.pow_add]
  by_cases hsum : 0 ≤ exponent + k
  · have hk : k = (exponent + k).toNat + (-exponent).toNat := by omega
    have hmul := Magnitude.nearest_mul_right (significand * 10 ^ (exponent + k).toNat) 1
      (Nat.pow_pos (show 0 < 10 by decide) : 0 < 10 ^ (-exponent).toNat)
    rw [Nat.mul_assoc, ← Nat.pow_add, ← hk, Nat.one_mul] at hmul
    rw [if_neg hexponent, if_pos hsum, hmul]
  · have hk : (-exponent).toNat = (-(exponent + k)).toNat + k := by omega
    have hmul := Magnitude.nearest_mul_right significand (10 ^ (-(exponent + k)).toNat)
      (Nat.pow_pos (show 0 < 10 by decide) : 0 < 10 ^ k)
    rw [if_neg hexponent, if_neg hsum, hk, Nat.pow_add, hmul]

theorem nearest_mul_pow (significand : Nat) (exponent : Int) (k : Nat) :
    nearest ⟨significand * 10 ^ k, exponent⟩ = nearest ⟨significand, exponent + k⟩ := by
  by_cases hzero : significand = 0
  · rw [nearest_eq, nearest_eq, if_pos hzero, if_pos (by rw [hzero, Nat.zero_mul])]
  have hpos : 0 < 10 ^ k := Nat.pow_pos (by decide)
  have hne : significand * 10 ^ k ≠ 0 := Nat.mul_ne_zero hzero (by omega)
  have hplace : place ⟨significand * 10 ^ k, exponent⟩ = place ⟨significand, exponent + k⟩ := by
    simp only [place, length_toDigits_mul_pow (Nat.pos_of_ne_zero hzero)]
    omega
  rw [nearest_eq, nearest_eq, if_neg hzero, if_neg hne, hplace, quotient_mul_pow]

end Decimal

namespace Magnitude

-- The exact digits are within the places for which a decimal is rounded at all
theorem nearest_exact {m : Magnitude} (hfinite : m.isInfinite = false) (hm : m.rank ≠ 0) :
    m.exact.nearest = m := by
  have hpower (base exponent : Nat) : Nat.pow base exponent = base ^ exponent := rfl
  have hexponent : m.exact.exponent = -1074 := rfl
  have htoNat : (-m.exact.exponent).toNat = 1074 := rfl
  have hsignificand : m.exact.significand = m.units * 5 ^ 1074 := by
    simp only [exact, hpower]
  have hunits := units_pos hm
  have hfive : 0 < 5 ^ 1074 := by decide +kernel
  have hbelow : m.exact.significand < 10 ^ 1383 := by
    calc
      m.exact.significand = m.units * 5 ^ 1074 := hsignificand
      _ < 2 ^ 2098 * 5 ^ 1074 := Nat.mul_lt_mul_of_pos_right (units_lt hfinite) hfive
      _ ≤ 10 ^ 1383 := by decide +kernel
  have habove : 10 ^ 744 ≤ m.exact.significand := by
    calc
      10 ^ 744 ≤ 1 * 5 ^ 1074 := by decide +kernel
      _ ≤ m.units * 5 ^ 1074 := Nat.mul_le_mul_right _ hunits
      _ = m.exact.significand := hsignificand.symm
  have hle := Decimal.place_le hbelow (by decide)
  have hge := Decimal.le_place habove
  have hne : m.exact.significand ≠ 0 := by
    rw [hsignificand]
    exact Nat.mul_ne_zero (Nat.ne_of_gt hunits) (Nat.ne_of_gt hfive)
  have hten (n : Nat) : 10 ^ n = 2 ^ n * 5 ^ n := Nat.mul_pow 2 5 n
  rw [Decimal.nearest_eq, if_neg hne, if_neg (by omega), if_neg (by omega), Decimal.quotient,
    if_neg (by omega), htoNat, hten 1074, hsignificand, ← unitsPerOne_eq,
    nearest_mul_right _ _ hfive, nearest_units]

end Magnitude

end DeclarativeOptions
