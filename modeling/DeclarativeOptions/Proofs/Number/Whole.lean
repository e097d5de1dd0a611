import DeclarativeOptions.Proofs.Number.Rounding

namespace DeclarativeOptions

theorem le_roundHalfEven (num den : Nat) : num / den ≤ roundHalfEven num den := by
  dsimp only [roundHalfEven]
  split
  · exact Nat.le_refl _
  split
  · exact Nat.le_succ _
  · exact Nat.le_add_right _ _

theorem roundHalfEven_le (num den : Nat) : roundHalfEven num den ≤ num / den + 1 := by
  dsimp only [roundHalfEven]
  split
  · exact Nat.le_succ _
  split
  · exact Nat.le_refl _
  · omega

theorem roundHalfEven_of_lt {num den : Nat} (h : 2 * (num % den) < den) :
    roundHalfEven num den = num / den :=
  if_pos h

theorem roundHalfEven_of_gt {num den : Nat} (h : den < 2 * (num % den)) :
    roundHalfEven num den = num / den + 1 := by
  rw [roundHalfEven, if_neg (by omega), if_pos h]

theorem roundHalfEven_of_eq {num den : Nat} (h : 2 * (num % den) = den) :
    roundHalfEven num den = num / den + num / den % 2 := by
  rw [roundHalfEven, if_neg (by omega), if_neg (by omega)]

theorem log2_mul_pow {n : Nat} (hn : n ≠ 0) (k : Nat) : Nat.log2 (n * 2 ^ k) = Nat.log2 n + k := by
  induction k with
  | zero => simp
  | succ k ih =>
    have hne : n * 2 ^ k ≠ 0 := Nat.mul_ne_zero hn (Nat.ne_of_gt (Nat.two_pow_pos k))
    rw [Nat.pow_succ, ← Nat.mul_assoc, Nat.mul_comm _ 2, Nat.log2_two_mul hne, ih, Nat.add_assoc]

namespace Magnitude

-- The significand of a whole number, with 52 bits behind the leading one
def significand (n : Nat) : Nat := roundHalfEven (n * 2 ^ 52) (2 ^ Nat.log2 n)

theorem le_significand {n : Nat} (hn : n ≠ 0) : 2 ^ 52 ≤ significand n := by
  have hpos : 0 < 2 ^ Nat.log2 n := Nat.two_pow_pos _
  refine Nat.le_trans ?_ (le_roundHalfEven _ _)
  rw [Nat.le_div_iff_mul_le hpos, Nat.mul_comm]
  exact Nat.mul_le_mul_right _ (Nat.log2_self_le hn)

theorem significand_le (n : Nat) : significand n ≤ 2 ^ 53 := by
  have hpos : 0 < 2 ^ Nat.log2 n := Nat.two_pow_pos _
  have hlt : n * 2 ^ 52 / 2 ^ Nat.log2 n < 2 ^ 53 := by
    rw [Nat.div_lt_iff_lt_mul hpos]
    calc
      n * 2 ^ 52 < 2 ^ (Nat.log2 n + 1) * 2 ^ 52 :=
        Nat.mul_lt_mul_of_pos_right Nat.lt_log2_self (by decide)
      _ = 2 ^ 53 * 2 ^ Nat.log2 n := by rw [← Nat.pow_add, ← Nat.pow_add]; congr 1; omega
  exact Nat.le_trans (roundHalfEven_le _ _) hlt

-- The rank of a positive whole number if there were no end to the ranks
def wholeRank (n : Nat) : Nat := (Nat.log2 n + 1022) * 2 ^ 52 + significand n

theorem two_pow_add (place : Nat) : 2 ^ (place + 1074) = 2 ^ place * unitsPerOne := by
  rw [unitsPerOne_eq]
  generalize 1074 = places
  exact Nat.pow_add 2 place places

theorem ofNat_eq_ofRank {n : Nat} (hn : n ≠ 0) : ofNat n = ofRank (wholeRank n) := by
  have hlog : Nat.log2 (n * unitsPerOne / 1) - 52 = Nat.log2 n + 1022 := by
    rw [Nat.div_one, unitsPerOne_eq, log2_mul_pow hn]
    omega
  have hround (more : Nat) (hmore : 52 + more = 1074) :
      roundHalfEven (n * unitsPerOne) (1 * 2 ^ (Nat.log2 n + more)) = significand n := by
    rw [unitsPerOne_eq, ← hmore, Nat.one_mul, Nat.pow_add, Nat.pow_add, ← Nat.mul_assoc,
      roundHalfEven_mul_right _ _ (Nat.two_pow_pos _), significand]
  simp only [ofNat, nearest_eq, hlog, hround 1022 rfl, wholeRank]

theorem isInfinite_eq_false {m : Magnitude} (h : m.rank < 2047 * 2 ^ 52) :
    m.isInfinite = false := by
  have hne : m.rank ≠ 2047 * 2 ^ 52 := by omega
  simpa [isInfinite, infinityRank] using hne

theorem eq_infinity {m : Magnitude} (h : m.isInfinite = true) : m = infinity := by
  obtain ⟨rank, hrank⟩ := m
  obtain rfl : rank = infinityRank := by simpa [isInfinite] using h
  rfl

theorem rank_ofRank {rank : Nat} (h : rank ≤ 2047 * 2 ^ 52) : (ofRank rank).rank = rank :=
  Nat.min_eq_left h

theorem ofRank_eq_infinity {rank : Nat} (h : 2047 * 2 ^ 52 ≤ rank) : ofRank rank = infinity := by
  have hmin : min rank infinityRank = infinityRank := Nat.min_eq_right h
  simp only [ofRank, hmin]
  rfl

theorem units_eq_zero {m : Magnitude} (h : m.rank = 0) : m.units = 0 := by
  rw [units_eq, h, Nat.zero_div, if_pos rfl]

theorem mul_two_pow_succ (place : Nat) : 2 ^ 52 * 2 ^ (place + 1) = 2 ^ 53 * 2 ^ place := by
  rw [← Nat.pow_add, ← Nat.pow_add]
  congr 1
  omega

-- What is counted in the rank: the place, and the significand with its leading bit
theorem units_of_rank {m : Magnitude} {run bits : Nat} (hrank : m.rank = run * 2 ^ 52 + bits)
    (hlow : 2 ^ 52 ≤ bits) (hhigh : bits ≤ 2 ^ 53) : m.units = bits * 2 ^ run := by
  rw [units_eq, if_neg (by omega)]
  by_cases htop : bits = 2 ^ 53
  · have hrun : m.rank / 2 ^ 52 - 1 = run + 1 := by omega
    have hmod : m.rank % 2 ^ 52 = 0 := by omega
    rw [hrun, hmod, htop, Nat.add_zero, mul_two_pow_succ]
  · have hrun : m.rank / 2 ^ 52 - 1 = run := by omega
    have hmod : 2 ^ 52 + m.rank % 2 ^ 52 = bits := by omega
    rw [hrun, hmod]

-- What has 53 bits, at any place from the least one to the greatest, is a magnitude. By induction on
-- the place: with fewer bits it can be moved to the place below.
theorem exists_units {bits place : Nat} (hbits : bits < 2 ^ 53) (hplace : place ≤ 2045) :
    ∃ m : Magnitude, m.isInfinite = false ∧ m.units = bits * 2 ^ place := by
  induction place generalizing bits with
  | zero =>
    have hlt : bits < 2047 * 2 ^ 52 := by omega
    refine ⟨⟨bits, Nat.le_of_lt hlt⟩, isInfinite_eq_false hlt, ?_⟩
    rw [units_eq]
    dsimp only
    split
    · rw [Nat.pow_zero, Nat.mul_one]
    · have hrun : bits / 2 ^ 52 = 1 := by omega
      rw [hrun, Nat.sub_self]
      omega
  | succ place ih =>
    by_cases hshort : bits < 2 ^ 52
    · obtain ⟨m, hfinite, hunits⟩ := @ih (bits * 2) (by omega) (by omega)
      refine ⟨m, hfinite, ?_⟩
      rw [hunits, Nat.pow_succ, Nat.mul_assoc, Nat.mul_comm 2]
    · obtain ⟨rank, hrank⟩ : ∃ rank, rank = (place + 1) * 2 ^ 52 + bits := ⟨_, rfl⟩
      have hlt : rank < 2047 * 2 ^ 52 := by omega
      refine ⟨⟨rank, Nat.le_of_lt hlt⟩, isInfinite_eq_false hlt, ?_⟩
      exact units_of_rank hrank (Nat.le_of_not_lt hshort) (Nat.le_of_lt hbits)

theorem ofNat_eq_infinity {n : Nat} (hn : 1024 ≤ Nat.log2 n) : ofNat n = infinity := by
  have hne : n ≠ 0 := by
    rintro rfl
    rw [Nat.log2_zero] at hn
    omega
  have hsignificand := le_significand hne
  rw [ofNat_eq_ofRank hne]
  apply ofRank_eq_infinity
  unfold wholeRank
  omega

theorem ofNat_of_units {n : Nat} {m : Magnitude} (h : m.units = n * unitsPerOne) : ofNat n = m := by
  have hscaled := nearest_mul_right n 1 unitsPerOne_pos
  rw [Nat.one_mul, ← h, nearest_units] at hscaled
  exact hscaled.symm

theorem units_ofNat {n : Nat} (hn : n < 2 ^ 53) :
    (ofNat n).isInfinite = false ∧ (ofNat n).units = n * unitsPerOne := by
  obtain ⟨m, hfinite, hunits⟩ := @exists_units n 1074 hn (by decide)
  have hm : m.units = n * unitsPerOne := by rw [hunits, unitsPerOne_eq]
  rw [ofNat_of_units hm]
  exact ⟨hfinite, hm⟩

theorem le_units {m : Magnitude} {run : Nat} (h : (run + 1) * 2 ^ 52 ≤ m.rank) :
    2 ^ 52 * 2 ^ run ≤ m.units := by
  have hrun : run + 1 ≤ m.rank / 2 ^ 52 := (Nat.le_div_iff_mul_le (by decide)).mpr h
  rw [units_eq, if_neg (by omega)]
  exact Nat.mul_le_mul (Nat.le_add_right _ _) (Nat.pow_le_pow_right (by decide) (by omega))

-- A whole number of 53 bits is told from every other one
theorem ofNat_eq_iff {n k : Nat} (hn : n < 2 ^ 53) : ofNat k = ofNat n ↔ k = n := by
  refine ⟨fun h => ?_, fun h => h ▸ rfl⟩
  obtain ⟨hfinite, hunits⟩ := units_ofNat hn
  by_cases hk : k < 2 ^ 53
  · have hsame := (units_ofNat hk).2
    rw [h, hunits] at hsame
    exact (Nat.eq_of_mul_eq_mul_right unitsPerOne_pos hsame).symm
  · have hne : k ≠ 0 := by omega
    have hlog : 53 ≤ Nat.log2 k := (Nat.le_log2 hne).mpr (by omega)
    have hsignificand := le_significand hne
    have hrank : (1 + 1074 + 1) * 2 ^ 52 ≤ (ofNat k).rank := by
      rw [ofNat_eq_ofRank hne]
      refine Nat.le_min.mpr ⟨?_, by decide⟩
      unfold wholeRank
      omega
    have hle := le_units hrank
    rw [h, hunits, two_pow_add, ← Nat.mul_assoc] at hle
    have hfits := Nat.le_of_mul_le_mul_right hle unitsPerOne_pos
    omega

theorem ofNat_zero : ofNat 0 = .zero := ofNat_of_units (Nat.zero_mul _).symm

end Magnitude

namespace Decimal

theorem nearest_ofNat (n : Nat) : nearest ⟨n, 0⟩ = .ofNat n := by
  by_cases hzero : n = 0
  · rw [nearest_eq, if_pos hzero, hzero, Magnitude.ofNat_zero]
  have hplace : ((0 : Nat) : Int) + 0 ≤ place ⟨n, 0⟩ := le_place (Nat.pos_of_ne_zero hzero)
  have hpositive : ¬place ⟨n, 0⟩ < -330 := by omega
  rw [nearest_eq, if_neg hzero, if_neg hpositive]
  by_cases hlarge : 310 < place ⟨n, 0⟩
  · have hpower : 10 ^ 311 ≤ n := by
      refine Nat.le_of_not_lt fun hless => ?_
      have hle : place ⟨n, 0⟩ ≤ ((311 : Nat) : Int) - 1 + 0 := place_le hless (by decide)
      omega
    have hlog : 1024 ≤ Nat.log2 n := by
      rw [Nat.le_log2 hzero]
      exact Nat.le_trans (by decide +kernel) hpower
    rw [if_pos hlarge, Magnitude.ofNat_eq_infinity hlog]
  · rw [if_neg hlarge, quotient, if_pos (Int.le_refl 0), Int.toNat_zero, Nat.pow_zero, Nat.mul_one,
      Magnitude.ofNat]

-- A decimal without a fraction is rounded as the whole number that it is
theorem nearest_whole (significand exponent : Nat) :
    nearest ⟨significand, exponent⟩ = .ofNat (significand * 10 ^ exponent) := by
  have hscaled := nearest_mul_pow significand 0 exponent
  rw [Int.zero_add] at hscaled
  rw [← hscaled, nearest_ofNat]

end Decimal

end DeclarativeOptions
