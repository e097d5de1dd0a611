import DeclarativeOptions.Proofs.Number.Whole
import Mathlib.Data.Nat.Dist

namespace DeclarativeOptions

section Multiples

variable {num den : Nat}

-- A multiple is a given one, the next one, or at least one multiple further off on either side
private theorem mul_trichotomy (den quotient k : Nat) :
    k * den + den ≤ quotient * den ∨
      k * den = quotient * den ∧ k = quotient ∨
      k * den = quotient * den + den ∧ k = quotient + 1 ∨
      quotient * den + 2 * den ≤ k * den := by
  obtain hless | rfl | hmore := Nat.lt_trichotomy k quotient
  · have hmul := Nat.mul_le_mul_right den (show k + 1 ≤ quotient from hless)
    rw [Nat.add_mul, Nat.one_mul] at hmul
    exact .inl hmul
  · exact .inr (.inl ⟨rfl, rfl⟩)
  · by_cases hnext : k = quotient + 1
    · have hmul : k * den = quotient * den + den := by rw [hnext, Nat.add_mul, Nat.one_mul]
      exact .inr (.inr (.inl ⟨hmul, hnext⟩))
    · have hmul := Nat.mul_le_mul_right den (show quotient + 2 ≤ k by omega)
      rw [Nat.add_mul] at hmul
      exact .inr (.inr (.inr hmul))

-- Every multiple is at least as far away as the one that is rounded to, and only if that one is even
-- there is another one as near
private theorem roundHalfEven_nearest (hden : 0 < den) (num k : Nat) :
    Nat.dist num (roundHalfEven num den * den) ≤ Nat.dist num (k * den) ∧
    (k ≠ roundHalfEven num den →
      Nat.dist num (roundHalfEven num den * den) = Nat.dist num (k * den) →
      roundHalfEven num den % 2 = 0) := by
  have hsplit : num / den * den + num % den = num := Nat.div_add_mod' num den
  have hmod : num % den < den := Nat.mod_lt _ hden
  have hnext : (num / den + 1) * den = num / den * den + den := by rw [Nat.add_mul, Nat.one_mul]
  have hmultiple := mul_trichotomy den (num / den) k
  unfold Nat.dist
  obtain hless | hequal | hmore := Nat.lt_trichotomy (2 * (num % den)) den
  · rw [roundHalfEven_of_lt hless]
    omega
  · rw [roundHalfEven_of_eq hequal]
    obtain heven | hodd := Nat.mod_two_eq_zero_or_one (num / den)
    · rw [heven, Nat.add_zero]
      omega
    · rw [hodd, hnext]
      omega
  · rw [roundHalfEven_of_gt hmore, hnext]
    omega

-- An even number is rounded to from halfway between the number before it and itself on
private theorem succ_le_roundHalfEven_iff {before : Nat} (hodd : before % 2 = 1) (hden : 0 < den) :
    before + 1 ≤ roundHalfEven num den ↔ (2 * before + 1) * den ≤ 2 * num := by
  have hsplit : num / den * den + num % den = num := Nat.div_add_mod' num den
  have hmod : num % den < den := Nat.mod_lt _ hden
  have hmul : (2 * before + 1) * den = 2 * (before * den) + den := by
    rw [Nat.add_mul, Nat.mul_assoc, Nat.one_mul]
  rw [hmul]
  obtain hless | rfl | hmore := Nat.lt_trichotomy before (num / den)
  · have hle := le_roundHalfEven num den
    have hnext := Nat.mul_le_mul_right den (show before + 1 ≤ num / den from hless)
    rw [Nat.add_mul] at hnext
    omega
  · obtain hbelow | hequal | habove := Nat.lt_trichotomy (2 * (num % den)) den
    · rw [roundHalfEven_of_lt hbelow]
      omega
    · rw [roundHalfEven_of_eq hequal, hodd]
      omega
    · rw [roundHalfEven_of_gt habove]
      omega
  · have hle := roundHalfEven_le num den
    have hnext := Nat.mul_le_mul_right den (show num / den + 1 ≤ before from hmore)
    rw [Nat.add_mul] at hnext
    omega

end Multiples

namespace Magnitude

variable {m : Magnitude} {n : Nat}

private theorem units_lt_of_rank {run : Nat} (h : m.rank < (run + 1) * 2 ^ 52) :
    m.units < 2 ^ 52 * 2 ^ run := by
  rw [units_eq]
  split
  · have hle : 2 ^ 52 * 1 ≤ 2 ^ 52 * 2 ^ run := Nat.mul_le_mul_left _ (Nat.two_pow_pos run)
    omega
  · calc
      (2 ^ 52 + m.rank % 2 ^ 52) * 2 ^ (m.rank / 2 ^ 52 - 1) <
          2 ^ 53 * 2 ^ (m.rank / 2 ^ 52 - 1) :=
        Nat.mul_lt_mul_of_pos_right (by omega) (Nat.two_pow_pos _)
      _ = 2 ^ 52 * 2 ^ (m.rank / 2 ^ 52 - 1 + 1) := (mul_two_pow_succ _).symm
      _ ≤ 2 ^ 52 * 2 ^ run := Nat.mul_le_mul_left _ (Nat.pow_le_pow_right (by decide) (by omega))

-- A magnitude is a multiple of a power of two, or else it is below all that have this place
private theorem units_lt_or_dvd (m : Magnitude) (place : Nat) :
    m.units < 2 ^ 52 * 2 ^ place ∨ ∃ k, m.units = k * 2 ^ place := by
  by_cases hrank : m.rank < (place + 1) * 2 ^ 52
  · exact .inl (units_lt_of_rank hrank)
  · have hrun : m.rank / 2 ^ 52 - 1 = m.rank / 2 ^ 52 - 1 - place + place := by omega
    refine .inr ⟨(2 ^ 52 + m.rank % 2 ^ 52) * 2 ^ (m.rank / 2 ^ 52 - 1 - place), ?_⟩
    rw [units_eq, if_neg (by omega), Nat.mul_assoc, ← Nat.pow_add, ← hrun]

theorem units_lt_units {other : Magnitude} (h : m.rank < other.rank) : m.units < other.units := by
  by_cases hfirst : other.rank / 2 ^ 52 = 0
  · rw [units_eq, units_eq, if_pos hfirst, if_pos (by omega)]
    exact h
  · obtain ⟨run, hrun⟩ := Nat.exists_eq_succ_of_ne_zero hfirst
    by_cases hbelow : m.rank < (run + 1) * 2 ^ 52
    · exact Nat.lt_of_lt_of_le (units_lt_of_rank hbelow) (le_units (by omega))
    · have hunits := @units_of_rank m run (m.rank - run * 2 ^ 52) (by omega) (by omega) (by omega)
      have hunits' := @units_of_rank other run (other.rank - run * 2 ^ 52) (by omega) (by omega)
        (by omega)
      rw [hunits, hunits']
      exact Nat.mul_lt_mul_of_pos_right (by omega) (Nat.two_pow_pos run)

theorem eq_of_units_eq {other : Magnitude} (h : m.units = other.units) : m = other := by
  rw [← nearest_units m, h, nearest_units]

-- The magnitude nearest to a whole number
structure IsNearest (n : Nat) (m : Magnitude) : Prop where
  infinite : m.isInfinite = true ↔ (2 ^ 54 - 1) * 2 ^ 970 ≤ n
  nearest : m.isInfinite = false → ∀ other : Magnitude, other.isInfinite = false →
    Nat.dist (n * unitsPerOne) m.units ≤ Nat.dist (n * unitsPerOne) other.units
  even : m.isInfinite = false → ∀ other : Magnitude, other.isInfinite = false → other ≠ m →
    Nat.dist (n * unitsPerOne) m.units = Nat.dist (n * unitsPerOne) other.units → m.rank % 2 = 0

-- Two magnitudes that are equally near have nothing between them, which would be nearer, so that one
-- of them is of odd rank
theorem IsNearest.rank_le {other : Magnitude} (h : IsNearest n m) (hother : IsNearest n other)
    (hfinite : m.isInfinite = false) (hfinite' : other.isInfinite = false) :
    other.rank ≤ m.rank := by
  refine Nat.le_of_not_lt fun hless => ?_
  have hne : other ≠ m := by
    rintro rfl
    exact Nat.lt_irrefl _ hless
  have hsame := Nat.le_antisymm (h.nearest hfinite other hfinite')
    (hother.nearest hfinite' m hfinite)
  have heven := h.even hfinite other hfinite' hne hsame
  have heven' := hother.even hfinite' m hfinite hne.symm hsame.symm
  let between : Magnitude := ⟨m.rank + 1, Nat.le_trans hless other.rank_le⟩
  have hbelow : m.units < between.units := units_lt_units (Nat.lt_succ_self _)
  have habove : between.units < other.units := units_lt_units (show m.rank + 1 < other.rank by omega)
  have hfiniteBetween : between.isInfinite = false := by
    have hle : other.rank ≤ 2047 * 2 ^ 52 := other.rank_le
    exact isInfinite_eq_false (show m.rank + 1 < 2047 * 2 ^ 52 by omega)
  have hnearest := h.nearest hfinite between hfiniteBetween
  unfold Nat.dist at hsame hnearest
  omega

theorem IsNearest.unique {other : Magnitude} (h : IsNearest n m) (hother : IsNearest n other) :
    m = other := by
  cases hinfinite : m.isInfinite with
  | true =>
    have hinfinite' := hother.infinite.mpr (h.infinite.mp hinfinite)
    rw [eq_infinity hinfinite, eq_infinity hinfinite']
  | false =>
    have hfinite' : other.isInfinite = false := by
      refine Bool.eq_false_iff.mpr fun hinfinite' => ?_
      rw [h.infinite.mpr (hother.infinite.mp hinfinite')] at hinfinite
      simp at hinfinite
    have hrank := Nat.le_antisymm (hother.rank_le h hfinite' hinfinite)
      (h.rank_le hother hinfinite hfinite')
    rw [← ofRank_rank m, hrank, ofRank_rank]

theorem rank_ofNat (hn : n ≠ 0) (hfinite : (ofNat n).isInfinite = false) :
    (ofNat n).rank = wholeRank n := by
  rw [ofNat_eq_ofRank hn] at hfinite ⊢
  by_cases hrank : wholeRank n ≤ 2047 * 2 ^ 52
  · exact rank_ofRank hrank
  · rw [ofRank_eq_infinity (by omega)] at hfinite
    exact absurd hfinite (by decide)

theorem isInfinite_ofNat (hn : n ≠ 0) :
    (ofNat n).isInfinite = true ↔ 2047 * 2 ^ 52 ≤ wholeRank n := by
  rw [ofNat_eq_ofRank hn]
  constructor
  · intro hinfinite
    refine Nat.le_of_not_lt fun hless => ?_
    have hrank := rank_ofRank (Nat.le_of_lt hless)
    rw [← hrank] at hless
    rw [isInfinite_eq_false hless] at hinfinite
    exact Bool.false_ne_true hinfinite
  · intro hrank
    rw [ofRank_eq_infinity hrank]
    rfl

-- The significand is rounded from the same number and the same multiples, all of them with fewer
-- factors of two
private theorem dist_units {more : Nat} (hmore : 52 + more = 1074) (n k log : Nat) :
    Nat.dist (n * unitsPerOne) (k * 2 ^ (log + more)) =
      Nat.dist (n * 2 ^ 52) (k * 2 ^ log) * 2 ^ more := by
  rw [unitsPerOne_eq, ← hmore, Nat.pow_add, Nat.pow_add, ← Nat.mul_assoc, ← Nat.mul_assoc,
    Nat.dist_mul_right]

private theorem units_ofNat_of_finite {more : Nat} (hmore : 52 + more = 1074) (hn : n ≠ 0)
    (hfinite : (ofNat n).isInfinite = false) :
    (ofNat n).units = significand n * 2 ^ (Nat.log2 n + more) := by
  have hrank := rank_ofNat hn hfinite
  obtain rfl : more = 1022 := by omega
  exact units_of_rank hrank (le_significand hn) (significand_le n)

-- The last finite magnitude has 53 bits and 971 places behind them
theorem le_wholeRank_iff (hn : n ≠ 0) :
    2047 * 2 ^ 52 ≤ wholeRank n ↔ (2 ^ 54 - 1) * 2 ^ 970 ≤ n := by
  obtain ⟨low, hlow⟩ : ∃ low, low = 970 := ⟨_, rfl⟩
  have hpos : 0 < 2 ^ low := Nat.two_pow_pos low
  have hge := Nat.log2_self_le hn
  have hlt : n < 2 ^ (Nat.log2 n + 1) := Nat.lt_log2_self
  have hsignificand := le_significand hn
  have hsignificand' := significand_le n
  rw [wholeRank, ← hlow]
  obtain hless | hequal | hmore := Nat.lt_trichotomy (Nat.log2 n) (53 + low)
  · have hle : 2 ^ (Nat.log2 n + 1) ≤ 2 ^ (53 + low) := Nat.pow_le_pow_right (by decide) hless
    have hsplit : 2 ^ (53 + low) = 2 ^ 53 * 2 ^ low := Nat.pow_add ..
    omega
  · have hround : 2 ^ 53 - 1 + 1 ≤ significand n ↔
        (2 * (2 ^ 53 - 1) + 1) * 2 ^ Nat.log2 n ≤ 2 * (n * 2 ^ 52) :=
      succ_le_roundHalfEven_iff (by decide) (Nat.two_pow_pos _)
    rw [hequal, Nat.pow_add] at hround
    omega
  · have hle : 2 ^ (54 + low) ≤ 2 ^ Nat.log2 n := Nat.pow_le_pow_right (by decide) (by omega)
    have hsplit : 2 ^ (54 + low) = 2 ^ 54 * 2 ^ low := Nat.pow_add ..
    omega

theorem ofNat_nearest {more : Nat} (hmore : 52 + more = 1074) (hn : n ≠ 0)
    (hfinite : (ofNat n).isInfinite = false) (other : Magnitude) :
    Nat.dist (n * unitsPerOne) (ofNat n).units ≤ Nat.dist (n * unitsPerOne) other.units ∧
    (other ≠ ofNat n →
      Nat.dist (n * unitsPerOne) (ofNat n).units = Nat.dist (n * unitsPerOne) other.units →
      significand n % 2 = 0) := by
  have hunits := units_ofNat_of_finite hmore hn hfinite
  have hpos : 0 < 2 ^ more := Nat.two_pow_pos more
  have hround (k : Nat) :
      Nat.dist (n * 2 ^ 52) (significand n * 2 ^ Nat.log2 n) ≤
        Nat.dist (n * 2 ^ 52) (k * 2 ^ Nat.log2 n) ∧
      (k ≠ significand n → Nat.dist (n * 2 ^ 52) (significand n * 2 ^ Nat.log2 n) =
        Nat.dist (n * 2 ^ 52) (k * 2 ^ Nat.log2 n) → significand n % 2 = 0) :=
    roundHalfEven_nearest (Nat.two_pow_pos _) _ k
  rw [hunits, dist_units hmore]
  obtain hbelow | ⟨k, hk⟩ := other.units_lt_or_dvd (Nat.log2 n + more)
  · -- the least number of this place is nearer, because it is not above the whole number
    have hleast := Nat.mul_le_mul_right (2 ^ more) (hround (2 ^ 52)).1
    have hfits : 2 ^ 52 * 2 ^ (Nat.log2 n + more) ≤ n * unitsPerOne := by
      rw [unitsPerOne_eq, ← hmore, Nat.pow_add, Nat.pow_add, Nat.mul_left_comm]
      exact Nat.mul_le_mul_right _ (Nat.log2_self_le hn)
    rw [← dist_units hmore (k := 2 ^ 52)] at hleast
    generalize Nat.dist (n * 2 ^ 52) (significand n * 2 ^ Nat.log2 n) * 2 ^ more = distance
      at hleast ⊢
    have hless : distance < Nat.dist (n * unitsPerOne) other.units := by
      unfold Nat.dist at hleast ⊢
      omega
    exact ⟨Nat.le_of_lt hless, fun _ hsame => absurd hsame (Nat.ne_of_lt hless)⟩
  · obtain ⟨hle, heven⟩ := hround k
    rw [hk, dist_units hmore]
    refine ⟨Nat.mul_le_mul_right _ hle, fun hne hsame => ?_⟩
    refine heven ?_ (Nat.eq_of_mul_eq_mul_right hpos hsame)
    rintro rfl
    exact hne (eq_of_units_eq (hk.trans hunits.symm))

theorem IsNearest.ofNat (n : Nat) : IsNearest n (ofNat n) := by
  by_cases hn : n = 0
  · have hpos (low : Nat) : 0 < (2 ^ 54 - 1) * 2 ^ low :=
      Nat.mul_pos (by decide) (Nat.two_pow_pos low)
    have hzero : Nat.dist (0 * unitsPerOne) zero.units = 0 := by
      rw [Nat.zero_mul]
      rfl
    rw [hn, ofNat_zero]
    refine ⟨⟨nofun, fun h => absurd (hpos 970) (Nat.not_lt.mpr h)⟩, fun _ other _ => ?_,
      fun _ _ _ _ _ => rfl⟩
    rw [hzero]
    exact Nat.zero_le _
  · have hmore : 52 + 1022 = 1074 := rfl
    refine ⟨(isInfinite_ofNat hn).trans (le_wholeRank_iff hn), fun hfinite other _ => ?_,
      fun hfinite other _ hne hsame => ?_⟩
    · exact (ofNat_nearest hmore hn hfinite other).1
    · have heven := (ofNat_nearest hmore hn hfinite other).2 hne hsame
      rw [rank_ofNat hn hfinite, wholeRank]
      omega

end Magnitude

end DeclarativeOptions
