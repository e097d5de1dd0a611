import DeclarativeOptions.Proofs.Number.RoundTrip
import DeclarativeOptions.Proofs.Number.Whole

namespace DeclarativeOptions

namespace Decimal

-- The places behind the leading digits are zeros up to the point
theorem positional_whole {significand exponent : Nat} (hsignificand : 0 < significand) :
    positional false ⟨significand, exponent⟩ = Nat.toDigits 10 (significand * 10 ^ exponent) := by
  obtain ⟨zeros, hdigits⟩ := exists_leadingDigits ⟨significand, exponent⟩
  have hlength := congrArg List.length hdigits
  simp only [List.length_append, List.length_replicate] at hlength
  have hplace : place ⟨significand, exponent⟩ =
      (Nat.toDigits 10 significand).length - 1 + exponent := rfl
  have hpos : 0 < (Nat.toDigits 10 significand).length := Nat.length_toDigits_pos
  have hbehind : (place ⟨significand, exponent⟩).toNat + 1 -
      (leadingDigits ⟨significand, exponent⟩).length = zeros + exponent := by omega
  have hfits : (leadingDigits ⟨significand, exponent⟩).length ≤
      (place ⟨significand, exponent⟩).toNat + 1 := by omega
  unfold positional
  dsimp only
  rw [if_neg (by omega), if_pos hfits, hbehind, if_neg Bool.false_ne_true, List.append_nil,
    toDigits_mul_pow hsignificand, hdigits, List.append_assoc, List.replicate_append_replicate]

end Decimal

namespace Magnitude

variable {tie : Tie} {m : Magnitude} {d : Decimal} {n : Nat}

private theorem exponent_of_onGrid {exponent : Int} (h : m.onGrid? tie exponent = some d) :
    d.exponent = exponent := by
  unfold onGrid? at h
  dsimp only at h
  split_ifs at h <;> exact Option.some.inj h ▸ rfl

-- The search ends at the first grid on which it finds something
private theorem exists_shortest {more : Nat} (hmore : more < 17)
    (h : (m.onGrid? tie (m.place - more)).isSome = true) :
    ∃ found ≤ more, m.onGrid? tie (m.place - found) = some (m.shortest tie) := by
  obtain ⟨search, hsearch⟩ : ∃ search : Nat → Option Decimal,
      search = fun (more : Nat) => m.onGrid? tie (m.place - more) := ⟨_, rfl⟩
  have hsome : ((List.range (more + 1)).findSome? search).isSome = true :=
    List.findSome?_isSome_iff.mpr ⟨more, List.mem_range.mpr (Nat.lt_succ_self _), hsearch ▸ h⟩
  obtain ⟨d, hd⟩ := Option.isSome_iff_exists.mp hsome
  have hcount : 17 = more + 1 + (16 - more) := by omega
  have hshortest : m.shortest tie = d := by
    unfold shortest
    rw [← hsearch, hcount, List.range_add, List.findSome?_append, hd, Option.some_or,
      Option.getD_some]
  obtain ⟨found, hfound, hgrid⟩ := List.exists_of_findSome?_eq_some hd
  rw [hsearch, ← hshortest] at hgrid
  exact ⟨found, Nat.le_of_lt_succ (List.mem_range.mp hfound), hgrid⟩

-- On the grid of the whole numbers a whole number is found
private theorem isSome_onGrid (hn : n < 2 ^ 53) : ((ofNat n).onGrid? tie 0).isSome = true := by
  obtain ⟨-, hunits⟩ := units_ofNat hn
  have hpower : Nat.pow 10 (0 : Int).toNat = 1 := rfl
  have hover : (ofNat n).overPower 0 = (n * unitsPerOne, unitsPerOne) := by
    rw [overPower, if_pos (Int.le_refl 0), hunits, hpower, Nat.mul_one]
  have hquotient : n * unitsPerOne / unitsPerOne = n := Nat.mul_div_cancel _ unitsPerOne_pos
  simp only [onGrid?, hover, hquotient, Decimal.nearest_ofNat, if_true]
  split <;> rfl

private theorem place_ofNat (hn : n < 2 ^ 53) (hpos : 0 < n) :
    (ofNat n).place = (Nat.toDigits 10 n).length - 1 := by
  obtain ⟨-, hunits⟩ := units_ofNat hn
  have hquotient : n * unitsPerOne / unitsPerOne = n := Nat.mul_div_cancel _ unitsPerOne_pos
  have hle : unitsPerOne ≤ n * unitsPerOne := Nat.le_mul_of_pos_left _ hpos
  rw [place, hunits, if_pos hle, hquotient]

theorem length_toDigits_le (hn : n < 2 ^ 53) : (Nat.toDigits 10 n).length ≤ 16 := by
  rw [Nat.length_toDigits_le_iff (by decide) (by decide)]
  omega

-- A whole number is found on the grid of the whole numbers or before, and is whole in either case
private theorem exists_shortest_ofNat (hn : n < 2 ^ 53) (hpos : 0 < n) :
    ∃ significand exponent : Nat,
      (ofNat n).shortest tie = ⟨significand, exponent⟩ ∧ significand * 10 ^ exponent = n := by
  have hlength := length_toDigits_le hn
  have hdigits : 0 < (Nat.toDigits 10 n).length := Nat.length_toDigits_pos
  obtain ⟨place, hplace, hrange⟩ : ∃ place : Nat, (ofNat n).place = place ∧ place < 17 :=
    ⟨(Nat.toDigits 10 n).length - 1, by rw [place_ofNat hn hpos]; omega, by omega⟩
  have hwhole : ((ofNat n).onGrid? tie ((ofNat n).place - place)).isSome = true := by
    rw [hplace, Int.sub_self, isSome_onGrid hn]
  obtain ⟨found, hfound, hgrid⟩ := exists_shortest hrange hwhole
  have hexponent := exponent_of_onGrid hgrid
  have hnearest := nearest_of_onGrid hgrid
  obtain ⟨⟨significand, exponent⟩, hd⟩ : ∃ d, (ofNat n).shortest tie = d := ⟨_, rfl⟩
  rw [hd] at hexponent hnearest
  obtain rfl : exponent = (place - found : Nat) := by
    dsimp only at hexponent
    omega
  rw [Decimal.nearest_whole] at hnearest
  exact ⟨significand, place - found, hd, (ofNat_eq_iff hn).mp hnearest⟩

end Magnitude

theorem NumberStyle.magnitude_whole {style : NumberStyle} {m : Magnitude}
    {significand exponent : Nat} (hlowest : style.lowestPlace ≤ 0)
    (hhighest : 15 ≤ style.highestPlace) (hpointed : style.pointed = false)
    (hshortest : m.shortest style.tie = ⟨significand, exponent⟩)
    (hpos : 0 < significand)
    (hlength : (Nat.toDigits 10 (significand * 10 ^ exponent)).length ≤ 16) :
    style.magnitude m = Nat.toDigits 10 (significand * 10 ^ exponent) := by
  rw [Decimal.length_toDigits_mul_pow hpos] at hlength
  have hplace : Decimal.place ⟨significand, exponent⟩ =
      (Nat.toDigits 10 significand).length - 1 + exponent := rfl
  have hdigits : 0 < (Nat.toDigits 10 significand).length := Nat.length_toDigits_pos
  have hlow : style.lowestPlace ≤ Decimal.place ⟨significand, exponent⟩ := by omega
  have hhigh : Decimal.place ⟨significand, exponent⟩ ≤ style.highestPlace := by omega
  simp only [magnitude, hshortest, hlow, hhigh, hpointed, Decimal.positional_whole hpos,
    decide_true, Bool.and_self, if_true]

namespace Number

variable {x y : Number} {n : Nat}

-- The names of infinity and NaN are words that are read as well
theorem read_key (x : Number) : read? x.key.toList = some x.withoutZeroSign := by
  rw [key, String.toList_ofList]
  by_cases hfinite : x.isFinite = true
  · exact read_keyChars hfinite
  · cases x with
    | nan => rfl
    | signed negative m =>
      obtain rfl := Magnitude.eq_infinity (by simpa [isFinite] using hfinite)
      cases negative with
      | true => rfl
      | false => rfl

theorem keyChars_withoutZeroSign (x : Number) : x.withoutZeroSign.keyChars = x.keyChars := by
  cases x with
  | nan => rfl
  | signed negative m =>
    by_cases hzero : m.rank = 0
    · have hfinite := Magnitude.isInfinite_eq_false (show m.rank < 2047 * 2 ^ 52 by omega)
      simp [withoutZeroSign, keyChars, hzero, hfinite]
    · simp [withoutZeroSign, keyChars, hzero]

theorem key_eq_key_iff : x.key = y.key ↔ x.withoutZeroSign = y.withoutZeroSign := by
  constructor
  · intro h
    have hread := read_key x
    rw [h, read_key] at hread
    exact (Option.some.inj hread).symm
  · intro h
    rw [key, key, ← keyChars_withoutZeroSign x, h, keyChars_withoutZeroSign]

-- What is equal as a number differs in the sign of zero at most
theorem equal_iff : x.equal y = true ↔ x ≠ .nan ∧ x.withoutZeroSign = y.withoutZeroSign := by
  cases x with
  | nan => simp [equal]
  | signed s m =>
    cases y with
    | nan => simp [equal, withoutZeroSign]
    | signed t m' =>
      simp only [equal, withoutZeroSign, Bool.and_eq_true, Bool.or_eq_true, beq_iff_eq, ne_eq,
        reduceCtorEq, not_false_eq_true, true_and, signed.injEq]
      constructor
      · rintro ⟨rfl, rfl | hzero⟩
        · exact ⟨rfl, rfl⟩
        · simp [hzero]
      · rintro ⟨hsign, rfl⟩
        refine ⟨rfl, ?_⟩
        by_cases hzero : m.rank = 0
        · exact .inr hzero
        · have hne : (m.rank != 0) = true := bne_iff_ne.mpr hzero
          rw [hne, Bool.and_true, Bool.and_true] at hsign
          exact .inl hsign

theorem key_eq_key_iff_equal (hx : x ≠ .nan) : x.key = y.key ↔ x.equal y = true := by
  rw [key_eq_key_iff, equal_iff]
  simp [hx]

theorem keyChars_ofNat (hn : n < 2 ^ 53) : (ofNat n).keyChars = Nat.toDigits 10 n := by
  obtain ⟨hfinite, hunits⟩ := Magnitude.units_ofNat hn
  obtain rfl | hpos := Nat.eq_zero_or_pos n
  · rw [ofNat, Magnitude.ofNat_zero]
    rfl
  · have hrank : (Magnitude.ofNat n).rank ≠ 0 := by
      intro hzero
      have hmul := Nat.mul_pos hpos Magnitude.unitsPerOne_pos
      rw [Magnitude.units_eq_zero hzero] at hunits
      omega
    obtain ⟨significand, exponent, hshortest, hvalue⟩ :=
      @Magnitude.exists_shortest_ofNat keyStyle.tie n hn hpos
    have hsignificand : 0 < significand := by
      refine Nat.pos_of_ne_zero ?_
      rintro rfl
      omega
    have hmagnitude := keyStyle.magnitude_whole (by decide) (by decide) rfl hshortest hsignificand
    rw [hvalue] at hmagnitude
    rw [ofNat, keyChars, hfinite, if_neg Bool.false_ne_true, NumberStyle.finite, if_neg hrank,
      hmagnitude (Magnitude.length_toDigits_le hn)]
    rfl

theorem withoutZeroSign_ofNat (n : Nat) : (ofNat n).withoutZeroSign = ofNat n := by
  rw [ofNat, withoutZeroSign, Bool.false_and]

-- A number that is whole: a multiple of one, without a sign unless it is zero
inductive IsWhole (n : Nat) : Number → Prop where
  | mk {negative : Bool} {m : Magnitude} (hfinite : m.isInfinite = false)
      (hunits : m.units = n * Magnitude.unitsPerOne) (hsign : negative = true → n = 0) :
      IsWhole n (.signed negative m)

theorem isWhole_iff (hn : n < 2 ^ 53) : IsWhole n x ↔ x.withoutZeroSign = ofNat n := by
  constructor
  · rintro ⟨hfinite, hunits, hsign⟩
    rename_i negative m
    obtain rfl := Magnitude.ofNat_of_units hunits
    cases negative with
    | false => exact withoutZeroSign_ofNat n
    | true =>
      obtain rfl := hsign rfl
      rw [ofNat, Magnitude.ofNat_zero]
      rfl
  · intro h
    obtain ⟨hfinite, hunits⟩ := Magnitude.units_ofNat hn
    cases x with
    | nan => simp [withoutZeroSign, ofNat] at h
    | signed negative m =>
      obtain ⟨hsign, rfl⟩ := signed.inj h
      refine ⟨hfinite, hunits, ?_⟩
      rintro rfl
      have hrank : (Magnitude.ofNat n).rank = 0 := by simpa using hsign
      have hnone := Magnitude.units_eq_zero hrank
      rw [hunits] at hnone
      exact (Nat.mul_eq_zero.mp hnone).resolve_right (Nat.ne_of_gt Magnitude.unitsPerOne_pos)

-- Of all numbers only the whole number itself has its digits as a name
theorem keyChars_eq_toDigits_iff (hn : n < 2 ^ 53) :
    x.keyChars = Nat.toDigits 10 n ↔ IsWhole n x := by
  have hkey : x.key = (ofNat n).key ↔ x.withoutZeroSign = (ofNat n).withoutZeroSign :=
    key_eq_key_iff
  rw [key, key, String.ofList_inj, keyChars_ofNat hn, withoutZeroSign_ofNat] at hkey
  rw [hkey, isWhole_iff hn]

end Number

end DeclarativeOptions
