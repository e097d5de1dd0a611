import DeclarativeOptions.Number.Style
import DeclarativeOptions.Proofs.Number.Rounding
import Mathlib.Data.List.TakeWhile
import Mathlib.Tactic.SplitIfs

namespace DeclarativeOptions

namespace Magnitude

-- The search only ever takes what reads back
theorem nearest_of_onGrid {tie : Tie} {m : Magnitude} {exponent : Int} {d : Decimal}
    (h : m.onGrid? tie exponent = some d) : d.nearest = m := by
  unfold onGrid? at h
  dsimp only at h
  split_ifs at h with hbelow habove habove
  · obtain rfl := Option.some.inj h
    simp only [Bool.and_eq_true, decide_eq_true_eq] at habove
    exact habove.1
  · obtain rfl := Option.some.inj h
    exact hbelow
  · obtain rfl := Option.some.inj h
    exact habove

theorem nearest_shortest (tie : Tie) {m : Magnitude} (hfinite : m.isInfinite = false)
    (hm : m.rank ≠ 0) : (m.shortest tie).nearest = m := by
  unfold shortest
  cases hfound : (List.range 17).findSome? fun (more : Nat) => m.onGrid? tie (m.place - more) with
  | none => exact nearest_exact hfinite hm
  | some d =>
    obtain ⟨more, -, hgrid⟩ := List.exists_of_findSome?_eq_some hfound
    exact nearest_of_onGrid hgrid

end Magnitude

namespace Decimal

variable {d : Decimal}

-- The digits of a decimal are its leading digits and zeros
theorem exists_leadingDigits (d : Decimal) : ∃ zeros,
    Nat.toDigits 10 d.significand = d.leadingDigits ++ List.replicate zeros '0' := by
  let reversed := (Nat.toDigits 10 d.significand).reverse
  refine ⟨(reversed.takeWhile (· == '0')).length, ?_⟩
  have hzeros : reversed.takeWhile (· == '0') =
      List.replicate (reversed.takeWhile (· == '0')).length '0' := by
    rw [List.eq_replicate_iff]
    exact ⟨rfl, fun c hc => by simpa using List.mem_takeWhile_imp hc⟩
  have hsplit : reversed.takeWhile (· == '0') ++ reversed.dropWhile (· == '0') = reversed :=
    List.takeWhile_append_dropWhile
  rw [hzeros] at hsplit
  have hreverse := congrArg List.reverse hsplit
  simpa [reversed, leadingDigits] using hreverse.symm

theorem isDigit_of_mem_leadingDigits {c : Char} (hc : c ∈ d.leadingDigits) : c.isDigit = true := by
  obtain ⟨zeros, hdigits⟩ := d.exists_leadingDigits
  have hmem : c ∈ Nat.toDigits 10 d.significand := by
    rw [hdigits]
    exact List.mem_append_left _ hc
  exact Nat.isDigit_of_mem_toDigits (by decide) (by decide) hmem

theorem leadingDigits_ne_nil (hd : d.significand ≠ 0) : d.leadingDigits ≠ [] := by
  intro hnil
  obtain ⟨zeros, hdigits⟩ := d.exists_leadingDigits
  have hvalue := congrArg (fun digits => Nat.ofDigitChars 10 digits 0) hdigits
  simp [hnil] at hvalue
  exact hd hvalue

-- The leading digits at the places where they stand are the whole decimal
theorem nearest_leadingDigits (d : Decimal) :
    nearest ⟨Nat.ofDigitChars 10 d.leadingDigits 0, d.place + 1 - d.leadingDigits.length⟩ =
      d.nearest := by
  obtain ⟨zeros, hdigits⟩ := d.exists_leadingDigits
  have hvalue := congrArg (fun digits => Nat.ofDigitChars 10 digits 0) hdigits
  have hlength := congrArg List.length hdigits
  simp only [Nat.ofDigitChars_ten_toDigits, Nat.ofDigitChars_append,
    Nat.ofDigitChars_replicate_zero] at hvalue
  simp only [List.length_append, List.length_replicate] at hlength
  have hexponent : d.place + 1 - d.leadingDigits.length = d.exponent + zeros := by
    unfold place
    omega
  rw [hexponent, ← nearest_mul_pow, Nat.mul_comm, ← hvalue]

end Decimal

end DeclarativeOptions
