import DeclarativeOptions.Number.Decimal

namespace DeclarativeOptions

-- Which of two equally near decimals is taken
inductive Tie where
  | up
  | toEven
deriving DecidableEq

namespace Magnitude

-- The place of the leading decimal digit of a positive finite magnitude
def place (m : Magnitude) : Int :=
  if unitsPerOne ≤ m.units then (Nat.toDigits 10 (m.units / unitsPerOne)).length - 1
  else -(Nat.toDigits 10 ((unitsPerOne - 1) / m.units)).length

-- A finite magnitude divided by `10 ^ exponent`, as a quotient of natural numbers
def overPower (m : Magnitude) (exponent : Int) : Nat × Nat :=
  if 0 ≤ exponent then (m.units, unitsPerOne * Nat.pow 10 exponent.toNat)
  else (m.units * Nat.pow 10 (-exponent).toNat, unitsPerOne)

-- The multiple of `10 ^ exponent` that reads back as the magnitude, the nearer one if the
-- neighbours on both sides do
def onGrid? (tie : Tie) (m : Magnitude) (exponent : Int) : Option Decimal :=
  let (num, den) := m.overPower exponent
  let below : Decimal := ⟨num / den, exponent⟩
  let above : Decimal := ⟨num / den + 1, exponent⟩
  let twice := 2 * (num % den)
  let takesBelow := twice < den ||
    (twice == den && tie == .toEven && (num / den) % 2 == 0)
  if below.nearest = m then
    if above.nearest = m && !takesBelow then some above else some below
  else if above.nearest = m then some above
  else none

-- All digits of a finite magnitude
def exact (m : Magnitude) : Decimal := ⟨m.units * Nat.pow 5 1074, -1074⟩

-- The shortest decimal that reads back as the magnitude, and the nearest of those. With a given
-- number of digits only the two neighbours of the magnitude can be nearest to it, so the search
-- looks at these two, for one digit, two digits, and so on. Seventeen digits are always enough; the
-- exact expansion stands behind them, so that what is found reads back in any case.
def shortest (tie : Tie) (m : Magnitude) : Decimal :=
  ((List.range 17).findSome? fun (more : Nat) => m.onGrid? tie (m.place - more)).getD m.exact

end Magnitude

end DeclarativeOptions
