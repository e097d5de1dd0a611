import DeclarativeOptions.Number.Rounding

namespace DeclarativeOptions

-- `significand * 10 ^ exponent`
structure Decimal where
  significand : Nat
  exponent : Int
deriving DecidableEq, Repr

namespace Decimal

-- The place of the leading digit: a positive decimal is at least `10 ^ place` and below ten
-- times that
def place (d : Decimal) : Int := (Nat.toDigits 10 d.significand).length - 1 + d.exponent

-- The magnitude nearest to a decimal. Beyond `10 ^ 310` all is infinity and below `10 ^ -330` all
-- is zero, so that no power larger than the numeral itself is ever computed.
def nearest (d : Decimal) : Magnitude :=
  if d.significand = 0 then .zero
  else if 310 < d.place then .infinity
  else if d.place < -330 then .zero
  else if 0 ≤ d.exponent then .nearest (d.significand * Nat.pow 10 d.exponent.toNat) 1
  else .nearest d.significand (Nat.pow 10 (-d.exponent).toNat)

end Decimal

end DeclarativeOptions
