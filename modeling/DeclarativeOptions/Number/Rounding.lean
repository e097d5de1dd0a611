import DeclarativeOptions.Number.Basic

namespace DeclarativeOptions

-- The natural number nearest to a quotient, the even one of two equally near
def roundHalfEven (num den : Nat) : Nat :=
  let quotient := num / den
  let remainder := num % den
  if 2 * remainder < den then quotient
  else if den < 2 * remainder then quotient + 1
  else quotient + quotient % 2

namespace Magnitude

-- The magnitude nearest to `num / den`. The quotient in units tells its run of ranks, whose
-- spacing is a power of two, and ranks count on evenly inside a run and into the next one.
def nearest (num den : Nat) : Magnitude :=
  let inUnits := num * unitsPerOne
  let scale := Nat.log2 (inUnits / den) - 52
  ofRank (scale * Nat.pow 2 52 + roundHalfEven inUnits (den * Nat.pow 2 scale))

def ofNat (n : Nat) : Magnitude := nearest n 1

-- Product and quotient of finite magnitudes, rounded once
def mul (a b : Magnitude) : Magnitude :=
  nearest (a.units * b.units) (unitsPerOne * unitsPerOne)

def div (a b : Magnitude) : Magnitude := nearest a.units b.units

-- Writes one more digit of a numeral behind the digits read so far, and rounds the result
def append (base : Nat) (m : Magnitude) (digit : Nat) : Magnitude :=
  if m.isInfinite then infinity
  else nearest (base * m.units + digit * unitsPerOne) unitsPerOne

end Magnitude

def Number.ofNat (n : Nat) : Number := .signed false (.ofNat n)

end DeclarativeOptions
