import DeclarativeOptions.Number.Numeral

namespace DeclarativeOptions.JsonNumber

def digit (c : Char) : Nat := c.toNat - '0'.toNat

-- Adds digits before the point to a significand. From the first digit on that does not fit, they
-- only count as powers of ten.
def takeWhole (significand : Nat) : List Char → Nat × Nat
  | [] => (significand, 0)
  | c :: rest =>
    let next := 10 * significand + digit c
    if next < Nat.pow 2 64 then takeWhole next rest else (significand, rest.length + 1)

-- Adds digits behind the point to a significand, up to the first one that does not fit, and counts
-- them
def takeFraction (significand : Nat) (count : Nat) : List Char → Nat × Nat
  | [] => (significand, count)
  | c :: rest =>
    let next := 10 * significand + digit c
    if next < Nat.pow 2 64 then takeFraction next (count + 1) rest else (significand, count)

-- Multiplies with a power of ten, or divides by one, in steps that the range of numbers allows.
-- Growing out of the range is an error; shrinking out of it gives zero.
def scale (m : Magnitude) (exponent : Int) : Option Magnitude :=
  if exponent.natAbs ≤ 308 then
    if 0 ≤ exponent then
      let product := m.mul (.ofNat (Nat.pow 10 exponent.toNat))
      if product.isInfinite then none else some product
    else some (m.div (.ofNat (Nat.pow 10 (-exponent).toNat)))
  else if m.rank = 0 then some .zero
  else if 0 ≤ exponent then none
  else scale (m.div (.ofNat (Nat.pow 10 308))) (exponent + 308)
termination_by (-exponent).toNat
decreasing_by omega

-- The number of a numeral with the given sign, digits and exponent. The digits are collected in 64
-- bits and scaled by a power of ten afterwards, which rounds more than once: a long numeral need
-- not become the number nearest to it.
def value? (negative : Bool) (whole fraction : List Char) (exponent : Int) : Option Number :=
  let (significand, dropped) := takeWhole 0 whole
  let (significand, taken) := takeFraction significand 0 fraction
  (scale (.ofNat significand) (exponent + dropped - taken)).map (.signed negative)

-- The digits before the point: zero stands alone
def whole? : List Char → Option (List Char × List Char)
  | '0' :: rest => some (['0'], rest)
  | text =>
    let digits := text.takeWhile Char.isDigit
    if digits.isEmpty then none else some (digits, text.dropWhile Char.isDigit)

-- The digits behind the point, of which there is at least one if there is a point
def fraction? : List Char → Option (List Char × List Char)
  | '.' :: rest =>
    let digits := rest.takeWhile Char.isDigit
    if digits.isEmpty then none else some (digits, rest.dropWhile Char.isDigit)
  | text => some ([], text)

-- The number that a text writes as a whole
def read? (text : List Char) : Option Number := do
  let (negative, unsigned) := match text with
    | '-' :: rest => (true, rest)
    | _ => (false, text)
  let (whole, afterWhole) ← whole? unsigned
  let (fraction, afterFraction) ← fraction? afterWhole
  let exponent ← Numeral.exponent? afterFraction
  value? negative whole fraction exponent

-- The characters that numerals are made of. No JSON text has one of them right behind a numeral.
def isPart (c : Char) : Bool :=
  c.isDigit || c == '.' || c == 'e' || c == 'E' || c == '+' || c == '-'

end DeclarativeOptions.JsonNumber
