import DeclarativeOptions.Number.Shortest

namespace DeclarativeOptions

-- All texts of numbers write the shortest digits that read back. A style says where the positional
-- form ends and how the exponent form looks.
structure NumberStyle where
  -- The places of the leading digit from which on and up to which the form is positional
  lowestPlace : Int
  highestPlace : Int
  -- Positional whole numbers end in `.0`
  pointed : Bool
  -- The exponent form marks a positive exponent with a plus sign
  plus : Bool
  tie : Tie

namespace Decimal

-- The digits of a decimal without the zeros at its end
def leadingDigits (d : Decimal) : List Char :=
  ((Nat.toDigits 10 d.significand).reverse.dropWhile (· == '0')).reverse

-- Digits before and behind the point, with zeros for the places that the digits do not reach
def positional (pointed : Bool) (d : Decimal) : List Char :=
  let digits := d.leadingDigits
  if d.place < 0 then '0' :: '.' :: List.replicate (-d.place - 1).toNat '0' ++ digits
  else
    let whole := d.place.toNat + 1
    if digits.length ≤ whole then
      digits ++ List.replicate (whole - digits.length) '0' ++ if pointed then ['.', '0'] else []
    else digits.take whole ++ '.' :: digits.drop whole

-- One digit before the point, and the place of that digit as the exponent
def scientific (plus : Bool) (d : Decimal) : List Char :=
  let significand := match d.leadingDigits with
    | [] => []
    | [digit] => [digit]
    | digit :: more => digit :: '.' :: more
  let exponent :=
    if d.place < 0 then '-' :: Nat.toDigits 10 d.place.natAbs
    else if plus then '+' :: Nat.toDigits 10 d.place.natAbs
    else Nat.toDigits 10 d.place.natAbs
  significand ++ 'e' :: exponent

end Decimal

namespace NumberStyle

-- The text of a finite magnitude other than zero
def magnitude (style : NumberStyle) (m : Magnitude) : List Char :=
  let d := m.shortest style.tie
  if style.lowestPlace ≤ d.place && d.place ≤ style.highestPlace then d.positional style.pointed
  else d.scientific style.plus

-- The text of a finite magnitude, zero included
def finite (style : NumberStyle) (negative : Bool) (m : Magnitude) : List Char :=
  (if negative then ['-'] else []) ++
    if m.rank = 0 then (if style.pointed then ['0', '.', '0'] else ['0']) else style.magnitude m

end NumberStyle

namespace Number

-- Property names are positional from `10 ^ -6` up to `10 ^ 21` and whole without a point
def keyStyle : NumberStyle := ⟨-6, 20, false, true, .up⟩

-- The property name that a number stands for. Both zeros name the same property.
def keyChars : Number → List Char
  | .nan => "NaN".toList
  | .signed negative m =>
    if m.isInfinite then (if negative then "-Infinity" else "Infinity").toList
    else keyStyle.finite (negative && m.rank != 0) m

def key (n : Number) : String := String.ofList n.keyChars

-- Tree outlines are positional from `10 ^ -4` up to `10 ^ 16` and show a whole number's point
def outlineStyle : NumberStyle := ⟨-4, 15, true, false, .up⟩

def outlineChars : Number → List Char
  | .nan => "NaN".toList
  | .signed negative m =>
    if m.isInfinite then (if negative then "-inf" else "inf").toList
    else outlineStyle.finite negative m

-- JSON numbers are positional from `10 ^ -5` up to `10 ^ 16` and show a whole number's point
def jsonStyle : NumberStyle := ⟨-5, 15, true, true, .toEven⟩

-- JSON has no NaN and no infinities
def jsonChars? : Number → Option (List Char)
  | .nan => none
  | .signed negative m => if m.isInfinite then none else some (jsonStyle.finite negative m)

end Number

end DeclarativeOptions
