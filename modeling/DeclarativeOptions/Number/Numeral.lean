import DeclarativeOptions.Number.Decimal

namespace DeclarativeOptions

-- The value of a hexadecimal digit of either case
def hexDigit? (c : Char) : Option Nat :=
  if '0' ≤ c ∧ c ≤ '9' then some (c.toNat - '0'.toNat)
  else if 'a' ≤ c ∧ c ≤ 'f' then some (c.toNat - 'a'.toNat + 10)
  else if 'A' ≤ c ∧ c ≤ 'F' then some (c.toNat - 'A'.toNat + 10)
  else none

def isHexDigit (c : Char) : Bool := (hexDigit? c).isSome

namespace Numeral

-- A leading sign and what follows it
def takeSign : List Char → Bool × List Char
  | '-' :: rest => (true, rest)
  | '+' :: rest => (false, rest)
  | text => (false, text)

-- What stands behind the significand: nothing, or `e` and an optionally signed whole number
def exponent? : List Char → Option Int
  | [] => some 0
  | c :: rest =>
    if c = 'e' ∨ c = 'E' then
      let (negative, digits) := takeSign rest
      if digits.isEmpty || !digits.all Char.isDigit then none
      else
        let n : Int := Nat.ofDigitChars 10 digits 0
        some (if negative then -n else n)
    else none

-- Digits with at most one point among them and at least one digit in all, and an exponent
def decimal? (text : List Char) : Option Decimal :=
  let whole := text.takeWhile Char.isDigit
  let afterWhole := text.dropWhile Char.isDigit
  let (fraction, afterFraction) := match afterWhole with
    | '.' :: rest => (rest.takeWhile Char.isDigit, rest.dropWhile Char.isDigit)
    | _ => ([], afterWhole)
  if whole.isEmpty && fraction.isEmpty then none
  else (exponent? afterFraction).map fun exponent =>
    ⟨Nat.ofDigitChars 10 (whole ++ fraction) 0, exponent - fraction.length⟩

-- A decimal numeral, or one of the words for what no numeral writes, in any case of letters
def unsigned? (text : List Char) : Option Number :=
  let word := text.map Char.toLower
  if word = "inf".toList ∨ word = "infinity".toList then some (.signed false .infinity)
  else if word = "nan".toList then some .nan
  else (decimal? text).map fun d => .signed false d.nearest

def signed? (text : List Char) : Option Number :=
  let (negative, body) := takeSign text
  (unsigned? body).map (.withSign negative)

-- Hexadecimal digits are taken one after the other, with a rounding at every step
def hexadecimal? (digits : List Char) : Option Number :=
  if digits.isEmpty then none
  else (digits.mapM hexDigit?).map fun values =>
    .signed false (values.foldl (Magnitude.append 16) .zero)

end Numeral

open Numeral in
-- The number that a text spells. The sign in front is read here, and a decimal numeral may bring
-- another one of its own.
def Number.read? (text : List Char) : Option Number :=
  let (negative, body) := takeSign text
  let number := match body with
    | '0' :: 'x' :: digits => hexadecimal? digits
    | '0' :: 'X' :: digits => hexadecimal? digits
    | _ => signed? body
  number.map (.withSign negative)

end DeclarativeOptions
