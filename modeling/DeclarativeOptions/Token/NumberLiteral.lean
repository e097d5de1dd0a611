import DeclarativeOptions.Number.Numeral

namespace DeclarativeOptions.NumberLiteral

def digitCount (text : List Char) : Nat := (text.takeWhile Char.isDigit).length

def startsWithDigit : List Char → Bool
  | c :: _ => c.isDigit
  | [] => false

-- A digit, or a point and a digit
def startsUnsigned : List Char → Bool
  | '.' :: rest => startsWithDigit rest
  | text => startsWithDigit text

def isSign (c : Char) : Bool := c == '+' || c == '-'

-- Whether a number literal begins here
def starts : List Char → Bool
  | [] => false
  | c :: rest => if isSign c then startsUnsigned rest else startsUnsigned (c :: rest)

-- The length of a point and the digits behind it
def fractionLength : List Char → Nat
  | '.' :: rest => digitCount rest + 1
  | _ => 0

-- The length of an exponent; without digits it is none
def exponentLength : List Char → Nat
  | [] => 0
  | c :: rest =>
    if c = 'e' ∨ c = 'E' then
      match rest with
      | [] => 0
      | sign :: digits =>
        if isSign sign then
          if startsWithDigit digits then digitCount digits + 2 else 0
        else if startsWithDigit rest then digitCount rest + 1 else 0
    else 0

def decimalLength (text : List Char) : Nat :=
  let whole := digitCount text
  let fraction := fractionLength (text.drop whole)
  whole + fraction + exponentLength (text.drop (whole + fraction))

-- The length of a hexadecimal numeral; without digits there is none
def hexadecimalLength? : List Char → Option Nat
  | '0' :: x :: digits =>
    let count := (digits.takeWhile isHexDigit).length
    if (x = 'x' ∨ x = 'X') ∧ count ≠ 0 then some (count + 2) else none
  | _ => none

def unsignedLength (text : List Char) : Nat :=
  (hexadecimalLength? text).getD (decimalLength text)

-- A sign, then hexadecimal digits behind `0x`, or digits with a point and an exponent. A literal
-- takes as many characters as it can, and none that do not belong to it.
def length : List Char → Nat
  | [] => 0
  | c :: rest => if isSign c then unsignedLength rest + 1 else unsignedLength (c :: rest)

end DeclarativeOptions.NumberLiteral
