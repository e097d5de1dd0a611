import DeclarativeOptions.Text.CharClass

namespace DeclarativeOptions.Text

-- The hexadecimal digits of a code point, at least as many as asked for
def hexadecimal (width : Nat) (code : Nat) : List Char :=
  let digits := Nat.toDigits 16 code
  List.replicate (width - digits.length) '0' ++ digits

-- A character of a string literal, escaped if it could not stand between single quotes
def literalChar (c : Char) : List Char :=
  if c = '\'' then ['\\', '\'']
  else if c = '\\' then ['\\', '\\']
  else if c = '\n' then ['\\', 'n']
  else if c = '\r' then ['\\', 'r']
  else if c = '\t' then ['\\', 't']
  else if c = '\u2028' ∨ c = '\u2029' ∨ isControl c then '\\' :: 'u' :: hexadecimal 4 c.toNat
  else [c]

-- A text as a string literal
def literal (text : List Char) : List Char := '\'' :: text.flatMap literalChar ++ ['\'']

-- A character of an inspected text, escaped if it does not show. Marks that would be drawn on the
-- character before them are escaped too.
def inspectedChar (c : Char) : List Char :=
  if c = '"' then ['\\', '"']
  else if c = '\\' then ['\\', '\\']
  else if c = '\n' then ['\\', 'n']
  else if c = '\r' then ['\\', 'r']
  else if c = '\t' then ['\\', 't']
  else if c.toNat = 0 then ['\\', '0']
  else if isCombining c || !isPrintable c then
    ['\\', 'u', '{'] ++ hexadecimal 1 c.toNat ++ ['}']
  else [c]

-- A text between double quotes with everything in it made visible
def inspected (text : List Char) : List Char := '"' :: text.flatMap inspectedChar ++ ['"']

end DeclarativeOptions.Text
