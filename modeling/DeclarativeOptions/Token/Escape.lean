import DeclarativeOptions.Number.Numeral
import DeclarativeOptions.Text.Units

namespace DeclarativeOptions.Escape

-- The number that exactly `count` hexadecimal digits write at the front of a text
def code? (count : Nat) (text : List Char) : Option Nat :=
  if (text.take count).length = count then
    ((text.take count).mapM hexDigit?).map (·.foldl (fun n d => 16 * n + d) 0)
  else none

-- The low surrogate that a text begins with, written as an escape
def lowSurrogate? : List Char → Option Nat
  | '\\' :: 'u' :: rest => (code? 4 rest).filter Text.isLowSurrogate
  | _ => none

-- The character of the escape whose `\u` stands before the text, and how many characters the rest
-- of the escape takes. A code point above U+FFFF is written as two escapes, a high surrogate and a
-- low one; a surrogate that stands alone is read as U+FFFD.
def unicode? (text : List Char) : Option (Char × Nat) :=
  (code? 4 text).map fun unit =>
    if Text.isHighSurrogate unit then
      match lowSurrogate? (text.drop 4) with
      | some low => (Text.pairChar unit low, 10)
      | none => (Text.unitChar unit, 4)
    else (Text.unitChar unit, 4)

-- The control characters that have a letter of their own; other characters stand for themselves
def single (c : Char) : Char :=
  match c with
  | 'b' => '\x08'
  | 'f' => '\x0c'
  | 'n' => '\n'
  | 'r' => '\r'
  | 't' => '\t'
  | 'v' => '\x0b'
  | '0' => '\x00'
  | c => c

-- What an escape in a string literal stands for, read behind its backslash, and how many
-- characters it takes there. A line end continues the string and stands for nothing.
def inString? : List Char → Option (List Char × Nat)
  | [] => none
  | 'x' :: rest => (code? 2 rest).map fun code => ([Char.ofNat code], 3)
  | 'u' :: rest => (unicode? rest).map fun (c, length) => ([c], length + 1)
  | '\r' :: '\n' :: _ => some ([], 2)
  | c :: _ =>
    if c = '\r' ∨ c = '\n' ∨ c = '\u2028' ∨ c = '\u2029' then some ([], 1)
    else some ([single c], 1)

end DeclarativeOptions.Escape
