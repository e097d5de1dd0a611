import DeclarativeOptions.Json.Number
import DeclarativeOptions.Token.Escape

namespace DeclarativeOptions

inductive JsonToken where
  | leftBrace
  | rightBrace
  | leftBracket
  | rightBracket
  | colon
  | comma
  | null
  | boolean (value : Bool)
  | number (value : Number)
  | string (text : String)
deriving DecidableEq

namespace JsonToken

-- The code point that a `\u` escape writes, read behind its `\u`. Surrogates have to be paired.
def unicode? (text : List Char) : Option (Char × Nat) :=
  (Escape.code? 4 text).bind fun unit =>
    if Text.isHighSurrogate unit then
      (Escape.lowSurrogate? (text.drop 4)).map fun low => (Text.pairChar unit low, 10)
    else if Text.isLowSurrogate unit then none
    else some (Char.ofNat unit, 4)

-- The character of an escape, read behind its backslash, and its length there
def escape? : List Char → Option (Char × Nat)
  | '"' :: _ => some ('"', 1)
  | '\\' :: _ => some ('\\', 1)
  | '/' :: _ => some ('/', 1)
  | 'b' :: _ => some ('\x08', 1)
  | 'f' :: _ => some ('\x0c', 1)
  | 'n' :: _ => some ('\n', 1)
  | 'r' :: _ => some ('\r', 1)
  | 't' :: _ => some ('\t', 1)
  | 'u' :: rest => (unicode? rest).map fun (c, length) => (c, length + 1)
  | _ => none

-- The string whose opening quote stands before the text, and its length there
def string? : List Char → Option (List Char × Nat)
  | [] => none
  | c :: rest =>
    if c = '"' then some ([], 1)
    else if c = '\\' then
      match escape? rest with
      | none => none
      | some (decoded, length) =>
        (string? (rest.drop length)).map fun (text, more) => (decoded :: text, more + length + 1)
    else if c.toNat < 0x20 then none
    else (string? rest).map fun (text, more) => (c :: text, more + 1)
termination_by text => text.length
decreasing_by all_goals (simp only [List.length_cons, List.length_drop]; omega)

-- A token at the front of a text, and how many characters follow the first one in it
def first? (c : Char) (rest : List Char) : Option (JsonToken × Nat) :=
  match c with
  | '{' => some (.leftBrace, 0)
  | '}' => some (.rightBrace, 0)
  | '[' => some (.leftBracket, 0)
  | ']' => some (.rightBracket, 0)
  | ':' => some (.colon, 0)
  | ',' => some (.comma, 0)
  | '"' => (string? rest).map fun (text, length) => (.string (String.ofList text), length)
  | 'n' => if rest.take 3 = ['u', 'l', 'l'] then some (.null, 3) else none
  | 't' => if rest.take 3 = ['r', 'u', 'e'] then some (.boolean true, 3) else none
  | 'f' => if rest.take 4 = ['a', 'l', 's', 'e'] then some (.boolean false, 4) else none
  | c =>
    let more := rest.takeWhile JsonNumber.isPart
    (JsonNumber.read? (c :: more)).map fun n => (.number n, more.length)

def isBlank (c : Char) : Bool := c == ' ' || c == '\t' || c == '\n' || c == '\r'

-- A text with a part that is no token has none at all
def scan? : List Char → Option (List JsonToken)
  | [] => some []
  | c :: rest =>
    if isBlank c then scan? rest
    else match first? c rest with
      | none => none
      | some (token, more) => (scan? (rest.drop more)).map (token :: ·)
termination_by text => text.length
decreasing_by all_goals (simp only [List.length_cons, List.length_drop]; omega)

end JsonToken

end DeclarativeOptions
