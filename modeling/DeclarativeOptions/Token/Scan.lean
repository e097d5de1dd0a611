import DeclarativeOptions.Token.Name
import DeclarativeOptions.Token.NumberLiteral
import DeclarativeOptions.Token.StringLiteral

namespace DeclarativeOptions

-- A token at the front of a text, before it is placed
structure Lexeme where
  kind : TokenKind
  text : List Char
  -- How many characters of the text follow the first one in the token
  more : Nat

namespace Lexeme

-- Whitespace and the byte order mark
def isSeparator (c : Char) : Bool := Text.isWhitespace c || c == '\uFEFF'

def punctuation? : Char → Option TokenKind
  | '{' => some .leftBrace
  | '}' => some .rightBrace
  | '[' => some .leftBracket
  | ']' => some .rightBracket
  | '(' => some .leftParen
  | ')' => some .rightParen
  | ':' => some .colon
  | ',' => some .comma
  | ';' => some .semicolon
  | _ => none

-- A token that says what it is spelled like
def spelled (kind : TokenKind) (c : Char) (rest : List Char) (more : Nat) : Lexeme :=
  ⟨kind, c :: rest.take more, more⟩

def stringLiteral (quote : Char) (rest : List Char) : Lexeme :=
  match StringLiteral.read? quote rest with
  | some (value, length) => ⟨.stringLiteral, value, length⟩
  | none => spelled .error quote rest rest.length

def name (c : Char) (rest : List Char) : Lexeme :=
  let run := Name.run Name.isStart (c :: rest)
  if run.wellFormed then ⟨Name.kind (String.ofList run.name), run.name, run.length - 1⟩
  else spelled .error c rest (run.length - 1)

-- The token that begins with `c`
def first (c : Char) (rest : List Char) : Lexeme :=
  if isSeparator c then spelled .separator c rest (rest.takeWhile isSeparator).length
  else match punctuation? c with
    | some kind => spelled kind c rest 0
    | none =>
      if NumberLiteral.starts (c :: rest) then
        spelled .numberLiteral c rest (NumberLiteral.length (c :: rest) - 1)
      else if c = '.' then spelled .dot c rest 0
      else if c = '"' ∨ c = '\'' then stringLiteral c rest
      else if Name.isStart c ∨ c = '\\' then name c rest
      else spelled .error c rest 0

end Lexeme

namespace Token

-- The tokens of a text that begins at a given offset, the end included
def scanFrom (offset : Nat) : List Char → List Token
  | [] => [⟨.eof, "", offset⟩]
  | c :: rest =>
    let lexeme := Lexeme.first c rest
    ⟨lexeme.kind, String.ofList lexeme.text, offset⟩ ::
      scanFrom (offset + Text.unitCount (c :: rest.take lexeme.more)) (rest.drop lexeme.more)
termination_by text => text.length
decreasing_by simp only [List.length_cons, List.length_drop]; omega

-- Every text has tokens: what is malformed becomes an error token. An unfinished string takes the
-- rest of the text, and a malformed name ends with the escape that is at fault.
def scan (text : String) : List Token := scanFrom 0 text.toList

-- The first `count` tokens of a text, where the end follows itself
def scanFirst (count : Nat) (text : String) : List Token :=
  let tokens := scan text
  let atEnd : Token := ⟨.eof, "", Text.unitCount text.toList⟩
  (tokens ++ List.replicate (count - tokens.length) atEnd).take count

end Token

end DeclarativeOptions
