import DeclarativeOptions.Number.Numeral

namespace DeclarativeOptions

inductive TokenKind where
  | leftBrace
  | rightBrace
  | leftBracket
  | rightBracket
  | leftParen
  | rightParen
  | colon
  | comma
  | dot
  | semicolon
  | identifier
  -- A keyword, which may only name a property
  | reservedWord
  | thisKeyword
  | stringLiteral
  | numberLiteral
  | trueLiteral
  | falseLiteral
  | nullLiteral
  -- A run of whitespace
  | separator
  -- A character that begins no token, or a malformed string or name
  | error
  -- The end of the text
  | eof
deriving DecidableEq, Repr

namespace TokenKind

def all : List TokenKind :=
  [leftBrace, rightBrace, leftBracket, rightBracket, leftParen, rightParen, colon, comma, dot,
   semicolon, identifier, reservedWord, thisKeyword, stringLiteral, numberLiteral, trueLiteral,
   falseLiteral, nullLiteral, separator, error, eof]

def name : TokenKind → String
  | leftBrace => "leftBrace"
  | rightBrace => "rightBrace"
  | leftBracket => "leftBracket"
  | rightBracket => "rightBracket"
  | leftParen => "leftParen"
  | rightParen => "rightParen"
  | colon => "colon"
  | comma => "comma"
  | dot => "dot"
  | semicolon => "semicolon"
  | identifier => "identifier"
  | reservedWord => "reservedWord"
  | thisKeyword => "thisKeyword"
  | stringLiteral => "stringLiteral"
  | numberLiteral => "numberLiteral"
  | trueLiteral => "trueLiteral"
  | falseLiteral => "falseLiteral"
  | nullLiteral => "nullLiteral"
  | separator => "separator"
  | error => "error"
  | eof => "eof"

end TokenKind

structure Token where
  kind : TokenKind
  -- The value of a string literal, the name of an identifier or keyword, and the spelling of
  -- any other token
  text : String
  -- The UTF-16 index of the first character
  offset : Nat
deriving DecidableEq, Repr

-- The number of a number literal, none for any other kind
def Token.number? (t : Token) : Option Number :=
  if t.kind = .numberLiteral then Number.read? t.text.toList else none

end DeclarativeOptions
