import DeclarativeOptions.Token

namespace DeclarativeOptions

-- The kinds of tokens that would have been right
inductive Expected where
  | one (kind : TokenKind)
  | oneOf (kinds : List TokenKind)
deriving DecidableEq

namespace Expected

def kinds : Expected → List TokenKind
  | one kind => [kind]
  | oneOf kinds => kinds

def message : Expected → String
  | one kind => "expected token: " ++ kind.name
  | oneOf kinds => "expected one of: " ++ ", ".intercalate (kinds.map TokenKind.name)

end Expected

structure SyntaxError where
  -- The whole text
  input : String
  unexpected : TokenKind
  expected : Expected
  -- The index of the token at fault among those that are not separators
  offset : Nat
  -- The UTF-16 index at which that token begins
  position : Nat
deriving DecidableEq

def SyntaxError.message (e : SyntaxError) : String :=
  "Invalid options record: '" ++ e.input ++
    "', expected to be in the format of an object literal. Unexpected token: " ++
    e.unexpected.name ++ ", " ++ e.expected.message ++
    ", at offset " ++ toString e.offset ++ "."

end DeclarativeOptions
