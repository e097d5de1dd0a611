import DeclarativeOptions.Token
import DeclarativeOptions.Token.Escape
import DeclarativeOptions.Text.CharClass

namespace DeclarativeOptions.Name

def isStart (c : Char) : Bool := Text.isAlphabetic c || c == '_' || c == '$'

def isPart (c : Char) : Bool := Text.isAlphanumeric c || c == '_' || c == '$'

-- The words that may name a property but are never a value
def reservedWords : List String :=
  ["break", "case", "catch", "class", "const", "continue", "debugger", "default", "delete", "do",
   "else", "enum", "export", "extends", "finally", "for", "function", "if", "import", "in",
   "instanceof", "new", "return", "super", "switch", "throw", "try", "typeof", "var", "void",
   "while", "with"]

-- Whether a name is a keyword depends on the name alone and not on its spelling
def kind (name : String) : TokenKind :=
  if name = "true" then .trueLiteral
  else if name = "false" then .falseLiteral
  else if name = "null" then .nullLiteral
  else if name = "this" then .thisKeyword
  else if reservedWords.contains name then .reservedWord
  else .identifier

-- Whether a text is a name that is not a keyword
def isIdentifier (text : String) : Bool :=
  (match text.toList with
    | [] => false
    | c :: rest => isStart c && rest.all isPart) && kind text == .identifier

-- The longest run of the parts of a name at the front of a text
structure Run where
  name : List Char
  -- The characters of the run and of the malformed escape that ends it
  length : Nat
  wellFormed : Bool

def Run.extend (c : Char) (length : Nat) (run : Run) : Run :=
  ⟨c :: run.name, run.length + length, run.wellFormed⟩

-- An escape behind a backslash: the character and the length, or the length of what is no escape
-- of a character that is legal here
def escape (isLegal : Char → Bool) : List Char → Except Nat (Char × Nat)
  | 'u' :: rest =>
    match Escape.unicode? rest with
    | some (c, length) => if isLegal c then .ok (c, length + 1) else .error (length + 1)
    | none => .error 1
  | _ => .error 0

-- Reads on in a name: `isLegal` is the class of the next character, and `isPart` that of all
-- characters behind it. A raw first character has been seen to start a name.
def run (isLegal : Char → Bool) : List Char → Run
  | [] => ⟨[], 0, true⟩
  | c :: rest =>
    if c = '\\' then
      match escape isLegal rest with
      | .ok (decoded, length) => (run isPart (rest.drop length)).extend decoded (length + 1)
      | .error length => ⟨[], length + 1, false⟩
    else if isPart c then (run isPart rest).extend c 1
    else ⟨[], 0, true⟩
termination_by text => text.length
decreasing_by all_goals (simp only [List.length_cons, List.length_drop]; omega)

end DeclarativeOptions.Name
