import DeclarativeOptions.Parser

namespace DeclarativeOptions

-- A token whose text has been moved out
def Token.drained (t : Token) : Token := { t with text := "" }

-- Goes over the tokens of a text in place, moves their texts into the expressions it makes of them
-- and counts the literals that are open. It never leaves the last token, so that there is always a
-- token to look at.
structure Cursor where
  input : String
  -- The tokens, separators left out. The last one is an end token.
  tokens : List Token
  -- The index of the token to read next
  position : Nat
  -- The literals that are open
  depth : Nat

-- Reads a part of a record, and leaves the cursor behind it or at the token that was wrong. A
-- reading that does not end has no outcome, and neither has a look beside the tokens.
abbrev Reading (α : Type) := ExceptT SyntaxError (StateT Cursor Option) α

namespace Cursor

open DeclarativeOptions.Parser

-- A cursor over the tokens of a text. Where they do not close with an end token, one is set at the
-- end of the text.
def ofTokens (input : String) (tokens : List Token) : Cursor :=
  let kept := tokens.filter (·.kind != .separator)
  if kept.getLast?.map Token.kind = some .eof then ⟨input, kept, 0, 0⟩
  else ⟨input, kept ++ [⟨.eof, "", Text.unitCount input.toList⟩], 0, 0⟩

-- The cursor on the next token, if there is one
def forward (c : Cursor) : Cursor :=
  if c.position + 1 < c.tokens.length then { c with position := c.position + 1 } else c

-- The cursor after the text of its token has been moved out
def drained (c : Cursor) : Cursor :=
  { c with tokens := c.tokens.modify c.position Token.drained }

def deeper (c : Cursor) : Cursor := { c with depth := c.depth + 1 }

def shallower (c : Cursor) : Cursor := { c with depth := c.depth - 1 }

def current : Reading Token := do
  let c ← get
  match c.tokens[c.position]? with
  | some t => return t
  | none => fun _ => none

def advance : Reading Unit := modify forward

def takeText : Reading String := do
  let t ← current
  modify drained
  advance
  return t.text

-- Fails at the current token
def unexpected {α : Type} (expected : Expected) : Reading α := do
  let c ← get
  let t ← current
  throw ⟨c.input, t.kind, expected, c.position, t.offset⟩

def takeNumber : Reading Number := do
  match (← current).number? with
  | some n =>
    advance
    return n
  | none => unexpected (.one .numberLiteral)

def expect (kind : TokenKind) : Reading Unit := do
  if (← current).kind = kind then advance else unexpected (.one kind)

-- Reads the inside of a literal, which is closed again whether or not that succeeds
abbrev within (inside : Reading Expr) : Reading Expr :=
  (do
    modify deeper
    let result ← inside.run
    modify shallower
    return result : StateT Cursor Option (Except SyntaxError Expr))

def propertyName : Reading String := do
  match (← current).kind with
  | .identifier | .reservedWord | .thisKeyword | .trueLiteral | .falseLiteral | .nullLiteral
  | .stringLiteral => takeText
  | .numberLiteral => return (← takeNumber).key
  | _ => unexpected (.oneOf propertyStart)

def indexKey : Reading IndexKey := do
  match (← current).kind with
  | .stringLiteral => return .name (← takeText)
  | .numberLiteral => return .number (← takeNumber)
  | _ => unexpected (.oneOf [.stringLiteral, .numberLiteral])

-- The head of a chain, which begins with a name
def head : Reading Head := do
  let name ← takeText
  if (← current).kind = .leftParen then
    advance
    if (← current).kind = .stringLiteral then
      let argument ← takeText
      expect .rightParen
      return .call name argument
    else unexpected (.one .stringLiteral)
  else return .identifier name

end Cursor

open Cursor DeclarativeOptions.Parser

-- The chain with the reads behind it
def Access.extended (chain : Access) : Reading Access := do
  match (← current).kind with
  | .dot =>
    advance
    let kind := (← current).kind
    if kind = .identifier ∨ kind = .reservedWord then
      chain.push (.name (← takeText)) |>.extended
    else unexpected (.one .identifier)
  | .leftBracket =>
    advance
    let key ← indexKey
    expect .rightBracket
    chain.push (.index key) |>.extended
  | _ => return chain
partial_fixpoint

-- The parts of a record that contain one another
inductive Part where
  | value
  -- The rest of an object whose pairs so far are listed from the end
  | properties (pairs : List (String × Expr))
  -- The rest of an array whose slots so far are listed from the end. A comma behind an element
  -- only separates, and any other comma is a hole.
  | slots (filled : List (Option Expr))

def Part.read (part : Part) : Reading Expr := do
  match part with
  | value =>
    match (← current).kind with
    | .falseLiteral =>
      advance
      return .boolean false
    | .trueLiteral =>
      advance
      return .boolean true
    | .nullLiteral =>
      advance
      return .null
    | .numberLiteral => return .number (← takeNumber)
    | .stringLiteral => return .string (← takeText)
    | .leftBrace =>
      if maxDepth ≤ (← get).depth then unexpected (.oneOf scalarStart)
      else within do
        advance
        properties [] |>.read
    | .leftBracket =>
      if maxDepth ≤ (← get).depth then unexpected (.oneOf scalarStart)
      else within do
        advance
        slots [] |>.read
    | .identifier => return .access (← (Access.mk (← head) []).extended)
    | _ => unexpected (.oneOf valueStart)
  | properties pairs =>
    if (← current).kind = .rightBrace then
      advance
      return .object pairs.reverse
    else
      let key ← propertyName
      expect .colon
      let e ← value |>.read
      match (← current).kind with
      | .comma =>
        advance
        properties ((key, e) :: pairs) |>.read
      | .rightBrace =>
        advance
        return .object ((key, e) :: pairs).reverse
      | _ => unexpected (.oneOf [.comma, .rightBrace])
  | slots filled =>
    match (← current).kind with
    | .rightBracket =>
      advance
      return .array filled.reverse
    | .comma =>
      advance
      slots (none :: filled) |>.read
    | _ =>
      let e ← value |>.read
      match (← current).kind with
      | .comma =>
        advance
        slots (some e :: filled) |>.read
      | .rightBracket =>
        advance
        return .array (some e :: filled).reverse
      | _ => unexpected (.oneOf [.comma, .rightBracket])
partial_fixpoint

namespace Cursor

-- A whole record: one value and the end
def record : Reading Expr := do
  let e ← Part.value.read
  expect .eof
  return e

-- Reads records one after the other, and goes on behind one that is wrong where the error was
def records : Nat → Cursor → Option (List (Except SyntaxError Expr) × Cursor)
  | 0, c => some ([], c)
  | n + 1, c => do
    let (result, c) ← record c
    let (results, c) ← records n c
    return (result :: results, c)

end Cursor

end DeclarativeOptions
