import DeclarativeOptions.Parser.State
import DeclarativeOptions.Token.Scan

namespace DeclarativeOptions

-- Reads one record at a time, and goes on behind the end token of the record or at the token that
-- was wrong
structure Parser where
  input : String
  -- The tokens in front of the last one, separators left out. The last one is an end token.
  tokens : List Token
  -- The offset of the last token
  endOffset : Nat
  -- The index of the next token
  position : Nat

namespace Parser

-- A parser over the tokens of a text. Where they do not close with an end token, one is set at
-- the end of the text.
def ofTokens (input : String) (tokens : List Token) : Parser :=
  let kept := tokens.filter (·.kind != .separator)
  match kept.getLast? with
  | some ⟨.eof, _, offset⟩ => ⟨input, kept.dropLast, offset, 0⟩
  | _ => ⟨input, kept, Text.unitCount input.toList, 0⟩

def ofText (input : String) : Parser := ofTokens input (Token.scan input)

-- Reads a record from the tokens that are left, of which the first has the given index, and
-- tells the index of the token to go on with. Nothing lies behind the last token.
def run (input : String) (endOffset : Nat) (s : State) (index : Nat) :
    List Token → Except SyntaxError Expr × Nat
  | [] =>
    match s.complete? with
    | some e => (.ok e, index)
    | none => (.error ⟨input, .eof, s.expected .eof, index, endOffset⟩, index)
  | t :: rest =>
    match s.complete?, t.kind with
    | some e, .eof => (.ok e, index + 1)
    | _, _ =>
      match s.step? t with
      | some next => run input endOffset next (index + 1) rest
      | none => (.error ⟨input, t.kind, s.expected t.kind, index, t.offset⟩, index)

-- Reads the next record
def parse (p : Parser) : Except SyntaxError Expr × Parser :=
  let (result, position) :=
    run p.input p.endOffset .start p.position (p.tokens.drop p.position)
  (result, { p with position })

end Parser

-- The expression that a text writes
def Expr.parse (text : String) : Except SyntaxError Expr := (Parser.ofText text).parse.1

end DeclarativeOptions
