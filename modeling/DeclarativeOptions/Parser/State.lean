import DeclarativeOptions.Expr
import DeclarativeOptions.SyntaxError

namespace DeclarativeOptions.Parser

-- Literals that may be open at once
def maxDepth : Nat := 128

-- An open literal whose next value is being read. What it holds so far is listed from the end.
inductive Frame where
  | array (slots : List (Option Expr))
  | object (pairs : List (String × Expr)) (key : String)

-- What has been read last
inductive Mode where
  -- A value has to follow
  | value
  -- An object is open, and a property name or the closing brace has to follow
  | property (pairs : List (String × Expr))
  -- A property name
  | named (pairs : List (String × Expr)) (key : String)
  -- An array is open, and a slot or the closing bracket has to follow
  | slot (slots : List (Option Expr))
  -- A complete value that nothing extends
  | after (value : Expr)
  -- The name at the head of a chain
  | head (name : String)
  -- A name and an opening parenthesis
  | call (target : String)
  -- A name, an opening parenthesis and the argument
  | argument (target argument : String)
  -- A complete chain, which more reads may extend
  | chain (access : Access)
  -- A chain and a point
  | point (access : Access)
  -- A chain and an opening bracket
  | bracket (access : Access)
  -- A chain, an opening bracket and a key
  | key (access : Access) (key : IndexKey)

-- Where a record is being read: what has been read of the innermost literal or chain, and the
-- literals that are open around it
structure State where
  mode : Mode
  frames : List Frame

def valueStart : List TokenKind :=
  [.falseLiteral, .nullLiteral, .stringLiteral, .trueLiteral, .numberLiteral, .leftBrace,
   .leftBracket, .identifier]

-- The values that may still begin inside of `maxDepth` open literals
def scalarStart : List TokenKind :=
  [.falseLiteral, .nullLiteral, .stringLiteral, .trueLiteral, .numberLiteral, .identifier]

def propertyStart : List TokenKind :=
  [.rightBrace, .identifier, .reservedWord, .stringLiteral, .numberLiteral]

-- The first token of a value inside of the given literals
def startValue? (frames : List Frame) (t : Token) : Option State :=
  match t.kind with
  | .falseLiteral => some ⟨.after (.boolean false), frames⟩
  | .trueLiteral => some ⟨.after (.boolean true), frames⟩
  | .nullLiteral => some ⟨.after .null, frames⟩
  | .numberLiteral => t.number?.map fun n => ⟨.after (.number n), frames⟩
  | .stringLiteral => some ⟨.after (.string t.text), frames⟩
  | .leftBrace => if frames.length < maxDepth then some ⟨.property [], frames⟩ else none
  | .leftBracket => if frames.length < maxDepth then some ⟨.slot [], frames⟩ else none
  | .identifier => some ⟨.head t.text, frames⟩
  | _ => none

-- The token behind a complete value inside of the given literals
def endValue? (value : Expr) (frames : List Frame) (t : Token) : Option State :=
  match frames, t.kind with
  | .array slots :: outer, .comma => some ⟨.slot (some value :: slots), outer⟩
  | .array slots :: outer, .rightBracket =>
    some ⟨.after (.array (some value :: slots).reverse), outer⟩
  | .object pairs key :: outer, .comma => some ⟨.property ((key, value) :: pairs), outer⟩
  | .object pairs key :: outer, .rightBrace =>
    some ⟨.after (.object ((key, value) :: pairs).reverse), outer⟩
  | _, _ => none

-- The token behind a complete chain
def extendChain? (access : Access) (frames : List Frame) (t : Token) : Option State :=
  match t.kind with
  | .dot => some ⟨.point access, frames⟩
  | .leftBracket => some ⟨.bracket access, frames⟩
  | _ => endValue? (.access access) frames t

-- The name of a property; any keyword will do, and a number stands for its key
def propertyName? (t : Token) : Option String :=
  match t.kind with
  | .identifier | .reservedWord | .thisKeyword | .trueLiteral | .falseLiteral | .nullLiteral
  | .stringLiteral => some t.text
  | .numberLiteral => t.number?.map Number.key
  | _ => none

def indexKey? (t : Token) : Option IndexKey :=
  match t.kind with
  | .stringLiteral => some (.name t.text)
  | .numberLiteral => t.number?.map .number
  | _ => none

namespace State

def start : State := ⟨.value, []⟩

def step? (s : State) (t : Token) : Option State :=
  let frames := s.frames
  match s.mode with
  | .value => startValue? frames t
  | .property pairs =>
    if t.kind = .rightBrace then some ⟨.after (.object pairs.reverse), frames⟩
    else (propertyName? t).map fun key => ⟨.named pairs key, frames⟩
  | .named pairs key =>
    if t.kind = .colon then some ⟨.value, .object pairs key :: frames⟩ else none
  | .slot slots =>
    if t.kind = .rightBracket then some ⟨.after (.array slots.reverse), frames⟩
    else if t.kind = .comma then some ⟨.slot (none :: slots), frames⟩
    else startValue? (.array slots :: frames) t
  | .after value => endValue? value frames t
  | .head name =>
    if t.kind = .leftParen then some ⟨.call name, frames⟩
    else extendChain? ⟨.identifier name, []⟩ frames t
  | .call target =>
    if t.kind = .stringLiteral then some ⟨.argument target t.text, frames⟩ else none
  | .argument target argument =>
    if t.kind = .rightParen then some ⟨.chain ⟨.call target argument, []⟩, frames⟩ else none
  | .chain access => extendChain? access frames t
  | .point access =>
    if t.kind = .identifier ∨ t.kind = .reservedWord then
      some ⟨.chain (access.push (.name t.text)), frames⟩
    else none
  | .bracket access => (indexKey? t).map fun key => ⟨.key access key, frames⟩
  | .key access key =>
    if t.kind = .rightBracket then some ⟨.chain (access.push (.index key)), frames⟩
    else none

-- The record that has been read, if the text may end here
def complete? (s : State) : Option Expr :=
  match s.frames, s.mode with
  | [], .after value => some value
  | [], .head name => some (.access ⟨.identifier name, []⟩)
  | [], .chain access => some (.access access)
  | _, _ => none

-- What to expect where a token that `step?` does not take begins a value. A bracket or brace is
-- only refused for the depth, and a number only for its spelling.
def expectedValue : TokenKind → Expected
  | .leftBrace | .leftBracket => .oneOf scalarStart
  | .numberLiteral => .one .numberLiteral
  | _ => .oneOf valueStart

-- What to expect behind a complete value
def expectedAfter : List Frame → Expected
  | [] => .one .eof
  | .array _ :: _ => .oneOf [.comma, .rightBracket]
  | .object _ _ :: _ => .oneOf [.comma, .rightBrace]

-- What would have been right in the place of a token that `step?` does not take
def expected (s : State) (unexpected : TokenKind) : Expected :=
  match s.mode with
  | .value | .slot _ => expectedValue unexpected
  | .property _ =>
    if unexpected = .numberLiteral then .one .numberLiteral else .oneOf propertyStart
  | .named _ _ => .one .colon
  | .after _ | .head _ | .chain _ => expectedAfter s.frames
  | .call _ => .one .stringLiteral
  | .argument _ _ => .one .rightParen
  | .point _ => .one .identifier
  | .bracket _ =>
    if unexpected = .numberLiteral then .one .numberLiteral
    else .oneOf [.stringLiteral, .numberLiteral]
  | .key _ _ => .one .rightBracket

end State

end DeclarativeOptions.Parser
