import DeclarativeOptions.Number.Style

namespace DeclarativeOptions

-- The first segment of a chain: a name, or a call with one string argument
inductive Head where
  | identifier (name : String)
  | call (target argument : String)
deriving DecidableEq

-- A key between brackets
inductive IndexKey where
  | name (text : String)
  | number (value : Number)
deriving DecidableEq

-- A property read behind the head: `.name` or `[key]`
inductive Accessor where
  | name (text : String)
  | index (key : IndexKey)
deriving DecidableEq

-- A call can only stand at the head, so no other call can be written down
structure Access where
  head : Head
  tail : List Accessor
deriving DecidableEq

-- An array slot without an expression is a hole, and an object keeps its pairs as written,
-- those of a repeated key included
inductive Expr where
  | null
  | boolean (value : Bool)
  | number (value : Number)
  | string (text : String)
  | array (slots : List (Option Expr))
  | object (pairs : List (String × Expr))
  | access (chain : Access)

namespace IndexKey

-- The property that a key names
def key : IndexKey → String
  | name text => text
  | number value => value.key

def keyChars : IndexKey → List Char
  | name text => '\'' :: text.toList ++ ['\'']
  | number value => value.keyChars

end IndexKey

namespace Accessor

def key : Accessor → String
  | name text => text
  | index key => key.key

def pathChars : Accessor → List Char
  | name text => '.' :: text.toList
  | index key => '[' :: key.keyChars ++ [']']

end Accessor

def Head.pathChars : Head → List Char
  | identifier name => name.toList
  | call target argument => target.toList ++ ['(', '\''] ++ argument.toList ++ ['\'', ')']

-- One segment of a chain, wherever in the chain it stands
inductive Segment where
  | call (target argument : String)
  | name (text : String)
  | index (key : IndexKey)
deriving DecidableEq

def Head.segment : Head → Segment
  | identifier name => .name name
  | call target argument => .call target argument

def Accessor.segment : Accessor → Segment
  | name text => .name text
  | index key => .index key

namespace Access

-- The chain as it could be written, with the strings as they are
def pathChars (a : Access) : List Char := a.head.pathChars ++ a.tail.flatMap Accessor.pathChars

def path (a : Access) : String := String.ofList a.pathChars

-- The chain with one more read at its end
def push (a : Access) (read : Accessor) : Access := ⟨a.head, a.tail ++ [read]⟩

def segments (a : Access) : List Segment := a.head.segment :: a.tail.map Accessor.segment

end Access

namespace Expr

-- The value of a property of an object; the last pair of a repeated key counts
def get? (key : String) : Expr → Option Expr
  | object pairs => (pairs.reverse.find? fun pair => pair.1 == key).map (·.2)
  | _ => none

def access? : Expr → Option Access
  | access chain => some chain
  | _ => none

end Expr

end DeclarativeOptions
