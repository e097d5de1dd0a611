import DeclarativeOptions.Expr
import DeclarativeOptions.Text.Quoted

namespace DeclarativeOptions

-- Nested terms with one part on a line, indented by four blanks a level, and a comma behind every
-- part
inductive Outline where
  | leaf (text : String)
  -- A name, empty for a pair, and its parts
  | term (name : String) (parts : List Outline)
  | list (items : List Outline)
  | record (name : String) (fields : List (String × Outline))

namespace Outline

def indent (level : Nat) : String := String.ofList (List.replicate (4 * level) ' ')

mutual

def text (level : Nat) : Outline → String
  | leaf text => text
  | term name parts => name ++ "(\n" ++ partsText (level + 1) parts ++ indent level ++ ")"
  | list [] => "[]"
  | list (item :: rest) =>
    "[\n" ++ partsText (level + 1) (item :: rest) ++ indent level ++ "]"
  | record name fields =>
    name ++ " \x7b\n" ++ fieldsText (level + 1) fields ++ indent level ++ "\x7d"
termination_by structural o => o

def partsText (level : Nat) : List Outline → String
  | [] => ""
  | part :: rest => indent level ++ text level part ++ ",\n" ++ partsText level rest
termination_by structural parts => parts

def fieldsText (level : Nat) : List (String × Outline) → String
  | [] => ""
  | (name, part) :: rest =>
    indent level ++ name ++ ": " ++ text level part ++ ",\n" ++ fieldsText level rest
termination_by structural fields => fields

end

def ofText (text : String) : Outline := leaf (String.ofList (Text.inspected text.toList))

def ofNumber (n : Number) : Outline := leaf (String.ofList n.outlineChars)

end Outline

def IndexKey.outline : IndexKey → Outline
  | name text => .term "Name" [.ofText text]
  | number value => .term "Number" [.ofNumber value]

def Accessor.outline : Accessor → Outline
  | name text => .term "Name" [.ofText text]
  | index key => .term "Index" [key.outline]

def Head.outline : Head → Outline
  | identifier name => .term "Identifier" [.ofText name]
  | call target argument => .record "Call" [("target", .ofText target), ("arg0", .ofText argument)]

def Access.outline (a : Access) : Outline :=
  .record "AccessExpression"
    [("head", a.head.outline), ("tail", .list (a.tail.map Accessor.outline))]

namespace Expr

mutual

def outline : Expr → Outline
  | null => .leaf "Null"
  | boolean value => .term "Boolean" [.leaf (if value then "true" else "false")]
  | number value => .term "Number" [.ofNumber value]
  | string text => .term "String" [.ofText text]
  | array slots => .term "Array" [.list (slotOutlines slots)]
  | object pairs => .term "Object" [.list (pairOutlines pairs)]
  | access chain => .term "Access" [chain.outline]
termination_by structural e => e

def slotOutlines : List (Option Expr) → List Outline
  | [] => []
  | none :: rest => .leaf "None" :: slotOutlines rest
  | some e :: rest => .term "Some" [outline e] :: slotOutlines rest
termination_by structural slots => slots

def pairOutlines : List (String × Expr) → List Outline
  | [] => []
  | (key, e) :: rest => .term "" [.ofText key, outline e] :: pairOutlines rest
termination_by structural pairs => pairs

end

end Expr

end DeclarativeOptions
