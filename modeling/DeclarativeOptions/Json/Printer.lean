import DeclarativeOptions.Json
import DeclarativeOptions.Layout
import DeclarativeOptions.Number.Style
import DeclarativeOptions.Text.Quoted

namespace DeclarativeOptions.JsonValue

def escapedChar (c : Char) : List Char :=
  if c = '"' then ['\\', '"']
  else if c = '\\' then ['\\', '\\']
  else if c = '\x08' then ['\\', 'b']
  else if c = '\x0c' then ['\\', 'f']
  else if c = '\n' then ['\\', 'n']
  else if c = '\r' then ['\\', 'r']
  else if c = '\t' then ['\\', 't']
  else if c.toNat < 0x20 then '\\' :: 'u' :: Text.hexadecimal 4 c.toNat
  else [c]

def stringChars (text : String) : List Char := '"' :: text.toList.flatMap escapedChar ++ ['"']

-- What stands between the name of a member and its value
def colonChars : Layout → List Char
  | .compact => [':']
  | .pretty => [':', ' ']

def commaChars (layout : Layout) (depth : Nat) : List Char := ',' :: layout.inner depth

mutual

def textChars (layout : Layout) (depth : Nat) : JsonValue → List Char
  | null => "null".toList
  | boolean true => "true".toList
  | boolean false => "false".toList
  | number value => value.jsonChars?.getD "null".toList
  | string text => stringChars text
  | array [] => ['[', ']']
  | array (item :: rest) =>
    '[' :: layout.inner depth ++ itemsChars layout depth (item :: rest) ++
      layout.outer depth ++ [']']
  | object ⟨[]⟩ => ['{', '}']
  | object ⟨member :: rest⟩ =>
    '{' :: layout.inner depth ++ membersChars layout depth (member :: rest) ++
      layout.outer depth ++ ['}']
termination_by structural j => j

def itemsChars (layout : Layout) (depth : Nat) : List JsonValue → List Char
  | [] => []
  | [j] => textChars layout (depth + 1) j
  | j :: rest =>
    textChars layout (depth + 1) j ++ commaChars layout depth ++ itemsChars layout depth rest
termination_by structural items => items

def membersChars (layout : Layout) (depth : Nat) : List (String × JsonValue) → List Char
  | [] => []
  | [(name, j)] => stringChars name ++ colonChars layout ++ textChars layout (depth + 1) j
  | (name, j) :: rest =>
    stringChars name ++ colonChars layout ++ textChars layout (depth + 1) j ++
      commaChars layout depth ++ membersChars layout depth rest
termination_by structural members => members

end

def text (layout : Layout) (j : JsonValue) : String := String.ofList (textChars layout 0 j)

end DeclarativeOptions.JsonValue
