import DeclarativeOptions.Layout
import DeclarativeOptions.Number.Style
import DeclarativeOptions.Text.Quoted
import DeclarativeOptions.Token.Name
import DeclarativeOptions.Value

namespace DeclarativeOptions.Value

-- A property name, quoted unless it reads back as an identifier
def nameChars (name : String) : List Char :=
  if Name.isIdentifier name then name.toList else Text.literal name.toList

mutual

-- A last hole gets a comma of its own, because a comma behind a value makes no slot
def literalChars (layout : Layout) (depth : Nat) : Value → List Char
  | undefined => "undefined".toList
  | null => "null".toList
  | boolean true => "true".toList
  | boolean false => "false".toList
  | number value => value.keyChars
  | string text => Text.literal text.toList
  | array [] => ['[', ']']
  | array (slot :: rest) =>
    '[' :: layout.inner depth ++ slotsChars layout depth (slot :: rest) ++
      layout.outer depth ++ [']']
  | object ⟨[]⟩ => ['{', '}']
  | object ⟨entry :: rest⟩ =>
    '{' :: layout.inner depth ++ entriesChars layout depth (entry :: rest) ++
      layout.outer depth ++ ['}']
  | capability (.function _) => "<function>".toList
  | capability (.globalObject _) => "<global object>".toList
termination_by structural v => v

def slotsChars (layout : Layout) (depth : Nat) : List (Option Value) → List Char
  | [] => []
  | [none] => [',']
  | [some v] => literalChars layout (depth + 1) v
  | none :: rest => layout.between depth ++ slotsChars layout depth rest
  | some v :: rest =>
    literalChars layout (depth + 1) v ++ layout.between depth ++ slotsChars layout depth rest
termination_by structural slots => slots

def entriesChars (layout : Layout) (depth : Nat) : List (String × Value) → List Char
  | [] => []
  | [(name, v)] => nameChars name ++ [':', ' '] ++ literalChars layout (depth + 1) v
  | (name, v) :: rest =>
    nameChars name ++ [':', ' '] ++ literalChars layout (depth + 1) v ++
      layout.between depth ++ entriesChars layout depth rest
termination_by structural entries => entries

end

-- A value in the notation
def literal (layout : Layout) (v : Value) : String := String.ofList (literalChars layout 0 v)

end DeclarativeOptions.Value
