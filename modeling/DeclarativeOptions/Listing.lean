import DeclarativeOptions.Text.Quoted
import DeclarativeOptions.Token.Scan

namespace DeclarativeOptions

-- A text filled up with blanks to a width, on the left or on the right
def alignRight (width : Nat) (text : String) : String :=
  String.ofList (List.replicate (width - text.length) ' ') ++ text

def alignLeft (width : Nat) (text : String) : String :=
  text ++ String.ofList (List.replicate (width - text.length) ' ')

-- The offset of a token, its kind and what it says
def Token.line (t : Token) : String :=
  let offset := alignRight 4 (toString t.offset)
  if t.kind = .eof then offset ++ "  " ++ t.kind.name
  else
    offset ++ "  " ++ alignLeft 14 t.kind.name ++ " " ++
      String.ofList (Text.inspected t.text.toList)

-- The lines of all tokens of a text, separators included
def listing (text : String) : String := "\n".intercalate ((Token.scan text).map Token.line)

end DeclarativeOptions
