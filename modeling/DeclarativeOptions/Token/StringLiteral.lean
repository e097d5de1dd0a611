import DeclarativeOptions.Token.Escape

namespace DeclarativeOptions.StringLiteral

-- The value of the literal whose opening quote stands before the text, and how many characters the
-- rest of the literal takes, the closing quote included. A bare line end, a malformed escape or the
-- end of the text leaves the literal unfinished.
def read? (quote : Char) : List Char → Option (List Char × Nat)
  | [] => none
  | c :: rest =>
    if c = quote then some ([], 1)
    else if c = '\r' ∨ c = '\n' then none
    else if c = '\\' then
      match Escape.inString? rest with
      | none => none
      | some (meaning, length) =>
        (read? quote (rest.drop length)).map fun (value, more) =>
          (meaning ++ value, more + length + 1)
    else (read? quote rest).map fun (value, more) => (c :: value, more + 1)
termination_by text => text.length
decreasing_by all_goals (simp only [List.length_cons, List.length_drop]; omega)

end DeclarativeOptions.StringLiteral
