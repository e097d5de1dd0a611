namespace DeclarativeOptions

-- A printed container is on one line, or has every entry on a line of its own, indented by two
-- blanks a level
inductive Layout where
  | compact
  | pretty
deriving DecidableEq

namespace Layout

-- What stands before the first entry and behind the last one of a container at a given depth
def inner (layout : Layout) (depth : Nat) : List Char :=
  match layout with
  | .compact => []
  | .pretty => '\n' :: List.replicate (2 * (depth + 1)) ' '

def outer (layout : Layout) (depth : Nat) : List Char :=
  match layout with
  | .compact => []
  | .pretty => '\n' :: List.replicate (2 * depth) ' '

-- What stands between two entries
def between (layout : Layout) (depth : Nat) : List Char :=
  match layout with
  | .compact => [',', ' ']
  | .pretty => ',' :: layout.inner depth

end Layout

end DeclarativeOptions
