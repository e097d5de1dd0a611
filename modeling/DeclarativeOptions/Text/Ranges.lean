namespace DeclarativeOptions.Text

-- Ranges of code points, both ends included, in increasing order and without overlap. The classes
-- of the Unicode character database are tabulated in this form.
abbrev Ranges := List (Nat × Nat)

-- Membership in a sorted list of ranges: the search ends at the first range beyond the point
def Ranges.contains : Ranges → Nat → Bool
  | [], _ => false
  | (low, high) :: rest, point =>
    if point < low then false
    else if point ≤ high then true
    else Ranges.contains rest point

end DeclarativeOptions.Text
