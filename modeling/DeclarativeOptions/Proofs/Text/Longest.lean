import Mathlib.Data.List.Infix

namespace DeclarativeOptions.Text

-- The longest text of a class that another text begins with, which is what a scanner takes that
-- takes as much as it can
structure Longest (p : List Char → Prop) (front text : List Char) : Prop where
  holds : p front
  begins : front <+: text
  le : ∀ other, p other → other <+: text → other.length ≤ front.length

variable {p : List Char → Prop} {front other text : List Char}

theorem Longest.unique (h : Longest p front text) (hother : Longest p other text) :
    front = other := by
  have hle := h.le other hother.holds hother.begins
  have hge := hother.le front h.holds h.begins
  exact (List.prefix_of_prefix_length_le h.begins hother.begins hge).eq_of_length (by omega)

-- By induction on how much of the text is left behind the one that is there already
theorem exists_longest (h : p front) (hbegins : front <+: text) :
    ∃ longest, Longest p longest text := by
  induction hn : text.length - front.length using Nat.strongRecOn generalizing front with
  | ind n ih =>
    subst hn
    by_cases hle : ∀ other, p other → other <+: text → other.length ≤ front.length
    · exact ⟨front, h, hbegins, hle⟩
    · push Not at hle
      obtain ⟨other, hother, hbegins, hlt⟩ := hle
      have hlength := hbegins.length_le
      exact ih (text.length - other.length) (by omega) hother hbegins rfl

end DeclarativeOptions.Text
