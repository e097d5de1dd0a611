import DeclarativeOptions.Text.Units

namespace DeclarativeOptions.Text

@[simp] theorem unitCount_nil : unitCount [] = 0 := rfl

theorem unitCount_cons (c : Char) (rest : List Char) :
    unitCount (c :: rest) = (charUnits c).length + unitCount rest := by
  simp [unitCount, units]

@[simp] theorem unitCount_append (front back : List Char) :
    unitCount (front ++ back) = unitCount front + unitCount back := by
  simp [unitCount, units]

theorem charUnits_length_pos (c : Char) : 0 < (charUnits c).length := by
  unfold charUnits
  split <;> simp

theorem unitCount_pos {text : List Char} (hne : text ≠ []) : 0 < unitCount text := by
  cases text with
  | nil => exact absurd rfl hne
  | cons c rest =>
    have hc := charUnits_length_pos c
    rw [unitCount_cons]
    omega

-- The characters of a text behind a UTF-16 offset
def dropUnits : Nat → List Char → List Char
  | _, [] => []
  | count, c :: rest =>
    if count = 0 then c :: rest else dropUnits (count - (charUnits c).length) rest

-- The characters of a text in front of a UTF-16 offset
def takeUnits : Nat → List Char → List Char
  | _, [] => []
  | count, c :: rest =>
    if count = 0 then [] else c :: takeUnits (count - (charUnits c).length) rest

-- The characters of a text between two offsets
def between (start stop : Nat) (text : List Char) : List Char :=
  takeUnits (stop - start) (dropUnits start text)

-- An offset at which no character is taken apart
def IsBoundary (text : List Char) (offset : Nat) : Prop :=
  ∃ front back, text = front ++ back ∧ unitCount front = offset

private theorem dropUnits_unitCount (front back : List Char) :
    dropUnits (unitCount front) (front ++ back) = back := by
  induction front with
  | nil => cases back <;> simp [dropUnits]
  | cons c front ih =>
    have hc := charUnits_length_pos c
    have hne : (charUnits c).length + unitCount front ≠ 0 := by omega
    simp only [List.cons_append, dropUnits, unitCount_cons, hne, ite_false, Nat.add_sub_cancel_left]
    exact ih

private theorem takeUnits_unitCount (front back : List Char) :
    takeUnits (unitCount front) (front ++ back) = front := by
  induction front with
  | nil => cases back <;> simp [takeUnits]
  | cons c front ih =>
    have hc := charUnits_length_pos c
    have hne : (charUnits c).length + unitCount front ≠ 0 := by omega
    simp only [List.cons_append, takeUnits, unitCount_cons, hne, ite_false, Nat.add_sub_cancel_left]
    rw [ih]

theorem between_unitCount (front middle back : List Char) :
    between (unitCount front) (unitCount front + unitCount middle) (front ++ (middle ++ back)) =
      middle := by
  rw [between, Nat.add_sub_cancel_left, dropUnits_unitCount, takeUnits_unitCount]

end DeclarativeOptions.Text
