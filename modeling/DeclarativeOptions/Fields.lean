namespace DeclarativeOptions

-- A map from names to values that keeps its names in the order of first insertion. Inserting a name
-- that is present replaces its value in place.
structure Fields (α : Type) where
  entries : List (String × α)

namespace Fields

variable {α : Type}

def empty : Fields α := ⟨[]⟩

def get? (m : Fields α) (name : String) : Option α :=
  (m.entries.find? fun entry => entry.1 == name).map (·.2)

def contains (m : Fields α) (name : String) : Bool := (m.get? name).isSome

def size (m : Fields α) : Nat := m.entries.length

def isEmpty (m : Fields α) : Bool := m.entries.isEmpty

def keys (m : Fields α) : List String := m.entries.map (·.1)

def toList (m : Fields α) : List (String × α) := m.entries

-- Replaces the value of the first entry of a name, or adds an entry at the end
def insertInto (name : String) (value : α) : List (String × α) → List (String × α)
  | [] => [(name, value)]
  | entry :: rest =>
    if entry.1 = name then (name, value) :: rest else entry :: insertInto name value rest

def insert (m : Fields α) (name : String) (value : α) : Fields α :=
  ⟨insertInto name value m.entries⟩

-- The value that a name had, and the map in which it has another one
def getThenInsert (m : Fields α) (name : String) (value : α) : Option α × Fields α :=
  (m.get? name, m.insert name value)

-- Inserts the entries one after the other
def ofList (entries : List (String × α)) : Fields α :=
  entries.foldl (fun m entry => m.insert entry.1 entry.2) empty

end Fields

end DeclarativeOptions
