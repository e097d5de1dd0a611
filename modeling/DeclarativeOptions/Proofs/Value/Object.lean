import DeclarativeOptions.Proofs.Fields
import DeclarativeOptions.Scope
import Mathlib.Data.List.Forall2

namespace DeclarativeOptions

theorem Value.entriesEqual_iff {a b : List (String × Value)} : entriesEqual a b = true ↔
    List.Forall₂ (fun entry other => entry.1 = other.1 ∧ entry.2.equal other.2 = true) a b := by
  induction a generalizing b with
  | nil => cases b <;> simp [entriesEqual]
  | cons entry a ih =>
    cases b with
    | nil => simp [entriesEqual]
    | cons other b =>
      rw [entriesEqual, List.forall₂_cons, ← ih]
      simp

namespace Fields

variable {name : String} {value : Value} {m : Fields Value} {history : List (String × Value)}

-- What is seen of a map from outside, after a history of insertions
structure Shows (m : Fields Value) (history : List (String × Value)) : Prop where
  lookup : ∀ name, m.scope name = lastValue history name
  contains : ∀ name, m.contains name = true ↔ name ∈ history.map (·.1)
  size : m.size = m.keys.length
  isEmpty : m.isEmpty = true ↔ history = []
  -- What is iterated over and what is drained
  toList : m.toList = m.keys.filterMap fun name => (lastValue history name).map (name, ·)

theorem Holds.shows (h : m.Holds history) : m.Shows history where
  lookup := h.get
  contains name := by
    rw [contains, get_isSome, h.keys, List.mem_eraseDups]
  size := (List.length_map _).symm
  isEmpty := by
    have hkeys : m.isEmpty = true ↔ m.keys = [] := by simp [Fields.isEmpty, Fields.keys]
    rw [hkeys, h.keys]
    cases history with
    | nil => simp
    | cons entry history => simp [List.eraseDups_cons]
  toList := by
    simp only [toList_eq_filterMap h.nodup, h.get]

-- What an insertion changes: the value in the place of the name, or else the end
structure Inserts (m : Fields Value) (name : String) (value : Value) (after : Fields Value) :
    Prop where
  replaces : ∀ i, m.keys[i]? = some name → after.toList = m.toList.set i (name, value)
  appends : name ∉ m.keys → after.toList = m.toList ++ [(name, value)]

theorem Holds.inserts (h : m.Holds history) (name : String) (value : Value) :
    m.Inserts name value (m.getThenInsert name value).2 where
  replaces _ hi := insertInto_of_getElem h.nodup hi
  appends hnew := insertInto_of_not_mem hnew

-- A name keeps its place and has the value inserted last, an insertion returns what it replaces, and
-- equality is that of the entries
theorem insertAll_is_ordered_map (pairs later : List (String × Value)) :
    let run := (ofList pairs).insertAll later
    let m := run.2
    m.Holds (pairs ++ later) ∧ m.Shows (pairs ++ later) ∧
    (∀ i name value, later[i]? = some (name, value) →
      run.1[i]? = some (lastValue (pairs ++ later.take i) name)) ∧
    (∀ name value, m.Inserts name value (m.getThenInsert name value).2) ∧
    ∀ pairs' later',
      let n := ((ofList pairs').insertAll later').2
      (Value.object m).equal (.object n) = true ↔
        List.Forall₂ (fun entry other => entry.1 = other.1 ∧ entry.2.equal other.2 = true)
          m.toList n.toList := by
  intro run m
  have hpairs := holds_ofList pairs
  have hholds : m.Holds (pairs ++ later) := hpairs.insertAll later
  refine ⟨hholds, hholds.shows, fun i name value hentry => hpairs.replaced hentry, hholds.inserts,
    fun pairs' later' => ?_⟩
  exact Value.entriesEqual_iff

-- The second value of `a` takes the place of the first one, and the first one is returned
example : ((ofList [("a", 1), ("b", 2)] : Fields Nat).insertAll [("a", 3), ("c", 4)]) =
    ([some 1, none], ⟨[("a", 3), ("b", 2), ("c", 4)]⟩) := rfl

end Fields

end DeclarativeOptions
