import DeclarativeOptions.Fields
import Mathlib.Data.List.Nodup
import Mathlib.Tactic.SplitIfs

namespace DeclarativeOptions.Fields

variable {α : Type} {name : String} {value : α} {entry : String × α} {m : Fields α}
  {entries more history later : List (String × α)} {names : List String}

theorem insertInto_of_not_mem (h : name ∉ entries.map (·.1)) :
    insertInto name value entries = entries ++ [(name, value)] := by
  induction entries with
  | nil => rfl
  | cons entry entries ih =>
    simp only [List.map_cons, List.mem_cons, not_or] at h
    rw [insertInto, if_neg (Ne.symm h.1), ih h.2, List.cons_append]

private theorem foldl_insert_of_nodup (h : ((entries ++ more).map (·.1)).Nodup) :
    more.foldl (fun m entry => m.insert entry.1 entry.2) (⟨entries⟩ : Fields α) =
      ⟨entries ++ more⟩ := by
  induction more generalizing entries with
  | nil => simp
  | cons entry more ih =>
    have hnew : entry.1 ∉ entries.map (·.1) := by
      rw [List.map_append, List.map_cons, List.nodup_append'] at h
      exact fun hmem => h.2.2 hmem (List.mem_cons_self ..)
    rw [List.append_cons] at h
    rw [List.foldl_cons, insert, insertInto_of_not_mem hnew, ih h, ← List.append_cons]

theorem ofList_of_nodup (h : (entries.map (·.1)).Nodup) : ofList entries = ⟨entries⟩ :=
  foldl_insert_of_nodup h

theorem mem_insertInto (h : entry ∈ insertInto name value entries) :
    entry = (name, value) ∨ entry ∈ entries := by
  induction entries with
  | nil => exact .inl (List.mem_singleton.mp h)
  | cons first rest ih =>
    rw [insertInto] at h
    split at h
    · obtain rfl | h := List.mem_cons.mp h
      · exact .inl rfl
      · exact .inr (List.mem_cons_of_mem _ h)
    · obtain rfl | h := List.mem_cons.mp h
      · exact .inr (List.mem_cons_self ..)
      · exact (ih h).imp_right (List.mem_cons_of_mem _)

private theorem mem_foldl_insert {m : Fields α}
    (h : entry ∈ (entries.foldl (fun m entry => m.insert entry.1 entry.2) m).entries) :
    entry ∈ m.entries ∨ entry ∈ entries := by
  induction entries generalizing m with
  | nil => exact .inl h
  | cons first rest ih =>
    obtain h | h := ih h
    · obtain rfl | h := mem_insertInto h
      · exact .inr (List.mem_cons_self ..)
      · exact .inl h
    · exact .inr (List.mem_cons_of_mem _ h)

-- A map has no entries but those that it was made of
theorem mem_of_mem_ofList (h : entry ∈ (ofList entries).entries) : entry ∈ entries :=
  (mem_foldl_insert h).resolve_left List.not_mem_nil

theorem find_insertInto (other : String) :
    (insertInto name value entries).find? (fun entry => entry.1 == other) =
      if name = other then some (name, value) else entries.find? fun entry => entry.1 == other := by
  induction entries with
  | nil => by_cases h : name = other <;> simp [insertInto, h]
  | cons entry entries ih =>
    by_cases hentry : entry.1 = name
    · rw [insertInto, if_pos hentry]
      by_cases hother : name = other <;> simp [hentry, hother]
    · rw [insertInto, if_neg hentry]
      by_cases hother : entry.1 = other
      · have hne : name ≠ other := fun h => hentry (hother.trans h.symm)
        simp [hother, hne]
      · simp [hother, ih]

theorem get_insert (m : Fields α) (name : String) (value : α) (other : String) :
    (m.insert name value).get? other = if name = other then some value else m.get? other := by
  rw [get?, insert, find_insertInto]
  by_cases h : name = other <;> simp [h, get?]

theorem get_isSome : (m.get? name).isSome = true ↔ name ∈ m.keys := by
  simp [get?, keys]

theorem keys_insertInto : (insertInto name value entries).map (·.1) =
    if name ∈ entries.map (·.1) then entries.map (·.1) else entries.map (·.1) ++ [name] := by
  induction entries with
  | nil => rfl
  | cons entry entries ih =>
    by_cases hentry : entry.1 = name
    · simp [insertInto, hentry]
    · rw [insertInto, if_neg hentry, List.map_cons, ih, List.map_cons]
      by_cases hmem : name ∈ entries.map (·.1)
      · rw [if_pos hmem, if_pos (List.mem_cons_of_mem _ hmem)]
      · have hnew : name ∉ entry.1 :: entries.map (·.1) :=
          fun h => (List.mem_cons.mp h).elim (Ne.symm hentry) hmem
        rw [if_neg hmem, if_neg hnew, List.cons_append]

theorem keys_insert : (m.insert name value).keys =
    if name ∈ m.keys then m.keys else m.keys ++ [name] :=
  keys_insertInto

-- Where no name is repeated, the value is replaced in the one place of the name
theorem insertInto_of_getElem {i : Nat} (hnodup : (entries.map (·.1)).Nodup)
    (h : (entries.map (·.1))[i]? = some name) :
    insertInto name value entries = entries.set i (name, value) := by
  induction entries generalizing i with
  | nil => simp at h
  | cons entry entries ih =>
    rw [List.map_cons, List.nodup_cons] at hnodup
    cases i with
    | zero =>
      have hname : entry.1 = name := Option.some.inj h
      rw [insertInto, if_pos hname, List.set_cons_zero]
    | succ i =>
      rw [List.map_cons, List.getElem?_cons_succ] at h
      have hname : entry.1 ≠ name := by
        rintro rfl
        exact hnodup.1 (List.mem_of_getElem? h)
      rw [insertInto, if_neg hname, List.set_cons_succ, ih hnodup.2 h]

-- The entries can be told from the names and from what is found under them
theorem toList_eq_filterMap (h : m.keys.Nodup) :
    m.toList = m.keys.filterMap fun name => (m.get? name).map (name, ·) := by
  obtain ⟨entries⟩ := m
  induction entries with
  | nil => rfl
  | cons entry entries ih =>
    have hnodup : (entry.1 :: entries.map (·.1)).Nodup := h
    have hfirst : (⟨entry :: entries⟩ : Fields α).get? entry.1 = some entry.2 := by simp [get?]
    have hrest : ∀ name ∈ entries.map (·.1),
        (⟨entry :: entries⟩ : Fields α).get? name = (⟨entries⟩ : Fields α).get? name := by
      intro name hname
      have hne : entry.1 ≠ name := by
        rintro rfl
        exact (List.nodup_cons.mp hnodup).1 hname
      simp [get?, hne]
    have hcongr := List.filterMap_congr fun name hname =>
      congrArg (Option.map (name, ·)) (hrest name hname)
    calc entry :: entries
      _ = entry :: (entries.map (·.1)).filterMap fun name =>
          ((⟨entries⟩ : Fields α).get? name).map (name, ·) :=
        congrArg (entry :: ·) (ih (List.nodup_cons.mp hnodup).2)
      _ = (entry.1 :: entries.map (·.1)).filterMap fun name =>
          ((⟨entry :: entries⟩ : Fields α).get? name).map (name, ·) := by
        rw [List.filterMap_cons, hfirst, ← hcongr]
        rfl

-- Inserts entries one after the other, and tells what each of them has replaced
def insertAll (m : Fields α) : List (String × α) → List (Option α) × Fields α
  | [] => ([], m)
  | (name, value) :: rest =>
    let (old, next) := m.getThenInsert name value
    let (olds, last) := next.insertAll rest
    (old :: olds, last)

-- The value that was inserted last under a name
def lastValue (history : List (String × α)) (name : String) : Option α :=
  (history.reverse.find? fun entry => entry.1 == name).map (·.2)

private theorem lastValue_concat (other : String) : lastValue (history ++ [(name, value)]) other =
    if name = other then some value else lastValue history other := by
  by_cases h : name = other <;> simp [lastValue, h]

private theorem eraseDups_concat : (names ++ [name]).eraseDups =
    if name ∈ names then names.eraseDups else names.eraseDups ++ [name] := by
  rw [List.eraseDups_append]
  by_cases h : name ∈ names
  · have hremove : [name].removeAll names = [] := by simpa [List.removeAll] using h
    rw [if_pos h, hremove, List.eraseDups_nil, List.append_nil]
  · have hremove : [name].removeAll names = [name] := by simpa [List.removeAll] using h
    rw [if_neg h, hremove, List.eraseDups_cons, List.filter_nil, List.eraseDups_nil]

-- What a map holds after a history of insertions: every name once, in the order in which they were
-- inserted first, each with the value that was inserted last
structure Holds (m : Fields α) (history : List (String × α)) : Prop where
  nodup : m.keys.Nodup
  keys : m.keys = (history.map (·.1)).eraseDups
  get : ∀ name, m.get? name = lastValue history name

theorem holds_empty : (empty : Fields α).Holds [] := ⟨.nil, rfl, fun _ => rfl⟩

theorem Holds.insert (h : m.Holds history) (name : String) (value : α) :
    (m.insert name value).Holds (history ++ [(name, value)]) where
  nodup := by
    rw [keys_insert]
    split_ifs with hname
    · exact h.nodup
    · exact List.concat_eq_append ▸ h.nodup.concat hname
  keys := by
    have hmem : name ∈ m.keys ↔ name ∈ history.map (·.1) := by rw [h.keys, List.mem_eraseDups]
    rw [keys_insert, List.map_append, List.map_singleton, eraseDups_concat, ← h.keys]
    simp only [hmem]
  get other := by rw [get_insert, lastValue_concat, h.get]

theorem Holds.insertAll (h : m.Holds history) (later : List (String × α)) :
    (m.insertAll later).2.Holds (history ++ later) := by
  induction later generalizing m history with
  | nil => rwa [List.append_nil]
  | cons entry later ih =>
    rw [List.append_cons]
    exact ih (h.insert entry.1 entry.2)

-- An insertion returns what its name has had just before
theorem Holds.replaced (h : m.Holds history) {i : Nat} (hentry : later[i]? = some (name, value)) :
    (m.insertAll later).1[i]? = some (lastValue (history ++ later.take i) name) := by
  induction later generalizing m history i with
  | nil => simp at hentry
  | cons entry later ih =>
    cases i with
    | zero =>
      obtain rfl := Option.some.inj hentry
      rw [List.take_zero, List.append_nil, ← h.get]
      rfl
    | succ i =>
      rw [List.take_succ_cons, List.append_cons]
      exact ih (h.insert entry.1 entry.2) hentry

theorem ofList_eq_insertAll (entries : List (String × α)) :
    ofList entries = (empty.insertAll entries).2 := by
  have hfold (m : Fields α) :
      entries.foldl (fun m entry => m.insert entry.1 entry.2) m = (m.insertAll entries).2 := by
    induction entries generalizing m with
    | nil => rfl
    | cons entry entries ih => exact ih _
  exact hfold empty

theorem holds_ofList (entries : List (String × α)) : (ofList entries).Holds entries := by
  have h := holds_empty.insertAll entries
  rwa [← ofList_eq_insertAll, List.nil_append] at h

-- Of the entries of one name the last one counts
theorem get_ofList (entries : List (String × α)) (name : String) :
    (ofList entries).get? name =
      (entries.reverse.find? fun entry => entry.1 == name).map (·.2) :=
  (holds_ofList entries).get name

-- A name keeps the place in which it first occurs
theorem keys_ofList (entries : List (String × α)) :
    (ofList entries).keys = (entries.map (·.1)).eraseDups :=
  (holds_ofList entries).keys

end DeclarativeOptions.Fields
