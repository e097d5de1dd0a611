import DeclarativeOptions.Json
import DeclarativeOptions.Proofs.Fields
import DeclarativeOptions.Property

namespace DeclarativeOptions

namespace Value

mutual

-- Whether something is so of a value and of every value inside of it
def every (p : Value → Bool) : Value → Bool
  | array slots => p (array slots) && slotsEvery p slots
  | object ⟨entries⟩ => p (object ⟨entries⟩) && entriesEvery p entries
  | v => p v
termination_by structural v => v

def slotsEvery (p : Value → Bool) : List (Option Value) → Bool
  | [] => true
  | none :: rest => slotsEvery p rest
  | some v :: rest => every p v && slotsEvery p rest
termination_by structural slots => slots

def entriesEvery (p : Value → Bool) : List (String × Value) → Bool
  | [] => true
  | (_, v) :: rest => every p v && entriesEvery p rest
termination_by structural entries => entries

end

-- No capabilities, at any depth
def isPlain (v : Value) : Bool := v.every fun part => !part.isCapability

def hasDistinctNames : Value → Bool
  | object fields => decide fields.keys.Nodup
  | _ => true

-- No two properties of one object have the same name, as in every map that is built by insertions
def isKeyed (v : Value) : Bool := v.every hasDistinctNames

-- What is so of all data but objects, and of every object that is built by insertions. Values are
-- made in no other way.
structure Innate (p : Value → Bool) : Prop where
  scalar (v : Value) (hobject : v.object? = none) (hcapability : v.capability? = none) : p v = true
  object (entries : List (String × Value)) : p (.object (.ofList entries)) = true

theorem innate_not_isCapability : Innate fun part => !part.isCapability where
  scalar v _ hcapability := by simp [isCapability, hcapability]
  object _ := rfl

theorem innate_hasDistinctNames : Innate hasDistinctNames where
  scalar v hobject _ := by
    cases v with
    | object fields => simp [object?] at hobject
    | _ => rfl
  object entries := decide_eq_true (Fields.holds_ofList entries).nodup

variable {p : Value → Bool} {host : Host} {name : String} {v w : Value}
  {slots : List (Option Value)} {fields : Fields Value} {entries : List (String × Value)}

theorem slotsEvery_iff : slotsEvery p slots = true ↔ ∀ v, some v ∈ slots → v.every p = true := by
  induction slots with
  | nil => simp [slotsEvery]
  | cons slot rest ih => cases slot <;> simp [slotsEvery, ih]

theorem entriesEvery_iff :
    entriesEvery p entries = true ↔ ∀ entry ∈ entries, entry.2.every p = true := by
  induction entries with
  | nil => simp [entriesEvery]
  | cons entry rest ih => simp [entriesEvery, ih]

theorem every_array (hp : Innate p) (h : slotsEvery p slots = true) :
    (array slots).every p = true := by
  rw [every, h, hp.scalar (array slots) rfl rfl]
  rfl

theorem every_ofList (hp : Innate p) (h : entriesEvery p entries = true) :
    (object (.ofList entries)).every p = true := by
  have hentries : entriesEvery p (Fields.ofList entries).entries = true :=
    entriesEvery_iff.mpr fun entry hentry =>
      entriesEvery_iff.mp h entry (Fields.mem_of_mem_ofList hentry)
  rw [every, hentries, hp.object entries]
  rfl

theorem every_of_get (h : (object fields).every p = true) (hget : fields.get? name = some v) :
    v.every p = true := by
  obtain ⟨entries⟩ := fields
  rw [every, Bool.and_eq_true] at h
  obtain ⟨entry, hentry, rfl⟩ := Option.map_eq_some_iff.mp hget
  exact entriesEvery_iff.mp h.2 entry (List.mem_of_find?_eq_some hentry)

private theorem every_slotProperty (hp : Innate p) (h : (array slots).every p = true) :
    (slotProperty slots name).every p = true := by
  rw [every, Bool.and_eq_true] at h
  unfold slotProperty
  split
  · exact hp.scalar _ rfl rfl
  · cases hslot : ((index? name).bind (slots[·]?)).bind id with
    | none => exact hp.scalar undefined rfl rfl
    | some v =>
      obtain ⟨slot, hslot, rfl⟩ := Option.bind_eq_some_iff.mp hslot
      obtain ⟨i, -, hi⟩ := Option.bind_eq_some_iff.mp hslot
      exact slotsEvery_iff.mp h.2 v (List.mem_of_getElem? hi)

private theorem every_unitProperty (hp : Innate p) (text : String) :
    (unitProperty text name).every p = true := by
  unfold unitProperty
  split
  · exact hp.scalar _ rfl rfl
  · split
    · exact hp.scalar _ rfl rfl
    · exact hp.scalar undefined rfl rfl

-- What is read out of a value is like the value, unless a global object holds something else
theorem every_property (hp : Innate p) (h : v.every p = true)
    (hlookup : ∀ identity found, p (.capability (.globalObject identity)) = true →
      host.lookup identity name = some found → found.every p = true)
    (hw : v.property host name = .ok w) : w.every p = true := by
  have hundefined : undefined.every p = true := hp.scalar undefined rfl rfl
  cases v with
  | undefined | null => simp [property] at hw
  | boolean _ | number _ =>
    obtain rfl := Except.ok.inj hw
    exact hundefined
  | string text =>
    obtain rfl := Except.ok.inj hw
    exact every_unitProperty hp text
  | array slots =>
    obtain rfl := Except.ok.inj hw
    exact every_slotProperty hp h
  | object fields =>
    obtain rfl := Except.ok.inj hw
    cases hget : fields.get? name with
    | none => exact hundefined
    | some found => exact every_of_get h hget
  | capability lent =>
    cases lent with
    | function _ =>
      obtain rfl := Except.ok.inj hw
      exact hundefined
    | globalObject identity =>
      obtain rfl := Except.ok.inj hw
      cases hfound : host.lookup identity name with
      | none => exact hundefined
      | some found => exact hlookup identity found h hfound

end Value

namespace JsonValue

open Value

variable {p : Value → Bool}

mutual

-- Nothing comes out of JSON but what is made of data by insertions
theorem every_toValue (hp : Innate p) : (j : JsonValue) → j.toValue.every p = true
  | null | boolean _ | number _ | string _ => hp.scalar _ rfl rfl
  | array items => every_array hp (slotsEvery_itemsToSlots hp items)
  | object ⟨members⟩ => every_ofList hp (entriesEvery_membersToEntries hp members)

theorem slotsEvery_itemsToSlots (hp : Innate p) : (items : List JsonValue) →
    slotsEvery p (itemsToSlots items) = true
  | [] => rfl
  | j :: rest => by
    rw [itemsToSlots, slotsEvery, every_toValue hp j, slotsEvery_itemsToSlots hp rest]
    rfl

theorem entriesEvery_membersToEntries (hp : Innate p) : (members : List (String × JsonValue)) →
    entriesEvery p (membersToEntries members) = true
  | [] => rfl
  | (_, j) :: rest => by
    rw [membersToEntries, entriesEvery, every_toValue hp j, entriesEvery_membersToEntries hp rest]
    rfl

end

end JsonValue

end DeclarativeOptions
