import DeclarativeOptions.Proofs.Evaluation.Parts
import DeclarativeOptions.Proofs.Value.Every

namespace DeclarativeOptions

namespace Value

-- What JSON has no value for, beside holes
def isLost : Value → Bool
  | undefined | capability _ => true
  | number value => !value.isFinite
  | _ => false

def hasJson : Value → Bool
  | array slots => slots.all Option.isSome
  | v => !v.isLost

-- Nothing is lost in JSON, and there are no holes
def isJson (v : Value) : Bool := v.every hasJson

mutual

-- The value with null in place of holes and of all that is lost
def inJson : Value → Value
  | array slots => array (slotsInJson slots)
  | object ⟨entries⟩ => object ⟨entriesInJson entries⟩
  | v => if v.isLost then null else v
termination_by structural v => v

def slotsInJson : List (Option Value) → List (Option Value)
  | [] => []
  | none :: rest => some null :: slotsInJson rest
  | some v :: rest => some (inJson v) :: slotsInJson rest
termination_by structural slots => slots

def entriesInJson : List (String × Value) → List (String × Value)
  | [] => []
  | (name, v) :: rest => (name, inJson v) :: entriesInJson rest
termination_by structural entries => entries

end

variable {slots : List (Option Value)} {entries : List (String × Value)} {v part : Value}

theorem slotsInJson_eq_map :
    slotsInJson slots = slots.map fun slot => some ((slot.map inJson).getD null) := by
  induction slots with
  | nil => rfl
  | cons slot rest ih => cases slot <;> simp [slotsInJson, ih]

theorem entriesInJson_eq_map :
    entriesInJson entries = entries.map fun entry => (entry.1, entry.2.inJson) := by
  induction entries with
  | nil => rfl
  | cons entry rest ih => simp [entriesInJson, ih]

private theorem names_entriesInJson : (entriesInJson entries).map (·.1) = entries.map (·.1) := by
  simp [entriesInJson_eq_map]

private theorem get_entriesInJson (name : String) :
    (⟨entriesInJson entries⟩ : Fields Value).get? name =
    ((⟨entries⟩ : Fields Value).get? name).map inJson := by
  rw [entriesInJson_eq_map, Fields.get?, Fields.get?, List.find?_map, Option.map_map,
    Option.map_map]
  rfl

mutual

-- What JSON holds as it is, and nothing else, stays as it is
theorem inJson_eq_self_iff : (v : Value) → (v.inJson = v ↔ v.isJson = true)
  | undefined | null | boolean _ | string _ | capability _ => by
    simp [inJson, isJson, every, hasJson, isLost]
  | number value => by
    cases h : value.isFinite <;> simp [inJson, isJson, every, hasJson, isLost, h]
  | array slots => by
    rw [inJson, isJson, every, array.injEq, slotsInJson_eq_self_iff slots, Bool.and_eq_true]
    rfl
  | object ⟨entries⟩ => by
    rw [inJson, isJson, every, object.injEq, Fields.mk.injEq, entriesInJson_eq_self_iff entries]
    rfl

theorem slotsInJson_eq_self_iff : (slots : List (Option Value)) →
    (slotsInJson slots = slots ↔ slots.all Option.isSome = true ∧ slotsEvery hasJson slots = true)
  | [] => by simp [slotsInJson, slotsEvery]
  | none :: rest => by simp [slotsInJson]
  | some v :: rest => by
    have hv : v.every hasJson = v.isJson := rfl
    rw [slotsInJson, List.cons.injEq, Option.some.injEq, inJson_eq_self_iff v,
      slotsInJson_eq_self_iff rest, slotsEvery, hv]
    simp [and_left_comm]

theorem entriesInJson_eq_self_iff : (entries : List (String × Value)) →
    (entriesInJson entries = entries ↔ entriesEvery hasJson entries = true)
  | [] => by simp [entriesInJson, entriesEvery]
  | (name, v) :: rest => by
    have hv : v.every hasJson = v.isJson := rfl
    rw [entriesInJson, List.cons.injEq, Prod.mk.injEq, inJson_eq_self_iff v,
      entriesInJson_eq_self_iff rest, entriesEvery, hv]
    simp

end

mutual

theorem isJson_inJson : (v : Value) → v.inJson.isJson = true
  | undefined | null | boolean _ | string _ | capability _ => by
    simp [inJson, isJson, every, hasJson, isLost]
  | number value => by
    cases h : value.isFinite <;> simp [inJson, isJson, every, hasJson, isLost, h]
  | array slots => by
    have hslots : hasJson (array (slotsInJson slots)) = true := by
      simp [hasJson, slotsInJson_eq_map]
    rw [inJson, isJson, every, hslots, slotsEvery_slotsInJson slots]
    rfl
  | object ⟨entries⟩ => by
    rw [inJson, isJson, every, entriesEvery_entriesInJson entries]
    rfl

theorem slotsEvery_slotsInJson : (slots : List (Option Value)) →
    slotsEvery hasJson (slotsInJson slots) = true
  | [] => rfl
  | none :: rest => by
    rw [slotsInJson, slotsEvery, slotsEvery_slotsInJson rest]
    rfl
  | some v :: rest => by
    have hv : v.inJson.every hasJson = true := isJson_inJson v
    rw [slotsInJson, slotsEvery, hv, slotsEvery_slotsInJson rest]
    rfl

theorem entriesEvery_entriesInJson : (entries : List (String × Value)) →
    entriesEvery hasJson (entriesInJson entries) = true
  | [] => rfl
  | (name, v) :: rest => by
    have hv : v.inJson.every hasJson = true := isJson_inJson v
    rw [entriesInJson, entriesEvery, hv, entriesEvery_entriesInJson rest]
    rfl

end

-- What becomes of a part of a value, of arrays and objects without what is inside of them
inductive Becomes : Value → Value → Prop where
  | lost {v : Value} (h : v.isLost = true) : Becomes v null
  | null : Becomes null null
  | boolean (value : Bool) : Becomes (boolean value) (boolean value)
  | number {value : Number} (h : value.isFinite = true) : Becomes (number value) (number value)
  | string (text : String) : Becomes (string text) (string text)
  | array {slots slots' : List (Option Value)} (hlength : slots'.length = slots.length)
      (hhole : ∀ i : Nat, slots[i]? = some none → slots'[i]? = some (some Value.null)) :
      Becomes (array slots) (array slots')
  | object {fields fields' : Fields Value} (hkeys : fields'.keys = fields.keys) :
      Becomes (object fields) (object fields')

theorem becomes_inJson (v : Value) : v.Becomes v.inJson := by
  cases v with
  | undefined => exact .lost rfl
  | null => exact .null
  | boolean value => exact .boolean value
  | number value =>
    cases h : value.isFinite with
    | true =>
      have hsame : (Value.number value).inJson = .number value := by simp [inJson, isLost, h]
      rw [hsame]
      exact .number h
    | false =>
      have hlost : (Value.number value).inJson = .null := by simp [inJson, isLost, h]
      rw [hlost]
      exact .lost (by simp [isLost, h])
  | string text => exact .string text
  | array slots =>
    rw [inJson, slotsInJson_eq_map]
    exact .array (List.length_map _) fun i hi => by simp [hi]
  | object fields =>
    rw [inJson]
    exact .object names_entriesInJson
  | capability lent => exact .lost rfl

-- Places stay, and so does what is in them
theorem at_inJson {path : List Place} (h : v.at? path = some part) :
    v.inJson.at? path = some part.inJson := by
  induction path generalizing v with
  | nil =>
    obtain rfl := Option.some.inj h
    rfl
  | cons place rest ih =>
    cases place with
    | slot index =>
      cases v with
      | array slots =>
        obtain ⟨inner, hinner, h⟩ := Option.bind_eq_some_iff.mp h
        have hslot : (slotsInJson slots)[index]?.join = some inner.inJson := by
          rw [Option.join_eq_some_iff] at hinner ⊢
          simp [slotsInJson_eq_map, hinner]
        rw [inJson, at?, hslot]
        exact ih h
      | _ => simp [at?] at h
    | property name =>
      cases v with
      | object fields =>
        obtain ⟨entries⟩ := fields
        obtain ⟨inner, hinner, h⟩ := Option.bind_eq_some_iff.mp h
        have hfound : (⟨entriesInJson entries⟩ : Fields Value).get? name = some inner.inJson := by
          rw [get_entriesInJson, hinner, Option.map_some]
        rw [inJson, at?, hfound]
        exact ih h
      | _ => simp [at?] at h

end Value

namespace JsonValue

open Value

private theorem names_membersOfEntries {entries : List (String × Value)} :
    (membersOfEntries entries).map (·.1) = entries.map (·.1) := by
  induction entries with
  | nil => rfl
  | cons entry rest ih => simp [membersOfEntries, ih]

mutual

-- Where all names are different, both conversions keep every entry in its place
theorem toValue_ofValue_eq : (v : Value) → v.isKeyed = true → (ofValue v).toValue = v.inJson
  | .undefined, _ | .null, _ | .boolean _, _ | .string _, _ | .capability _, _ => rfl
  | .number value, _ => by
    cases h : value.isFinite <;> simp [ofValue, toValue, inJson, isLost, h]
  | .array slots, hkeyed => by
    rw [ofValue, toValue, inJson, itemsToSlots_itemsOfSlots slots hkeyed]
  | .object ⟨entries⟩, hkeyed => by
    rw [isKeyed, every, Bool.and_eq_true] at hkeyed
    obtain ⟨hnames, hentries⟩ := hkeyed
    have hnodup : (entries.map (·.1)).Nodup := of_decide_eq_true hnames
    have hmembers : ((membersOfEntries entries).map (·.1)).Nodup := by
      rwa [names_membersOfEntries]
    have hback : ((entriesInJson entries).map (·.1)).Nodup := by rwa [names_entriesInJson]
    rw [ofValue, Fields.ofList_of_nodup hmembers, toValue,
      membersToEntries_membersOfEntries entries hentries, Fields.ofList_of_nodup hback, inJson]

theorem itemsToSlots_itemsOfSlots : (slots : List (Option Value)) →
    slotsEvery hasDistinctNames slots = true → itemsToSlots (itemsOfSlots slots) = slotsInJson slots
  | [], _ => rfl
  | none :: rest, hkeyed => by
    rw [itemsOfSlots, itemsToSlots, slotsInJson, itemsToSlots_itemsOfSlots rest hkeyed, toValue]
  | some v :: rest, hkeyed => by
    rw [slotsEvery, Bool.and_eq_true] at hkeyed
    rw [itemsOfSlots, itemsToSlots, slotsInJson, toValue_ofValue_eq v hkeyed.1,
      itemsToSlots_itemsOfSlots rest hkeyed.2]

theorem membersToEntries_membersOfEntries : (entries : List (String × Value)) →
    entriesEvery hasDistinctNames entries = true →
    membersToEntries (membersOfEntries entries) = entriesInJson entries
  | [], _ => rfl
  | (name, v) :: rest, hkeyed => by
    rw [entriesEvery, Bool.and_eq_true] at hkeyed
    rw [membersOfEntries, membersToEntries, entriesInJson, toValue_ofValue_eq v hkeyed.1,
      membersToEntries_membersOfEntries rest hkeyed.2]

end

-- The first way there and back puts null in place of what JSON cannot hold and changes nothing
-- else, in no place of the value; the second one changes nothing at all
theorem toValue_ofValue (v : Value) (hkeyed : v.isKeyed = true) :
    let back := (ofValue v).toValue
    back = v.inJson ∧
    (∀ path part, v.at? path = some part →
      ∃ found, back.at? path = some found ∧ part.Becomes found) ∧
    (back = v ↔ v.isJson = true) ∧
    (ofValue back).toValue = back := by
  intro back
  have hback : back = v.inJson := toValue_ofValue_eq v hkeyed
  have hagain : (ofValue back).toValue = back.inJson :=
    toValue_ofValue_eq back (every_toValue innate_hasDistinctNames (ofValue v))
  refine ⟨hback, fun path part hpart => ?_, ?_, ?_⟩
  · exact ⟨part.inJson, hback ▸ at_inJson hpart, becomes_inJson part⟩
  · rw [hback, inJson_eq_self_iff]
  · rw [hagain, inJson_eq_self_iff, hback]
    exact isJson_inJson v

-- Every kind of loss next to a negative zero, and names that are not in alphabetical order
theorem toValue_ofValue_losses :
    let v : Value := .object ⟨[("b", .array [none, some .undefined, some (.number .nan),
      some (.number (.signed true .zero)), some (.capability (.function 3))]),
      ("a", .object ⟨[("x", .number (.signed true .infinity)), ("y", .string "q")]⟩)]⟩
    v.isKeyed = true ∧ (ofValue v).toValue =
      .object ⟨[("b", .array [some .null, some .null, some .null,
        some (.number (.signed true .zero)), some .null]),
        ("a", .object ⟨[("x", .null), ("y", .string "q")]⟩)]⟩ := by
  intro v
  have hkeyed : v.isKeyed = true := by decide
  exact ⟨hkeyed, (toValue_ofValue v hkeyed).1.trans rfl⟩

end JsonValue

end DeclarativeOptions
