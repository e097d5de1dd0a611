import DeclarativeOptions.Value

namespace DeclarativeOptions

inductive JsonValue where
  | null
  | boolean (value : Bool)
  | number (value : Number)
  | string (text : String)
  | array (items : List JsonValue)
  | object (members : Fields JsonValue)

namespace JsonValue

mutual

def toValue : JsonValue → Value
  | null => .null
  | boolean value => .boolean value
  | number value => .number value
  | string text => .string text
  | array items => .array (itemsToSlots items)
  | object ⟨members⟩ => .object (.ofList (membersToEntries members))
termination_by structural j => j

def itemsToSlots : List JsonValue → List (Option Value)
  | [] => []
  | j :: rest => some j.toValue :: itemsToSlots rest
termination_by structural items => items

def membersToEntries : List (String × JsonValue) → List (String × Value)
  | [] => []
  | (name, j) :: rest => (name, j.toValue) :: membersToEntries rest
termination_by structural members => members

end

mutual

-- JSON has no holes, nothing undefined, no capabilities, no NaN and no infinities; null stands in
-- for all of them
def ofValue : Value → JsonValue
  | .undefined | .null | .capability _ => .null
  | .boolean value => .boolean value
  | .number value => if value.isFinite then .number value else .null
  | .string text => .string text
  | .array slots => .array (itemsOfSlots slots)
  | .object ⟨entries⟩ => .object (.ofList (membersOfEntries entries))
termination_by structural v => v

def itemsOfSlots : List (Option Value) → List JsonValue
  | [] => []
  | none :: rest => .null :: itemsOfSlots rest
  | some v :: rest => ofValue v :: itemsOfSlots rest
termination_by structural slots => slots

def membersOfEntries : List (String × Value) → List (String × JsonValue)
  | [] => []
  | (name, v) :: rest => (name, ofValue v) :: membersOfEntries rest
termination_by structural entries => entries

end

end JsonValue

end DeclarativeOptions
