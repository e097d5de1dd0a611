import DeclarativeOptions.Json
import DeclarativeOptions.Json.Token

namespace DeclarativeOptions.JsonReader

-- Arrays and objects that may be open at once
def maxDepth : Nat := 127

-- A container whose next value is being read; items are listed from the end
inductive Frame where
  | array (items : List JsonValue)
  | object (members : Fields JsonValue) (name : String)

-- What has been read last
inductive Mode where
  -- A value has to follow
  | value
  -- An array has just been opened
  | opened
  -- An object has just been opened
  | openedObject
  -- A comma in an object
  | member (members : Fields JsonValue)
  -- The name of a member
  | named (members : Fields JsonValue) (name : String)
  -- A complete value
  | after (value : JsonValue)

structure State where
  mode : Mode
  frames : List Frame

-- The first token of a value inside of the given containers
def startValue? (frames : List Frame) : JsonToken → Option State
  | .null => some ⟨.after .null, frames⟩
  | .boolean value => some ⟨.after (.boolean value), frames⟩
  | .number value => some ⟨.after (.number value), frames⟩
  | .string text => some ⟨.after (.string text), frames⟩
  | .leftBracket =>
    if frames.length < maxDepth then some ⟨.opened, .array [] :: frames⟩ else none
  | .leftBrace => if frames.length < maxDepth then some ⟨.openedObject, frames⟩ else none
  | _ => none

-- The token behind a complete value inside of the given containers
def endValue? (value : JsonValue) (frames : List Frame) (t : JsonToken) : Option State :=
  match frames, t with
  | .array items :: outer, .comma => some ⟨.value, .array (value :: items) :: outer⟩
  | .array items :: outer, .rightBracket =>
    some ⟨.after (.array (value :: items).reverse), outer⟩
  | .object members name :: outer, .comma => some ⟨.member (members.insert name value), outer⟩
  | .object members name :: outer, .rightBrace =>
    some ⟨.after (.object (members.insert name value)), outer⟩
  | _, _ => none

def State.step? (s : State) (t : JsonToken) : Option State :=
  match s.mode, t, s.frames with
  | .value, t, frames => startValue? frames t
  | .opened, .rightBracket, _ :: outer => some ⟨.after (.array []), outer⟩
  | .opened, t, frames => startValue? frames t
  | .openedObject, .rightBrace, frames => some ⟨.after (.object .empty), frames⟩
  | .openedObject, .string name, frames => some ⟨.named .empty name, frames⟩
  | .member members, .string name, frames => some ⟨.named members name, frames⟩
  | .named members name, .colon, frames => some ⟨.value, .object members name :: frames⟩
  | .after value, t, frames => endValue? value frames t
  | _, _, _ => none

def State.complete? (s : State) : Option JsonValue :=
  match s.frames, s.mode with
  | [], .after value => some value
  | _, _ => none

def run (s : State) : List JsonToken → Option JsonValue
  | [] => s.complete?
  | t :: rest => (s.step? t).bind fun next => run next rest

end DeclarativeOptions.JsonReader

namespace DeclarativeOptions

-- The value that a JSON text writes, if it is one value and nothing behind it. Of the members of
-- one name the last one counts.
def JsonValue.parse? (text : String) : Option JsonValue :=
  (JsonToken.scan? text.toList).bind (JsonReader.run ⟨.value, []⟩)

end DeclarativeOptions
