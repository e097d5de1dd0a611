import DeclarativeOptions.EvalError
import DeclarativeOptions.Text.Units

namespace DeclarativeOptions

-- The number that a name writes without a sign or a zero in front
def index? (name : String) : Option Nat :=
  let digits := name.toList
  let n := Nat.ofDigitChars 10 digits 0
  if digits.all Char.isDigit && Nat.toDigits 10 n == digits then some n else none

-- A slot of an array; a hole reads as undefined
def slotProperty (slots : List (Option Value)) (name : String) : Value :=
  if name = "length" then .number (.ofNat slots.length)
  else (((index? name).bind (slots[·]?)).bind id).getD .undefined

-- A UTF-16 unit of a string
def unitProperty (text : String) (name : String) : Value :=
  if name = "length" then .number (.ofNat (Text.unitCount text.toList))
  else match (index? name).bind ((Text.units text.toList)[·]?) with
    | some unit => .string (String.singleton (Text.unitChar unit))
    | none => .undefined

-- Arrays and strings have a length and indexed parts, objects and global objects have what they
-- hold, and only undefined and null have no properties at all
def Value.property (host : Host) (name : String) : Value → Except Receiver Value
  | .undefined => .error .undefined
  | .null => .error .null
  | .boolean _ | .number _ => .ok .undefined
  | .string text => .ok (unitProperty text name)
  | .array slots => .ok (slotProperty slots name)
  | .object fields => .ok ((fields.get? name).getD .undefined)
  | .capability (.function _) => .ok .undefined
  | .capability (.globalObject identity) => .ok ((host.lookup identity name).getD .undefined)

end DeclarativeOptions
