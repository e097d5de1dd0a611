import DeclarativeOptions.Fields
import DeclarativeOptions.Number.Rounding

namespace DeclarativeOptions

-- What the host lends out, told apart by identity: two of them are the same only if they were
-- made by the same definition
inductive Capability where
  | function (identity : Nat)
  | globalObject (identity : Nat)
deriving DecidableEq

-- An array slot without a value is a hole
inductive Value where
  | undefined
  | null
  | boolean (value : Bool)
  | number (value : Number)
  | string (text : String)
  | array (slots : List (Option Value))
  | object (fields : Fields Value)
  | capability (lent : Capability)

namespace Capability

def typeName : Capability → String
  | function _ => "function"
  | globalObject _ => "global object"

end Capability

namespace Value

def typeName : Value → String
  | undefined => "undefined"
  | null => "null"
  | boolean _ => "boolean"
  | number _ => "number"
  | string _ => "string"
  | array _ => "array"
  | object _ => "object"
  | capability lent => lent.typeName

def isUndefined : Value → Bool
  | undefined => true
  | _ => false

def capability? : Value → Option Capability
  | capability lent => some lent
  | _ => none

def isCapability (v : Value) : Bool := v.capability?.isSome

def string? : Value → Option String
  | string text => some text
  | _ => none

def number? : Value → Option Number
  | number value => some value
  | _ => none

def boolean? : Value → Option Bool
  | boolean value => some value
  | _ => none

def array? : Value → Option (List (Option Value))
  | array slots => some slots
  | _ => none

def object? : Value → Option (Fields Value)
  | object fields => some fields
  | _ => none

-- A property of an object; other values have none
def get? (v : Value) (name : String) : Option Value := v.object?.bind (·.get? name)

mutual

-- Equality of values: numbers are compared as numbers, a hole differs from every value, the order
-- of properties counts, and capabilities are equal by identity
def equal : Value → Value → Bool
  | undefined, undefined => true
  | null, null => true
  | boolean a, boolean b => a == b
  | number a, number b => a.equal b
  | string a, string b => a == b
  | array a, array b => slotsEqual a b
  | object ⟨a⟩, object ⟨b⟩ => entriesEqual a b
  | capability a, capability b => a == b
  | _, _ => false
termination_by structural v => v

def slotsEqual : List (Option Value) → List (Option Value) → Bool
  | [], [] => true
  | none :: a, none :: b => slotsEqual a b
  | some v :: a, some w :: b => equal v w && slotsEqual a b
  | _, _ => false
termination_by structural slots => slots

def entriesEqual : List (String × Value) → List (String × Value) → Bool
  | [], [] => true
  | (k, v) :: a, (l, w) :: b => k == l && equal v w && entriesEqual a b
  | _, _ => false
termination_by structural entries => entries

end

end Value

end DeclarativeOptions
