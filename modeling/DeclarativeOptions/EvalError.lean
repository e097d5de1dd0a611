import DeclarativeOptions.Scope
import DeclarativeOptions.SyntaxError

namespace DeclarativeOptions

-- The values that have no properties to read
inductive Receiver where
  | undefined
  | null
deriving DecidableEq

def Receiver.name : Receiver → String
  | undefined => "undefined"
  | null => "null"

structure PropertyAccessError where
  property : String
  receiver : Receiver
  -- The chain up to the receiver
  path : String
deriving DecidableEq

def PropertyAccessError.message (e : PropertyAccessError) : String :=
  "Unable to read property '" ++ e.property ++ "' of " ++ e.receiver.name ++ " value '" ++
    e.path ++ "'."

-- A capability that the host has not approved was the result of a chain
structure SecurityViolation where
  path : String
  lent : Capability
deriving DecidableEq

def SecurityViolation.message (e : SecurityViolation) : String :=
  "Value '" ++ e.path ++ "' is a " ++ e.lent.typeName ++
    " that has not been marked as supported for processing."

inductive EvalError where
  | propertyAccess (e : PropertyAccessError)
  | security (e : SecurityViolation)
  | host (e : HostError)
deriving DecidableEq

def EvalError.message : EvalError → String
  | propertyAccess e => e.message
  | security e => e.message
  | host e => e.text

-- Everything that keeps a text from having a value
inductive RecordError where
  | malformed (e : SyntaxError)
  | evaluation (e : EvalError)
deriving DecidableEq

def RecordError.message : RecordError → String
  | malformed e => e.message
  | evaluation e => e.message

end DeclarativeOptions
