import DeclarativeOptions.Value

namespace DeclarativeOptions

-- The value that a name is bound to, if it is bound
abbrev Scope := String → Option Value

-- Why a function of the host failed, in its own words
structure HostError where
  text : String
deriving DecidableEq

-- What the host answers to a call of one of its functions with one argument, and to a read of a
-- property of one of its global objects
structure Host where
  call : Nat → String → Except HostError Value
  lookup : Nat → Scope

namespace Host

-- A host that lends nothing out
def idle : Host := ⟨fun _ _ => .ok .undefined, fun _ _ => none⟩

end Host

-- The bindings of one evaluation. A name is looked up in the locals and then in the globals, and
-- the target of a call in the functions only.
structure Scopes where
  locals : Scope := fun _ => none
  globals : Scope := fun _ => none
  functions : String → Option Nat := fun _ => none

namespace Scopes

def empty : Scopes := {}

-- The value of a name; a name that is not bound is undefined
def resolve (scopes : Scopes) (name : String) : Value :=
  ((scopes.locals name).or (scopes.globals name)).getD .undefined

end Scopes

-- The scope of a map
def Fields.scope (fields : Fields Value) : Scope := fields.get?

end DeclarativeOptions
