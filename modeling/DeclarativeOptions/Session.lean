import DeclarativeOptions.Evaluation

namespace DeclarativeOptions

-- What a function of the host does with its argument
abbrev HostFunction := String → Except HostError Value

-- A host over time: it defines functions and global objects, approves some of them, and evaluates
-- records. Every definition makes a new capability, whatever it is named elsewhere.
structure Session where
  -- The functions and the global objects in the order of their definition
  functions : List HostFunction
  globals : List Scope
  approvals : Approvals

namespace Session

def start : Session := ⟨[], [], .empty⟩

def host (s : Session) : Host where
  call function argument :=
    match s.functions[function]? with
    | some f => f argument
    | none => .ok .undefined
  lookup identity name := (s.globals[identity]?).bind (· name)

-- Defines a function, and tells the session that knows it and its identity
def define (s : Session) (f : HostFunction) : Session × Nat :=
  ({ s with functions := s.functions ++ [f] }, s.functions.length)

-- Marks a value as supported
def mark (s : Session) (v : Value) : Session := { s with approvals := s.approvals.mark v }

-- Defines a function that is supported from the start
def defineSupported (s : Session) (f : HostFunction) : Session × Nat :=
  let (defined, function) := s.define f
  (defined.mark (.capability (.function function)), function)

-- Defines a global object over a scope
def defineGlobal (s : Session) (scope : Scope) : Session × Nat :=
  ({ s with globals := s.globals ++ [scope] }, s.globals.length)

-- Defines a global object of its own identity that has the properties of another one
def wrapGlobal (s : Session) (identity : Nat) : Session × Nat :=
  s.defineGlobal (s.host.lookup identity)

def supports (s : Session) (v : Value) : Bool := s.approvals.supports v

def environment (s : Session) (scopes : Scopes) : Environment := ⟨s.host, s.approvals, scopes⟩

-- Calls a function directly; what it answers is not held back
def call (s : Session) (function : Nat) (argument : String) : Traced Value :=
  ⟨[⟨function, argument⟩], (s.host.call function argument).mapError EvalError.host⟩

end Session

end DeclarativeOptions
