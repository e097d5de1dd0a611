import DeclarativeOptions.Evaluation
import DeclarativeOptions.Json.Reader

namespace DeclarativeOptions

structure CheckOptions where
  record : String
  -- JSON objects that bind names
  locals : Option String := none
  globals : Option String := none
  -- Variables that bind names when there are no other globals
  processEnv : Option (String → Option String) := none
  -- A JSON object in which the function `select` looks up its argument
  elements : Option String := none
  syntaxOnly : Bool := false

inductive CheckResult where
  | validSyntax
  | success (value : Value)

-- Why a command has no result
inductive CommandError where
  | record (e : RecordError)
  | json
  -- A scope of the named type, which is not an object
  | invalidScope (typeName : String)
  | io (text : String)
  | noInput

def CommandError.message : CommandError → String
  | record e => e.message
  | json => "Invalid JSON: not a JSON text"
  | invalidScope typeName => "Scope must be a JSON object, got " ++ typeName
  | io text => "IO error: " ++ text
  | noInput => "No input provided. Pass a record or pipe one to stdin."

-- The scope that a JSON text binds, as the given reader of JSON has it
def scopeOf (read : String → Option JsonValue) (text : String) :
    Except CommandError (Fields Value) :=
  match read text with
  | none => .error .json
  | some j =>
    match j.toValue with
    | .object fields => .ok fields
    | other => .error (.invalidScope other.typeName)

def scopeOf? (read : String → Option JsonValue) :
    Option String → Except CommandError (Option (Fields Value))
  | none => .ok none
  | some text => (scopeOf read text).map some

def scopeOfJson (text : String) : Except CommandError (Fields Value) :=
  scopeOf JsonValue.parse? text

-- The host of a check, whose only function looks up an element; one that is missing is null
def elementHost (elements : Fields Value) : Host where
  call _ argument := .ok ((elements.get? argument).getD .null)
  lookup _ _ := none

def checkEnvironment (approvals : Approvals) (locals globals elements : Option (Fields Value))
    (processEnv : Option (String → Option String)) : Environment where
  host := elementHost (elements.getD .empty)
  approvals
  scopes :=
    { locals := (locals.getD .empty).get?
      globals := match globals, processEnv with
        | some fields, _ => fields.get?
        | none, some lookup => fun name => (lookup name).map .string
        | none, none => fun _ => none
      functions := fun name => if elements.isSome && name == "select" then some 0 else none }

-- A check with a reader of JSON, in a process that has approved what it has. The syntax of the
-- record comes first, then the texts of the scopes in their order, then the evaluation.
def checkWith (read : String → Option JsonValue) (approvals : Approvals) (options : CheckOptions) :
    Except CommandError CheckResult :=
  match Expr.parse options.record with
  | .error e => .error (.record (.malformed e))
  | .ok e =>
    if options.syntaxOnly then .ok .validSyntax
    else do
      let locals ← scopeOf? read options.locals
      let globals ← scopeOf? read options.globals
      let elements ← scopeOf? read options.elements
      let env := checkEnvironment approvals locals globals elements options.processEnv
      match (env.evaluate e).result with
      | .ok value => .ok (.success value)
      | .error e => .error (.record (.evaluation e))

-- The check of a new process
def check (options : CheckOptions) : Except CommandError CheckResult :=
  checkWith JsonValue.parse? .empty options

end DeclarativeOptions
