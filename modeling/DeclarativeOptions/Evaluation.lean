import DeclarativeOptions.Approvals
import DeclarativeOptions.Evaluation.Traced
import DeclarativeOptions.Parser
import DeclarativeOptions.Property

namespace DeclarativeOptions

-- What an evaluation takes from its surroundings
structure Environment where
  host : Host
  approvals : Approvals
  scopes : Scopes

namespace Environment

-- The value of the head of a chain. A call whose target is not bound is undefined.
def head (env : Environment) : Head → Traced Value
  | .identifier name => pure (env.scopes.resolve name)
  | .call target argument =>
    match env.scopes.functions target with
    | some function =>
      ⟨[⟨function, argument⟩], (env.host.call function argument).mapError EvalError.host⟩
    | none => pure .undefined

-- Reads on from the value of a chain
def reads (env : Environment) (chain : Access) (value : Value) :
    List Accessor → Except PropertyAccessError Value
  | [] => .ok value
  | read :: rest =>
    match value.property env.host read.key with
    | .ok next => env.reads (chain.push read) next rest
    | .error receiver => .error ⟨read.key, receiver, chain.path⟩

-- What a chain leads to, approved or not
def reach (env : Environment) (chain : Access) : Traced Value :=
  (env.head chain.head).andThen fun value =>
    .ofExcept ((env.reads ⟨chain.head, []⟩ value chain.tail).mapError EvalError.propertyAccess)

-- The value of a chain
def access (env : Environment) (chain : Access) : Traced Value :=
  (env.reach chain).andThen fun value =>
    .ofExcept ((env.approvals.requireAt chain.path value).mapError EvalError.security)

mutual

-- Parts are evaluated from left to right up to the first failure. A chain may read through any
-- value, but what it ends on is released only if it is data or approved.
def evaluate (env : Environment) : Expr → Traced Value
  | .null => pure .null
  | .boolean value => pure (.boolean value)
  | .number value => pure (.number value)
  | .string text => pure (.string text)
  | .array slots =>
    (env.evaluateSlots slots).andThen fun values => pure (.array values)
  | .object pairs =>
    (env.evaluatePairs pairs).andThen fun values => pure (.object (.ofList values))
  | .access chain => env.access chain
termination_by structural e => e

def evaluateSlots (env : Environment) : List (Option Expr) → Traced (List (Option Value))
  | [] => pure []
  | none :: rest =>
    (env.evaluateSlots rest).andThen fun values => pure (none :: values)
  | some e :: rest =>
    (env.evaluate e).andThen fun value =>
      (env.evaluateSlots rest).andThen fun values => pure (some value :: values)
termination_by structural slots => slots

def evaluatePairs (env : Environment) : List (String × Expr) → Traced (List (String × Value))
  | [] => pure []
  | (key, e) :: rest =>
    (env.evaluate e).andThen fun value =>
      (env.evaluatePairs rest).andThen fun values => pure ((key, value) :: values)
termination_by structural pairs => pairs

end

-- The value of a text
def evaluateText (env : Environment) (text : String) : List Call × Except RecordError Value :=
  match Expr.parse text with
  | .ok e =>
    let outcome := env.evaluate e
    (outcome.calls, outcome.result.mapError RecordError.evaluation)
  | .error e => ([], .error (.malformed e))

end Environment

end DeclarativeOptions
