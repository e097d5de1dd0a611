import DeclarativeOptions.Session

namespace DeclarativeOptions.Session

-- What a host may do in a session. Functions of the host answer with a value or a failure, and do
-- nothing else.
inductive Operation where
  | define (f : HostFunction)
  | defineSupported (f : HostFunction)
  | defineGlobal (scope : Scope)
  -- Defines a global object that has the properties of the one with the identity
  | wrapGlobal (identity : Nat)
  | mark (v : Value)
  | supports (v : Value)
  | require (v : Value)
  | requireAt (path : String) (v : Value)
  | evaluate (scopes : Scopes) (e : Expr)
  | evaluateText (scopes : Scopes) (text : String)
  | call (function : Nat) (argument : String)

inductive Answer where
  -- The capability that has been made
  | defined (lent : Capability)
  | marked
  | supports (answer : Bool)
  -- The functions that were called, and a value unless something failed
  | outcome (calls : List Call) (result : Except RecordError Value)

def Answer.ofTraced (x : Traced Value) : Answer :=
  .outcome x.calls (x.result.mapError RecordError.evaluation)

def Answer.ofRequired (result : Except SecurityViolation Value) : Answer :=
  .ofTraced (.ofExcept (result.mapError EvalError.security))

def perform (s : Session) : Operation → Session × Answer
  | .define f =>
    let (s, function) := s.define f
    (s, .defined (.function function))
  | .defineSupported f =>
    let (s, function) := s.defineSupported f
    (s, .defined (.function function))
  | .defineGlobal scope =>
    let (s, identity) := s.defineGlobal scope
    (s, .defined (.globalObject identity))
  | .wrapGlobal identity =>
    let (s, identity) := s.wrapGlobal identity
    (s, .defined (.globalObject identity))
  | .mark v => (s.mark v, .marked)
  | .supports v => (s, .supports (s.supports v))
  | .require v => (s, .ofRequired (s.approvals.require v))
  | .requireAt path v => (s, .ofRequired (s.approvals.requireAt path v))
  | .evaluate scopes e => (s, .ofTraced ((s.environment scopes).evaluate e))
  | .evaluateText scopes text =>
    let (calls, result) := (s.environment scopes).evaluateText text
    (s, .outcome calls result)
  | .call function argument => (s, .ofTraced (s.call function argument))

-- The session after operations have been performed one after the other
def after (s : Session) (ops : List Operation) : Session :=
  ops.foldl (fun s op => (s.perform op).1) s

end DeclarativeOptions.Session
