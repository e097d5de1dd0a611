import DeclarativeOptions.EvalError

namespace DeclarativeOptions

-- The capabilities that the host lets out into results. Data needs no approval, and an approval is
-- never taken back.
structure Approvals where
  approved : List Capability

namespace Approvals

def empty : Approvals := ⟨[]⟩

-- Approves a function or a global object; data is left as it is
def mark (approvals : Approvals) (v : Value) : Approvals :=
  match v.capability? with
  | some lent => ⟨lent :: approvals.approved⟩
  | none => approvals

-- Whether a value may be part of a result
def supports (approvals : Approvals) (v : Value) : Bool :=
  match v.capability? with
  | some lent => approvals.approved.contains lent
  | none => true

-- Lets a supported value pass, and names the given path otherwise
def requireAt (approvals : Approvals) (path : String) (v : Value) :
    Except SecurityViolation Value :=
  match v.capability? with
  | some lent => if approvals.approved.contains lent then .ok v else .error ⟨path, lent⟩
  | none => .ok v

-- Lets a supported value pass, and names its type otherwise
def require (approvals : Approvals) (v : Value) : Except SecurityViolation Value :=
  approvals.requireAt v.typeName v

end Approvals

end DeclarativeOptions
