import DeclarativeOptions.EvalError

namespace DeclarativeOptions

-- A function of the host and the argument it was called with
structure Call where
  function : Nat
  argument : String
deriving DecidableEq

-- A computation that calls functions of the host and may fail. The calls are kept in order, those
-- before a failure included.
structure Traced (α : Type) where
  calls : List Call
  result : Except EvalError α

namespace Traced

def ofExcept {α : Type} (result : Except EvalError α) : Traced α := ⟨[], result⟩

-- Runs the first computation, and the second one unless the first has failed
def andThen {α β : Type} (x : Traced α) (f : α → Traced β) : Traced β :=
  match x.result with
  | .ok a =>
    let next := f a
    ⟨x.calls ++ next.calls, next.result⟩
  | .error e => ⟨x.calls, .error e⟩

instance : Monad Traced where
  pure a := ⟨[], .ok a⟩
  bind := andThen

end Traced

end DeclarativeOptions
