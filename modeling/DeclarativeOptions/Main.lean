import DeclarativeOptions.Command

namespace DeclarativeOptions.Command

def readAll (stream : IO.FS.Stream) : IO ByteArray := do
  let mut bytes := ByteArray.empty
  repeat
    let chunk ← stream.read 65536
    if chunk.isEmpty then break
    bytes := bytes ++ chunk
  return bytes

-- Standard input, read only when the arguments hold no record
def standardInput (args : List String) : IO Input := do
  match parse args with
  | .ok (_, ⟨none, _, _⟩) =>
    let stdin ← IO.getStdin
    if ← stdin.isTty then return .terminal
    return .piped (← readAll stdin)
  | _ => return .terminal

-- The variables of the process that a command may look up
def readProcessEnv (args : List String) (input : Input) : IO (List (String × String)) := do
  match parse args with
  | .ok (.check, given) =>
    match readRecord given.record input with
    | .ok record =>
      (names record).filterMapM fun name => return (← IO.getEnv name).map (name, ·)
    | .error _ => return []
  | _ => return []

end DeclarativeOptions.Command

open DeclarativeOptions.Command in
def main (args : List String) : IO UInt32 := do
  let input ← standardInput args
  let processEnv ← readProcessEnv args input
  let outcome := run args (fun name => List.lookup name processEnv) input
  IO.print outcome.output
  IO.eprint outcome.errors
  return UInt32.ofNat outcome.exitCode
