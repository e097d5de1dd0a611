import DeclarativeOptions.Check
import DeclarativeOptions.Command.Arguments
import DeclarativeOptions.Json.Printer
import DeclarativeOptions.Listing
import DeclarativeOptions.Outline
import DeclarativeOptions.Value.Literal

namespace DeclarativeOptions.Command

-- Standard input: a terminal, from which nothing is read, or what was piped in
inductive Input where
  | terminal
  | piped (bytes : ByteArray)

-- How a command ends and what it prints
structure Outcome where
  exitCode : Nat
  output : String
  errors : String
deriving DecidableEq

def trimEnd (text : String) : String :=
  String.ofList (text.toList.reverse.dropWhile Text.isWhitespace).reverse

-- The record that was given as an argument, or else the one that was piped in
def readRecord (given : Option String) (input : Input) : Except CommandError String :=
  match given, input with
  | some text, _ => .ok text
  | none, .terminal => .error .noInput
  | none, .piped bytes =>
    match String.fromUTF8? bytes with
    | some text => .ok (trimEnd text)
    | none => .error (.io "stream did not contain valid UTF-8")

-- The text of a value, as JSON or in the notation
def valueText (json : Bool) (layout : Layout) (v : Value) : String :=
  if json then (JsonValue.ofValue v).text layout else v.literal layout

def runCheck (given : Given) (processEnv : String → Option String) (record : String) :
    Except CommandError String := do
  let result ← check
    { record
      locals := given.setting? .scope
      globals := given.setting? .global
      processEnv := if given.has .env then some processEnv else none
      elements := given.setting? .elements
      syntaxOnly := given.has .syntaxOnly }
  match result with
  | .validSyntax => return "Syntax is valid"
  | .success v =>
    return valueText (given.has .json) (if given.has .pretty then .pretty else .compact) v

def runOutline (record : String) : Except CommandError String :=
  match Expr.parse record with
  | .ok e => .ok (e.outline.text 0)
  | .error e => .error (.record (.malformed e))

def runSubcommand (sub : Subcommand) (given : Given) (processEnv : String → Option String)
    (input : Input) : Except CommandError String := do
  let record ← readRecord given.record input
  match sub with
  | .check => runCheck given processEnv record
  | .tokens => return listing record
  | .ast => runOutline record

def usage : String :=
  "Usage: optrec [--log FILTER] <check|tokens|ast> [OPTIONS] [RECORD]\n\n" ++
  "Check, evaluate and inspect declarative control option records\n"

-- Runs the program with the given arguments
def run (args : List String) (processEnv : String → Option String) (input : Input) : Outcome :=
  match parse args with
  | .error .version => ⟨0, "optrec 0.2.0\n", ""⟩
  | .error .help => ⟨0, usage, ""⟩
  | .error .misuse => ⟨2, "", usage⟩
  | .ok (sub, given) =>
    match runSubcommand sub given processEnv input with
    | .ok text => ⟨0, text ++ "\n", ""⟩
    | .error e => ⟨1, "", e.message ++ "\n"⟩

-- The names that a record may look up, so that variables can be read ahead
def names (record : String) : List String :=
  ((Token.scan record).filter (·.kind == .identifier)).map (·.text)

end DeclarativeOptions.Command
