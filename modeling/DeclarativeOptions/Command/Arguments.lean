namespace DeclarativeOptions.Command

inductive Subcommand where
  | check
  | tokens
  | ast
deriving DecidableEq

-- Options that take a value
inductive Setting where
  | log
  | scope
  | global
  | elements
deriving DecidableEq

-- Options that take none
inductive Flag where
  | env
  | json
  | pretty
  | syntaxOnly
  | version
  | help
deriving DecidableEq

inductive Named where
  | setting (s : Setting)
  | flag (f : Flag)
deriving DecidableEq

-- What the arguments may ask for instead of running a subcommand, or why they ask for nothing
inductive Stop where
  | version
  | help
  | misuse
deriving DecidableEq

-- The options of the program are those in front of the subcommand
def long? (subcommand : Option Subcommand) (name : String) : Option Named :=
  match name, subcommand with
  | "log", _ => some (.setting .log)
  | "help", _ => some (.flag .help)
  | "version", none => some (.flag .version)
  | "scope", some .check => some (.setting .scope)
  | "global", some .check => some (.setting .global)
  | "elements", some .check => some (.setting .elements)
  | "env", some .check => some (.flag .env)
  | "json", some .check => some (.flag .json)
  | "pretty", some .check => some (.flag .pretty)
  | "syntax-only", some .check => some (.flag .syntaxOnly)
  | _, _ => none

def short? (subcommand : Option Subcommand) (letter : Char) : Option Named :=
  match letter, subcommand with
  | 'h', _ => some (.flag .help)
  | 'V', none => some (.flag .version)
  | 's', some .check => some (.setting .scope)
  | 'g', some .check => some (.setting .global)
  | 'e', some .check => some (.setting .elements)
  | 'p', some .check => some (.flag .pretty)
  | _, _ => none

-- The arguments of one subcommand, or those in front of it. An option is given at most once, and
-- there is at most one record.
structure Given where
  record : Option String
  settings : List (Setting × String)
  flags : List Flag

namespace Given

def nothing : Given := ⟨none, [], []⟩

def setting? (g : Given) (s : Setting) : Option String := g.settings.lookup s

def has (g : Given) (f : Flag) : Bool := g.flags.contains f

def addRecord (g : Given) (text : String) : Except Stop Given :=
  if g.record.isSome then .error .misuse else .ok { g with record := some text }

def set (g : Given) (s : Setting) (value : String) : Except Stop Given :=
  if (g.setting? s).isSome then .error .misuse
  else .ok { g with settings := (s, value) :: g.settings }

def raise (g : Given) (f : Flag) : Except Stop Given :=
  match f with
  | .version => .error .version
  | .help => .error .help
  | _ => if g.has f then .error .misuse else .ok { g with flags := f :: g.flags }

end Given

-- One argument: an option, with a value in the same argument or in the next one, several short ones
-- behind one dash, something else, or the end of the options
inductive Argument where
  | long (name : String) (value : Option String)
  | short (letters : List Char)
  | plain (text : String)
  | endOfOptions

def Argument.ofText (text : String) : Argument :=
  match text.toList with
  | ['-', '-'] => .endOfOptions
  | '-' :: '-' :: rest =>
    let name := String.ofList (rest.takeWhile (· != '='))
    match rest.dropWhile (· != '=') with
    | _ :: value => .long name (some (String.ofList value))
    | [] => .long name none
  | ['-'] => .plain text
  | '-' :: letters => .short letters
  | _ => .plain text

-- Adds an option, or says which setting waits for its value
def addLong (sub : Option Subcommand) (g : Given) (name : String) (value : Option String) :
    Except Stop (Given × Option Setting) :=
  match long? sub name, value with
  | some (.setting s), some text => (g.set s text).map (·, none)
  | some (.setting s), none => .ok (g, some s)
  | some (.flag f), none => (g.raise f).map (·, none)
  | _, _ => .error .misuse

-- Adds short options up to the first one that takes a value; the letters behind it are the value
def addShort (sub : Option Subcommand) (g : Given) : List Char →
    Except Stop (Given × Option Setting)
  | [] => .ok (g, none)
  | letter :: rest =>
    match short? sub letter, rest with
    | some (.setting s), [] => .ok (g, some s)
    | some (.setting s), '=' :: value => (g.set s (String.ofList value)).map (·, none)
    | some (.setting s), value => (g.set s (String.ofList value)).map (·, none)
    | some (.flag f), rest => (g.raise f).bind fun g => addShort sub g rest
    | none, _ => .error .misuse

-- Reads arguments up to the first one for which `stops` holds. `waiting` is a setting whose value
-- is the next argument.
def collect (sub : Option Subcommand) (g : Given) (waiting : Option Setting) :
    List String → Except Stop (Given × List String)
  | [] => if waiting.isSome then .error .misuse else .ok (g, [])
  | arg :: rest =>
    match Argument.ofText arg, waiting with
    | .plain text, some s => (g.set s text).bind fun g => collect sub g none rest
    | .plain text, none =>
      if sub.isNone then .ok (g, arg :: rest)
      else (g.addRecord text).bind fun g => collect sub g none rest
    | _, some _ => .error .misuse
    | .endOfOptions, none =>
      if sub.isNone then .error .misuse
      else (rest.foldlM Given.addRecord g).map (·, [])
    | .long name value, none =>
      (addLong sub g name value).bind fun (g, waiting) => collect sub g waiting rest
    | .short letters, none =>
      (addShort sub g letters).bind fun (g, waiting) => collect sub g waiting rest

def subcommand? : String → Option Subcommand
  | "check" => some .check
  | "tokens" => some .tokens
  | "ast" => some .ast
  | _ => none

-- Whether arguments ask for help: about the program, or about one subcommand or `help` itself
def asksForHelp : List String → Bool
  | ["help"] => true
  | ["help", topic] => topic == "help" || (subcommand? topic).isSome
  | _ => false

-- The subcommand that is asked for, and its arguments
def parse (args : List String) : Except Stop (Subcommand × Given) := do
  match ← collect none .nothing none args with
  | (_, []) => .error .misuse
  | (_, name :: rest) =>
    match subcommand? name with
    | none => .error (if asksForHelp (name :: rest) then .help else .misuse)
    | some sub =>
      let (given, _) ← collect (some sub) .nothing none rest
      if given.has .env && (given.setting? .global).isSome then .error .misuse
      else .ok (sub, given)

end DeclarativeOptions.Command
