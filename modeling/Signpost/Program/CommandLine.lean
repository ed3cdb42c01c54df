import Signpost.Program.Settings

/-!
This module contains the reading of the words on the command line. Options stand before and after the command;
those that all commands share can stand in both places, and the latter place wins.
-/

namespace Signpost.Program

inductive Command where
  | routes
  | serve (address : Option String) (timeout : Option Nat)
  deriving DecidableEq

/-- What the words on the command line say. -/
structure Invocation where
  command : Command
  logLevel : Option String
  logFormat : Option String
  deriving DecidableEq

/-- Why there is no command to run. -/
inductive Refusal where
  /-- The words ask for help. -/
  | help
  /-- The words ask for the version. -/
  | version
  /-- There are no words. -/
  | nothing
  | missingCommand
  | unknownCommand
  | unknownArgument
  /-- An option without its value. -/
  | missingValue
  /-- A value that is not of the type of its option. -/
  | badValue
  /-- A value after a flag that takes none. -/
  | surplusValue
  /-- An option that is given twice in one place. -/
  | repeated
  deriving DecidableEq

namespace CommandLine

/-- The options that take a value. -/
inductive Setting where
  | logLevel
  | logFormat
  | address
  | timeout
  deriving DecidableEq

/-- What an option does. -/
inductive Effect where
  | set (setting : Setting)
  | stop (refusal : Refusal)

/-- A place on the command line, with the options that can stand there. -/
structure Level where
  long : List (String × Effect)
  short : List (Char × Effect)
  /-- The words that end the place. -/
  commands : List String

/-- The options that can stand everywhere. -/
def sharedLong : List (String × Effect) :=
  [("log-level", .set .logLevel), ("log-format", .set .logFormat), ("help", .stop .help)]

/-- The words before the command. -/
def mainLevel : Level where
  long := ("version", .stop .version) :: sharedLong
  short := [('h', .stop .help), ('V', .stop .version)]
  commands := ["serve", "routes", "help"]

def serveLevel : Level where
  long := ("addr", .set .address) :: ("timeout-ms", .set .timeout) :: sharedLong
  short := [('h', .stop .help), ('a', .set .address)]
  commands := []

def routesLevel : Level where
  long := sharedLong
  short := [('h', .stop .help)]
  commands := []

/-- The number of milliseconds that a word spells. -/
def readTimeout? (value : String) : Option Nat :=
  (Decimal.readNat? value.toList).filter (· < Nat.pow 2 64)

/-- What was read in a place. -/
structure Found where
  settings : List (Setting × String)
  /-- The last option, which is not settled before the next one comes, with its value if it has one. -/
  pending : Option (Setting × Option String)

namespace Found

def empty : Found := ⟨[], none⟩

/-- Settle an option with its value. -/
def add (f : Found) (setting : Setting) (value : String) : Except Refusal Found :=
  if (f.settings.lookup setting).isSome then .error .repeated
  else if setting = .timeout ∧ readTimeout? value = none then .error .badValue
  else .ok { f with settings := f.settings ++ [(setting, value)] }

/-- Settle the last option. -/
def settle (f : Found) : Except Refusal Found :=
  match f.pending with
  | none => .ok f
  | some (_, none) => .error .missingValue
  | some (setting, some value) => { f with pending := none }.add setting value

/-- The last option has no value yet. -/
def awaits (f : Found) : Bool :=
  match f.pending with
  | some (_, none) => true
  | _ => false

/-- A word that is no option. It is the value of the option before it, if that one has none. -/
def value? (f : Found) (word : String) : Option Found :=
  match f.pending with
  | some (setting, none) => some { f with pending := some (setting, some word) }
  | _ => none

/-- An option, which settles the one before it. -/
def apply (f : Found) (attached : Option String) : Effect → Except Refusal Found
  | .stop refusal => do
    let _ ← f.settle
    .error refusal
  | .set setting => do
    let f ← f.settle
    match attached with
    | some value => f.add setting value
    | none => return { f with pending := some (setting, none) }

end Found

/-- A word as it looks. -/
inductive Word where
  /-- Two dashes, after which no word is an option. -/
  | escape
  | long (name : String) (value : Option String)
  | short (letter : Char) (rest : List Char)
  | plain

def Word.ofString (s : String) : Word :=
  match s.toList with
  | ['-', '-'] => .escape
  | '-' :: '-' :: cs =>
    let option := String.ofList cs
    match Text.splitOnce '=' option with
    | some (name, value) => .long name (some value)
    | none => .long option none
  | '-' :: c :: cs => .short c cs
  | _ => .plain

/-- The value that stands right after a short option, if there is one. -/
def attachedValue : List Char → Option String
  | [] => none
  | '=' :: cs => some (String.ofList cs)
  | cs => some (String.ofList cs)

/-- A word that does not belong to a place. -/
def Level.stray (level : Level) : Refusal :=
  if level.commands = [] then .unknownArgument else .unknownCommand

/-- The first word after the escape. There it is no command. -/
def Level.afterEscape (level : Level) (f : Found) : List String → Except Refusal Found
  | [] => .ok f
  | word :: _ => .error (if word ∈ level.commands then .unknownArgument else level.stray)

/-- Read the words of a place, up to the command that ends it. The command is given back with what follows. -/
def Level.read (level : Level) : Found → List String → Except Refusal (Found × Option (String × List String))
  | f, [] => .ok (f, none)
  | f, word :: rest =>
    if word ∈ level.commands ∧ !f.awaits then .ok (f, some (word, rest))
    else
      match Word.ofString word with
      | .escape => (level.afterEscape f rest).map (·, none)
      | .long name value =>
        match level.long.lookup name with
        | none => .error .unknownArgument
        | some effect => do
          match effect, value with
          | .stop _, some _ => .error .surplusValue
          | _, _ => level.read (← f.apply value effect) rest
      | .short letter cs =>
        match level.short.lookup letter with
        | none => .error .unknownArgument
        | some effect => do
          level.read (← f.apply (attachedValue cs) effect) rest
      | .plain =>
        match f.value? word with
        | some f => level.read f rest
        | none => .error level.stray

/-- What `help` says about the words after it: they are to be commands, and commands have none of their own. -/
def helpOn : List String → Refusal
  | [] => .help
  | [command] => if command ∈ mainLevel.commands then .help else .unknownCommand
  | _ => .unknownCommand

/-- Read the words after the name of a command. -/
def readSettings (level : Level) (words : List String) : Except Refusal (List (Setting × String)) := do
  let (found, _) ← level.read .empty words
  return (← found.settle).settings

/-- The command with its settings. The environment can say where to listen. -/
def readCommand (env : Environment) (name : String) (words : List String) :
    Except Refusal (Command × List (Setting × String)) := do
  if name = "help" then
    .error (helpOn words)
  else if name = "serve" then
    let settings ← readSettings serveLevel words
    let address := settings.lookup .address <|> env "JET_ADDR"
    return (.serve address ((settings.lookup .timeout).bind readTimeout?), settings)
  else
    return (.routes, ← readSettings routesLevel words)

/-- Read the words on the command line. -/
def read (env : Environment) (words : List String) : Except Refusal Invocation := do
  let (found, rest) ← mainLevel.read .empty words
  match rest with
  | none =>
    let found ← found.settle
    .error (if found.settings = [] then .nothing else .missingCommand)
  | some (name, words) =>
    let (command, inner) ← readCommand env name words
    let outer := (← found.settle).settings
    let setting? (s : Setting) := inner.lookup s <|> outer.lookup s
    return ⟨command, setting? .logLevel, setting? .logFormat⟩

end CommandLine

end Signpost.Program
