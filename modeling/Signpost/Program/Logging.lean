import Signpost.Pattern.Syntax
import Signpost.Program.Settings
import Signpost.Text.Quoted

/-!
This module contains the settings of the log, and the directives that say what is logged.
-/

namespace Signpost.Program

inductive LogFormat where
  | json
  | pretty
  deriving DecidableEq

/-- The format with a name, in any case. Other names stand for JSON. -/
def LogFormat.ofString (s : String) : LogFormat :=
  if s.toLower = "pretty" then .pretty else .json

structure LogSettings where
  level : String
  format : LogFormat
  /-- Whether a worker of its own writes the log. -/
  async : Bool
  /-- More directives, with commas between them. -/
  targets : Option String
  /-- Whether an entry says where in the program it comes from. -/
  location : Bool
  deriving DecidableEq

/-! ## Directives -/

namespace Directive

def levels : List String := ["off", "error", "warn", "info", "debug", "trace"]

/-- Whether a text is a level: its name in any case, or its number. -/
def isLevel (cs : List Char) : Bool :=
  (Decimal.readNat? cs).any (· < levels.length) || levels.contains (String.ofList cs).toLower

/-- Whether a text is the value of a field: a number or a pattern. -/
def isValue (cs : List Char) : Bool :=
  (Decimal.readFloat? .double cs).isSome || Pattern.isPattern cs

/-- Whether a text is a field: a name, and its value after an equals sign. What a second one cuts off is ignored. -/
def isField (cs : List Char) : Bool :=
  match cs.dropWhile (· ≠ '=') with
  | [] => cs ≠ []
  | _ :: value => isValue (value.takeWhile (· ≠ '='))

/-- Where the reading of a directive stands. -/
inductive Place where
  /-- In the name of a target, or of a level that stands alone. -/
  | name
  /-- In the level, of which these characters were read. -/
  | level (seen : List Char)
  /-- In the name of a span. -/
  | span
  /-- In a field of a span, of which these characters were read. -/
  | field (seen : List Char)
  /-- After the fields of a span. -/
  | fields
  /-- After a span. -/
  | spanEnd

/-- Whether a name can begin with a character. -/
def isNameStart (c : Char) : Bool :=
  c == '-' || c == ':' || c == '_' || Text.isAlphanumeric c

/-- The place after the first character. -/
def start? (c : Char) : Option Place :=
  if c = '[' then some .span
  else if isNameStart c then some .name
  else none

/-- The place after one more character. -/
def step? (place : Place) (c : Char) : Option Place :=
  match place with
  | .name => some (if c = '=' then .level [] else if c = '[' then .span else .name)
  | .level seen => some (.level (seen ++ [c]))
  | .span => some (if c = ']' then .spanEnd else if c = '\x7b' then .field [] else .span)
  | .field seen =>
    if c = '\x7d' then (if isField seen then some .fields else none) else some (.field (seen ++ [c]))
  | .fields => if c = ']' then some .spanEnd else none
  | .spanEnd => if c = '=' then some (.level []) else none

/-- Whether a directive can end at a place. -/
def Place.isEnd : Place → Bool
  | .name => true
  | .level seen => seen.isEmpty || isLevel seen
  | .spanEnd => true
  | _ => false

/-- Whether a text is a directive: a level, or a target or a span with or without a level. -/
def isDirective (s : String) : Bool :=
  match s.toList with
  | [] => false
  | c :: cs => ((start? c).bind (cs.foldlM step? ·)).any (·.isEnd)

/-- The texts between commas that are not blank. -/
def texts (targets : String) : List String :=
  ((Text.split ',' targets).map Text.trim).filter (· ≠ "")

end Directive

/-- Why the log does not start. -/
inductive LogError where
  | badDirective (text : String)
  | alreadyStarted (async : Bool)
  deriving DecidableEq

def LogError.message : LogError → String
  | .badDirective text => "invalid log filter directive " ++ Text.quoted text
  | .alreadyStarted true => "Failed to initialize async logging"
  | .alreadyStarted false => "Failed to initialize logging"

namespace LogSettings

/-- The value of a flag. Only the two usual words are flags. -/
def flag (env : Environment) (name : String) : Bool :=
  env name = some "true"

def ofEnvironment (env : Environment) : LogSettings where
  level := (env "JET_LOG_LEVEL").getD "info"
  format := .ofString ((env "JET_LOG_FORMAT").getD "json")
  async := flag env "JET_LOG_ASYNC"
  targets := env "JET_LOG_TARGETS"
  location := flag env "JET_LOG_LOCATION"

/-- The settings for working on the program. -/
def forDevelopment : LogSettings :=
  ⟨"debug", .pretty, false, none, true⟩

/-- Start the log. The directives are looked at first. There is only one log. -/
def start (s : LogSettings) (isStarted : Bool) : Except LogError Unit :=
  match (Directive.texts (s.targets.getD "")).find? (!Directive.isDirective ·) with
  | some text => .error (.badDirective text)
  | none => if isStarted then .error (.alreadyStarted s.async) else .ok ()

end LogSettings

end Signpost.Program
