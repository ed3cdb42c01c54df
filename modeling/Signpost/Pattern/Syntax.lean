import Signpost.Pattern.Bracket
import Signpost.Text.Alphanumeric

/-!
This module contains which texts are patterns. A pattern is a row of parts or a choice between such rows. A
part is an atom, a set in brackets, a group, or a part that is repeated.
-/

namespace Signpost.Pattern

/-! ## Groups -/

/-- The letters that switch modes, up to the colon or the parenthesis after them, and that character. -/
def switches? (seen : List Char) : List Char → Option (List Char × Char × List Char)
  | [] => none
  | c :: cs =>
    if c = ':' ∨ c = ')' then
      if seen.head? = some '-' then none else some (seen.reverse, c, cs)
    else if ['-', 'i', 'm', 's', 'U', 'u', 'R', 'x'].contains c ∧ !seen.contains c then
      switches? (c :: seen) cs
    else
      none

/-- Whether a mode is on after it was switched. What stands after the minus is switched off. -/
def switched (switches : List Char) (letter : Char) (before : Bool) : Bool :=
  if switches.contains letter then (switches.takeWhile (· ≠ '-')).contains letter else before

def Modes.switch (m : Modes) (switches : List Char) : Modes where
  ignoreCase := switched switches 'i' m.ignoreCase
  unicode := switched switches 'u' m.unicode
  verbose := switched switches 'x' m.verbose

/-- Whether a text can be the name of a group. -/
def isGroupName : List Char → Bool
  | [] => false
  | c :: cs =>
    (c = '_' || Text.isAlphabetic c)
      && cs.all fun c => c = '_' || c = '.' || c = '[' || c = ']' || Text.isAlphanumeric c

/-- The name of a group after its angle, and the rest after the name. -/
def groupName? (cs : List Char) : Option (List Char × List Char) :=
  let name := cs.takeWhile (· ≠ '>')
  match cs.drop name.length with
  | [] => none
  | _ :: rest => if isGroupName name then some (name, rest) else none

/-- What a parenthesis opens. -/
inductive Opening where
  /-- Other modes for the rest of the group around it. -/
  | setting (modes : Modes)
  | group (modes : Modes) (name : Option (List Char))

/-- What a parenthesis opens, after it was taken, and the rest after that. -/
def opening? (m : Modes) (cs : List Char) : Option (Opening × List Char) :=
  match m.skip cs with
  | '?' :: '<' :: rest | '?' :: 'P' :: '<' :: rest =>
    (groupName? rest).map fun (name, rest) => (.group m (some name), rest)
  | '?' :: rest =>
    (switches? [] rest).bind fun (switches, stop, rest) =>
      if stop = ':' then some (.group (m.switch switches) none, rest)
      else if switches = [] then none
      else some (.setting (m.switch switches), rest)
  | rest => some (.group m none, rest)

/-! ## Rows of parts -/

structure Part where
  depth : Nat
  /-- Whether the part can be repeated. A setting of modes cannot. -/
  canRepeat : Bool

/-- A group that is being read, or the whole pattern. -/
structure Level where
  /-- The parts of the current row, the last one first. -/
  parts : List Part
  /-- The depths of the rows before. -/
  rows : List Nat

namespace Level

def empty : Level := ⟨[], []⟩

def add (l : Level) (depth : Nat) (canRepeat : Bool) : Level :=
  { l with parts := ⟨depth, canRepeat⟩ :: l.parts }

def row (l : Level) : Nat :=
  depthOfAll (l.parts.map Part.depth)

/-- Begin another row. -/
def endRow (l : Level) : Level :=
  ⟨[], l.row :: l.rows⟩

def depth (l : Level) : Nat :=
  depthOfAll (l.row :: l.rows)

/-- Repeat the last part. -/
def repeatLast? (l : Level) : Option Level :=
  match l.parts with
  | part :: parts => if part.canRepeat then some { l with parts := ⟨part.depth + 1, true⟩ :: parts } else none
  | [] => none

end Level

/-- A part that is one character of the text or an escape. -/
def atom? (m : Modes) : List Char → Option (Atom × List Char)
  | [] => none
  | c :: cs =>
    if c = '\\' then escape? m cs
    else if c = '.' then some (.any, cs)
    else if c = '^' ∨ c = '$' then some (.textEdge, cs)
    else some (.char c, cs)

/-- The rest after the sign that repeats as little as possible, if there is one. -/
def afterLazy : List Char → List Char
  | '?' :: cs => cs
  | cs => cs

/--
The depth of a pattern. `level` is the innermost group that is being read; `outer` are those around it, with the
modes to go back to, and `names` are the names of groups so far, each of which is used once. Braces count
repetitions; here they are never closed. Every step takes at least one character, so that `fuel` is enough if it is
longer than the text.
-/
def read? : (fuel : Nat) → Modes → (names : List (List Char)) → (level : Level) →
    (outer : List (Level × Modes)) → List Char → Option Nat
  | 0, _, _, _, _, _ => none
  | fuel + 1, m, names, level, outer, cs =>
    match m.skip cs with
    | [] => if outer.isEmpty then some level.depth else none
    | c :: cs =>
      if c = '(' then
        match opening? m cs with
        | none => none
        | some (.setting m, rest) => read? fuel m names (level.add 0 false) outer rest
        | some (.group inner none, rest) => read? fuel inner names .empty ((level, m) :: outer) rest
        | some (.group inner (some name), rest) =>
          if names.contains name then none
          else read? fuel inner (name :: names) .empty ((level, m) :: outer) rest
      else if c = ')' then
        match outer with
        | [] => none
        | (around, m) :: outer => read? fuel m names (around.add (level.depth + 1) true) outer cs
      else if c = '|' then
        read? fuel m names level.endRow outer cs
      else if c = '[' then
        (Bracket.read? m cs).bind fun (depth, rest) => read? fuel m names (level.add depth true) outer rest
      else if c = '?' ∨ c = '*' ∨ c = '+' then
        level.repeatLast?.bind fun level => read? fuel m names level outer (afterLazy cs)
      else if c = '\x7b' then
        none
      else
        (atom? m (c :: cs)).bind fun (atom, rest) =>
          if atom.isAllowed m then read? fuel m names (level.add 0 true) outer rest else none

def depthLimit : Nat := 250

/-- Whether a text without a closing brace is a pattern. -/
def isPattern (cs : List Char) : Bool :=
  (read? (cs.length + 1) .standard [] .empty [] cs).any (· ≤ depthLimit)

end Signpost.Pattern
