import Signpost.Pattern.Atom

/-!
This module contains the reading of a set of characters in brackets. A set holds characters, ranges, named
sets and sets in brackets of their own, and sets can be combined by operators.
-/

namespace Signpost.Pattern

/-- How deep parts are nested that stand side by side. Two or more of them are one level more. -/
def depthOfAll : List Nat → Nat
  | [] => 0
  | [depth] => depth
  | depths => depths.foldl max 0 + 1

namespace Bracket

/-- Where the reading of a set stands. -/
inductive Place where
  /-- Right after the opening bracket, where a closing one is a member. -/
  | start
  /-- After dashes at the start, which are members. -/
  | dashes
  | inside
  deriving DecidableEq

/-- A set that is being read. -/
structure Level where
  place : Place
  /-- The depths of the members since the last operator. -/
  members : List Nat
  /-- The depth of what stands before the last operator. -/
  left : Option Nat

namespace Level

def opened : Level := ⟨.start, [], none⟩

def add (l : Level) (depth : Nat) (place : Place) : Level :=
  { l with place, members := depth :: l.members }

def depth (l : Level) : Nat :=
  match l.left with
  | none => depthOfAll l.members
  | some left => max left (depthOfAll l.members) + 1

/-- The set after an operator. What stands before it is one operand. -/
def afterOperator (l : Level) : Level :=
  ⟨.inside, [], some l.depth⟩

end Level

/-- Two of one of these characters are an operator: what is common, what is different, what is in only one. -/
def isOperator (c : Char) : Bool :=
  c = '&' || c = '-' || c = '~'

def names : List String :=
  ["alnum", "alpha", "ascii", "blank", "cntrl", "digit", "graph", "lower", "print", "punct", "space", "upper",
    "word", "xdigit"]

/-- A named set after its bracket, and whether it is negated. -/
def named? : List Char → Option (Bool × List Char)
  | ':' :: cs =>
    let (negated, cs) := match cs with
      | '^' :: cs => (true, cs)
      | _ => (false, cs)
    let name := cs.takeWhile (· ≠ ':')
    match cs.drop name.length with
    | ':' :: ']' :: rest => if names.contains (String.ofList name) then some (negated, rest) else none
    | _ => none
  | _ => none

/-- Whether a named set has a meaning. A negated one holds bytes that are no characters. -/
def allowsNamed (m : Modes) (negated : Bool) : Bool :=
  m.allowsChars && (m.unicode || !negated)

/-- The rest after a bracket and the sign of negation. A negated set of bytes holds some that are no characters. -/
def afterOpening? (m : Modes) (cs : List Char) : Option (List Char) :=
  match m.skip cs with
  | '^' :: rest => if m.unicode then some rest else none
  | rest => some rest

def atom? (m : Modes) : List Char → Option (Atom × List Char)
  | [] => none
  | c :: cs => if c = '\\' then escape? m cs else some (.char c, cs)

/-- Whether two parts are the ends of a range. -/
def isRange (m : Modes) (first last : Atom) : Bool :=
  match first.char?, last.char? with
  | some low, some high => low ≤ high && first.isMember m && last.isMember m
  | _, _ => false

/-- The rest after a range or a single member. A dash before the closing bracket or a dash is a member. -/
def afterMember? (m : Modes) (cs : List Char) : Option (List Char) := do
  let (first, cs) ← atom? m cs
  let single := if first.isMember m then some cs else none
  match m.skip cs with
  | '-' :: rest =>
    if m.look rest = some ']' ∨ m.look rest = some '-' then single
    else
      let (last, rest) ← atom? m (m.skip rest)
      if isRange m first last then some rest else none
  | _ => single

/--
The depth of a set and the rest after it. `level` is the innermost set that is being read, and `outer` are those
around it. Every step takes at least one character, so that `fuel` is enough if it is as long as the text.
-/
def close? (m : Modes) : (fuel : Nat) → (level : Level) → (outer : List Level) → List Char →
    Option (Nat × List Char)
  | 0, _, _, _ => none
  | fuel + 1, level, outer, cs =>
    match m.skip cs with
    | [] => none
    | c :: cs =>
      if c = '-' ∧ level.place ≠ .inside then
        if m.allowsChars then close? m fuel (level.add 0 .dashes) outer cs else none
      else if c = ']' ∧ level.place = .start then
        if m.allowsChars then close? m fuel (level.add 0 .inside) outer cs else none
      else if c = ']' then
        match outer with
        | [] => some (level.depth + 1, cs)
        | around :: outer => close? m fuel (around.add (level.depth + 1) .inside) outer cs
      else if c = '[' then
        match named? cs with
        | some (negated, rest) =>
          if allowsNamed m negated then close? m fuel (level.add 0 .inside) outer rest else none
        | none => (afterOpening? m cs).bind fun rest => close? m fuel .opened (level :: outer) rest
      else if isOperator c ∧ cs.head? = some c then
        close? m fuel level.afterOperator outer cs.tail
      else
        (afterMember? m (c :: cs)).bind fun rest => close? m fuel (level.add 0 .inside) outer rest

/-- The depth of a set whose opening bracket has been taken, and the rest after it. -/
def read? (m : Modes) (cs : List Char) : Option (Nat × List Char) :=
  (afterOpening? m cs).bind fun rest => close? m (rest.length + 1) .opened [] rest

end Bracket

end Signpost.Pattern
