import Signpost.Route.Table
import Signpost.Text.Lowercase

/-!
This module contains the routes that are derived from the names of handlers: a name in camel case begins
with its verb, each word is a segment, and the marker stands for the wildcard.
-/

namespace Signpost.Route

/-- A part of a handler's name. -/
inductive NamePart where
  | marker
  | word (letters : List Char)
  deriving DecidableEq

namespace Name

def isUpper (c : Char) : Bool :=
  'A' ≤ c && c ≤ 'Z'

def isLower (c : Char) : Bool :=
  'a' ≤ c && c ≤ 'z'

/-- The word at the front of a name: a capital and the small letters after it, if more text follows. -/
def leadingWord? : List Char → Option (List Char)
  | [] => none
  | c :: cs =>
    if isUpper c ∧ cs.any (fun d => !isLower d) then some (c :: cs.takeWhile isLower)
    else none

/-- The letters up to the first capital, and the words that begin with the capitals. -/
def camelTail : List Char → List Char × List (List Char)
  | [] => ([], [])
  | c :: cs =>
    let (letters, words) := camelTail cs
    if isUpper c then ([], (c :: letters) :: words) else (c :: letters, words)

/-- The words of a text in camel case. A word begins at the start and at every later capital. -/
def camelWords : List Char → List (List Char)
  | [] => [[]]
  | c :: cs =>
    let (letters, words) := camelTail cs
    (c :: letters) :: words

/-- The words of a piece of a name between two markers. Nothing stands between two adjacent markers. -/
def wordsBetween (letters : List Char) : List NamePart :=
  if letters = [] then [] else (camelWords letters).map .word

/-- The parts of a name around the leftmost occurrences of a marker that is not empty. -/
def partsAround (marker : List Char) (nonempty : marker ≠ []) (name : List Char) : List NamePart :=
  match _h : Text.cutAt marker name with
  | some (before, rest) => wordsBetween before ++ .marker :: partsAround marker nonempty rest
  | none => wordsBetween name
termination_by name.length
decreasing_by exact Text.length_lt_of_cutAt nonempty _h

/-- The parts of a name. Without a marker the whole name is camel case. -/
def parts (marker name : String) : List NamePart :=
  if h : marker.toList = [] then (camelWords name.toList).map .word
  else partsAround marker.toList h name.toList

def lowerFirst : List Char → List Char
  | [] => []
  | c :: cs => Text.lowercase c ++ cs

/-- A part as a segment of a key: the marker as it is, a word with its first letter made small. -/
def NamePart.segment (marker : String) : NamePart → String
  | .marker => marker
  | .word letters => String.ofList (lowerFirst letters)

/-- The words of a name as segments, the markers among them. -/
def split (marker name : String) : List String :=
  (parts marker name).map (NamePart.segment marker)

end Name

/-- Why a name has no route. -/
inductive NameError where
  | missingVerb (name : String)
  | unsupportedVerb (verb : String)
  deriving DecidableEq

def NameError.message : NameError → String
  | .missingVerb name => "handler name " ++ Text.quoted name ++ " has no verb prefix"
  | .unsupportedVerb verb => "unsupported verb prefix " ++ Text.quoted verb

/-- How names become routes. -/
structure Naming where
  marker : String
  wildcard : String

namespace Naming

def defaultMarker : String := "_"

/-- The verbs with which a name can begin. -/
def verbs : List String := ["GET", "POST", "PUT", "DELETE", "PATCH"]

/-- The verb word at the front of a name. -/
def verbWord? (name : String) : Option String :=
  (Name.leadingWord? name.toList).map String.ofList

/-- The key of the route of a name. Every segment that is spelled like the marker is a wildcard. -/
def key (naming : Naming) (name : String) : Except NameError String :=
  match verbWord? name with
  | none => .error (.missingVerb name)
  | some verb =>
    if verb.toUpper ∈ verbs then
      .ok (joinPath ((Name.split naming.marker name).map fun s =>
        if s = naming.marker then naming.wildcard else s))
    else
      .error (.unsupportedVerb verb)

end Naming

end Signpost.Route
