import Signpost.Text.Pieces

/-!
This module contains the segments of a path: the pieces between slashes that are not empty.
-/

namespace Signpost.Route

def segments (path : String) : List String :=
  (Text.split '/' path).filter (· ≠ "")

/-- The path with these segments. -/
def joinPath (segments : List String) : String :=
  "/".intercalate segments

/-- Whether a segment is written as a parameter: between braces or after a colon. -/
def isParameter (segment : String) : Bool :=
  match segment.toList with
  | ':' :: _ => true
  | '\x7b' :: rest => rest.getLast? == some '\x7d'
  | _ => false

end Signpost.Route
