/-!
This module contains the tokens of HTTP: the spelling of methods and header names.
-/

namespace Signpost.Http

/-- The characters of a token: letters, digits and some signs of ASCII. -/
def isTokenChar (c : Char) : Bool :=
  c.isAlphanum || "!#$%&'*+-.^_`|~".toList.contains c

def isToken (s : String) : Bool :=
  !s.isEmpty && s.toList.all isTokenChar

/-- A method. Methods with different letters differ, also in their case. -/
structure Method where
  token : String
  deriving DecidableEq, Inhabited

def Method.ofString? (s : String) : Option Method :=
  if isToken s then some ⟨s⟩ else none

def Method.get : Method := ⟨"GET"⟩

/-- The message about a text that is no method. -/
def Method.invalidMessage : String := "invalid HTTP method"

end Signpost.Http
