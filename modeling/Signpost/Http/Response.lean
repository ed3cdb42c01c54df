import Signpost.Http.Request

/-!
This module contains responses and the ways to make them.
-/

namespace Signpost.Http

structure Response where
  status : Nat
  headers : Headers
  body : Bytes
  deriving DecidableEq, Inhabited

namespace Response

/-- The value of the server header. -/
def serverName : String := "jetrouter"

def notFoundBody : String := "404 Not Found"

/-- Headers with a content type alone. -/
def typed (contentType : String) : Headers :=
  Headers.empty.append .contentType (Text.utf8 contentType)

/-- A response with a JSON body. -/
def json (status : Nat) (value : Json) : Response :=
  ⟨status, typed jsonType, Text.utf8 value.compact⟩

/-- A response with a text as its body. -/
def failure (status : Nat) (message : String) : Response :=
  ⟨status, typed plainType, Text.utf8 message⟩

/-- A successful response. A text is written as it is, any other value as JSON. -/
def success : Json → Response
  | .text s => ⟨200, typed plainType, Text.utf8 s⟩
  | value => json 200 value

/-- A successful response without a body. -/
def emptySuccess : Response :=
  ⟨200, .empty, []⟩

def notFound : Response :=
  failure 404 notFoundBody

def header? (r : Response) (name : String) : Option String :=
  r.headers.text? name

def text (r : Response) : String :=
  Text.ofUtf8Lossy r.body

def mergeHeaders (r : Response) (headers : Headers) : Response :=
  { r with headers := r.headers.merge headers }

/-- Name the server, in place of whatever it was named before. -/
def withServer (r : Response) : Response :=
  { r with headers := r.headers.insert .server (Text.utf8 serverName) }

end Response

end Signpost.Http
