import Signpost.Http.Header
import Signpost.Http.Multipart
import Signpost.Http.Urlencoded
import Signpost.Json.Printer

/-!
This module contains requests and their builders. The form values and files of a request are read from its
body when the body is set.
-/

namespace Signpost.Http

/-- How a body is written, as far as the binding of parameters is concerned. -/
inductive BodyKind where
  | json
  | form
  | other
  deriving DecidableEq, Inhabited

/-- The media type at the front of a content type. -/
def mediaType (contentType : String) : String :=
  Text.trim (((Text.splitOnce ';' contentType).map (·.1)).getD contentType)

def urlencodedType : String := "application/x-www-form-urlencoded"
def multipartType : String := "multipart/form-data"
def jsonType : String := "application/json"
def plainType : String := "text/plain"

def BodyKind.ofContentType : Option String → BodyKind
  | none => .other
  | some contentType =>
    let media := mediaType contentType
    if Multipart.sameWord media jsonType then .json
    else if Multipart.sameWord media urlencodedType ∨ Multipart.sameWord media multipartType then .form
    else .other

structure Request where
  method : Method
  path : String
  query : List (String × String)
  headers : Headers
  body : Bytes
  form : List (String × String)
  files : List Upload
  deriving Inhabited

namespace Request

/-- A request without headers and body. The query is split off from the path at the first question mark. -/
def ofUri (method : Method) (uri : String) : Request :=
  let (path, query) :=
    match Text.splitOnce '?' uri with
    | some (path, query) => (path, Urlencoded.parse query)
    | none => (uri, [])
  { method, path := if path = "" then "/" else path, query, headers := .empty, body := [], form := [],
    files := [] }

/-- The first value of a header, if it is visible text. -/
def header? (r : Request) (name : String) : Option String :=
  r.headers.text? name

def contentType? (r : Request) : Option String :=
  r.header? HeaderName.contentType.text

def kind (r : Request) : BodyKind :=
  .ofContentType r.contentType?

/-- Add a header. A name or a value that HTTP does not admit is passed over. -/
def withHeader (r : Request) (name value : String) : Request :=
  match HeaderName.ofString? name, headerValue? value with
  | some name, some value => { r with headers := r.headers.append name value }
  | _, _ => r

/-- Read the body as a form, if the content type says that it is one. -/
def readForm (r : Request) : Request :=
  match r.contentType? with
  | none => r
  | some contentType =>
    let media := mediaType contentType
    if Multipart.sameWord media urlencodedType then
      { r with form := Urlencoded.parse (Text.ofUtf8Lossy r.body) }
    else if Multipart.sameWord media multipartType then
      match Multipart.boundary? contentType with
      | some boundary =>
        let form := Multipart.parse boundary r.body
        { r with form := form.fields, files := form.files }
      | none => r
    else
      r

/-- Set the body and read it as a form, if it is one. -/
def withBody (r : Request) (body : Bytes) : Request :=
  { r with body }.readForm

/-- Set a JSON body and add its content type. -/
def withJson (r : Request) (value : Json) : Request :=
  (r.withHeader HeaderName.contentType.text jsonType).withBody (Text.utf8 value.compact)

/-- Set an urlencoded form as the body and add its content type. -/
def withForm (r : Request) (pairs : List (String × String)) : Request :=
  (r.withHeader HeaderName.contentType.text urlencodedType).withBody
    (Text.utf8 (Urlencoded.serialize pairs))

/-- Attach a file. -/
def withFile (r : Request) (file : Upload) : Request :=
  { r with files := r.files ++ [file] }

/-- The request without its body and what was read from it. -/
def head (r : Request) : Request :=
  { r with body := [], form := [], files := [] }

/-- The values that pairs carry for a name. -/
def valuesOf (pairs : List (String × String)) (name : String) : List String :=
  (pairs.filter (·.1 = name)).map (·.2)

def queryValues (r : Request) (name : String) : List String :=
  valuesOf r.query name

def formValues (r : Request) (name : String) : List String :=
  valuesOf r.form name

/-- The last value of a name in the query. -/
def queryValue? (r : Request) (name : String) : Option String :=
  (r.queryValues name).getLast?

/-- The first file that was sent under a name. -/
def file? (r : Request) (name : String) : Option Upload :=
  r.files.find? (·.field = name)

end Request

end Signpost.Http
