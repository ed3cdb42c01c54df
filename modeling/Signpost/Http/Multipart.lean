import Signpost.Text.Blank
import Signpost.Text.Pieces
import Signpost.Text.Utf8

/-!
This module contains the multipart form: parts between delimiters, each with a head that names it and with
its data. A part with a file name is a file.
-/

namespace Signpost.Http

/-- A file that was sent with a form. -/
structure Upload where
  field : String
  filename : String
  contentType : Option String
  data : Bytes
  deriving DecidableEq, Inhabited

namespace Multipart

/-- The fields and the files of a form. -/
structure Form where
  fields : List (String × String)
  files : List Upload
  deriving DecidableEq, Inhabited

/-- A part of a form. -/
inductive Part where
  | field (name text : String)
  | file (upload : Upload)
  deriving DecidableEq

def Form.ofParts (parts : List Part) : Form where
  fields := parts.filterMap fun
    | .field name text => some (name, text)
    | .file _ => none
  files := parts.filterMap fun
    | .field .. => none
    | .file upload => some upload

def isQuote (c : Char) : Bool :=
  c == '"'

/-- Whether two texts are the same up to the case of the letters of ASCII. -/
def sameWord (a b : String) : Bool :=
  a.toLower == b.toLower

/--
The value of the first parameter whose name satisfies `p`, in a header value with parameters after semicolons.
Quotes around the value are dropped.
-/
def parameter? (p : String → Bool) (header : String) : Option String :=
  ((Text.split ';' header).drop 1).findSome? fun parameter =>
    (Text.splitOnce '=' (Text.trim parameter)).bind fun (name, value) =>
      if p (Text.trim name) then
        some (String.ofList (Text.trimList isQuote (Text.trim value).toList))
      else
        none

/-- The boundary that a content type announces. -/
def boundary? (contentType : String) : Option String :=
  parameter? (sameWord · "boundary") contentType

def crlf : Bytes := [0x0D, 0x0A]
def dashes : Bytes := [0x2D, 0x2D]

/-- The delimiter that stands between parts. -/
def delimiter (boundary : String) : Bytes :=
  dashes ++ Text.utf8 boundary

theorem delimiter_ne_nil (boundary : String) : delimiter boundary ≠ [] := by
  simp [delimiter, dashes]

/-- The bytes without a line end at their start. -/
def dropLeadingLineEnd (bytes : Bytes) : Bytes :=
  (Text.afterLead crlf bytes).getD bytes

/-- The bytes without a line end at their end. -/
def dropTrailingLineEnd (bytes : Bytes) : Bytes :=
  ((Text.afterLead crlf.reverse bytes.reverse).map List.reverse).getD bytes

/-- The value of the last header with a name, in the head of a part. -/
def headerOf? (name head : String) : Option String :=
  ((Text.split '\n' head).filterMap fun line =>
    (Text.splitOnce ':' line).bind fun (n, value) =>
      if sameWord (Text.trim n) name then some (Text.trim value) else none).getLast?

/-- The part that stands between two delimiters, if its head names it. -/
def part? (bytes : Bytes) : Option Part :=
  let bytes := dropTrailingLineEnd (dropLeadingLineEnd bytes)
  (Text.cutAt (crlf ++ crlf) bytes).bind fun (head, data) =>
    let head := Text.ofUtf8Lossy head
    (headerOf? "content-disposition" head).bind fun disposition =>
      (parameter? (· == "name") disposition).map fun field =>
        match parameter? (· == "filename") disposition with
        | some filename => .file ⟨field, filename, headerOf? "content-type" head, data⟩
        | none => .field field (Text.ofUtf8Lossy data)

/-- The parts after a delimiter. Two dashes right after a delimiter end the form. -/
def partsAfter (delimiter : Bytes) (nonempty : delimiter ≠ []) (rest : Bytes) : List Part :=
  if (Text.afterLead dashes rest).isSome then []
  else
    match _h : Text.cutAt delimiter rest with
    | some (bytes, rest) => (part? bytes).toList ++ partsAfter delimiter nonempty rest
    | none => []
termination_by rest.length
decreasing_by exact Text.length_lt_of_cutAt nonempty _h

/-- The parts of a body, from its first delimiter on. -/
def parts (boundary : String) (body : Bytes) : List Part :=
  match Text.cutAt (delimiter boundary) body with
  | some (_, rest) => partsAfter (delimiter boundary) (delimiter_ne_nil boundary) rest
  | none => []

def parse (boundary : String) (body : Bytes) : Form :=
  .ofParts (parts boundary body)

end Multipart

end Signpost.Http
