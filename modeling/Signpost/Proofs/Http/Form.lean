import Signpost.Http.Request
import Signpost.Proofs.Http.Urlencoded
import Signpost.Proofs.Http.Values

/-!
This module contains what a request is when its content type says that the body is an urlencoded form, and which
pairs a request has that was built with them.
-/

namespace Signpost.Http

theorem mediaType_urlencodedType : mediaType urlencodedType = urlencodedType := by
  decide +kernel

theorem sameWord_self (a : String) : Multipart.sameWord a a = true :=
  beq_self_eq_true a.toLower

theorem visibleText?_urlencodedType : visibleText? (Text.utf8 urlencodedType) = some urlencodedType := by
  decide +kernel

namespace Request

variable {r : Request}

theorem contentType?_eq (r : Request) : r.contentType? = (r.headers.values .contentType).head?.bind visibleText? := by
  have hlower : (⟨HeaderName.contentType.text.toLower⟩ : HeaderName) = HeaderName.contentType := by decide +kernel
  unfold contentType? header? Headers.text?
  rw [hlower, Headers.get?_eq_head?]

/-- A content type that is given as such is added, if it can be the value of a header. -/
theorem values_withHeader_contentType (r : Request) {value : String} {bytes : Bytes}
    (h : headerValue? value = some bytes) :
    (r.withHeader HeaderName.contentType.text value).headers.values .contentType
      =
    r.headers.values .contentType ++ [bytes] := by
  have hname : HeaderName.ofString? HeaderName.contentType.text = some HeaderName.contentType := by decide +kernel
  unfold withHeader
  rw [hname, h]
  dsimp only
  rw [Headers.values_append_self]

theorem kind_of_urlencoded (h : r.contentType? = some urlencodedType) : r.kind = .form := by
  have hjson : Multipart.sameWord urlencodedType jsonType = false := by decide +kernel
  unfold kind BodyKind.ofContentType
  rw [h]
  simp [mediaType_urlencodedType, hjson, sameWord_self]

theorem readForm_of_urlencoded (h : r.contentType? = some urlencodedType) :
    r.readForm = { r with form := Urlencoded.parse (Text.ofUtf8Lossy r.body) } := by
  unfold readForm
  rw [h]
  simp [mediaType_urlencodedType, sameWord_self]

theorem query_withHeader (r : Request) (name value : String) : (r.withHeader name value).query = r.query := by
  unfold withHeader
  split <;> rfl

section
variable (h : (r.withHeader HeaderName.contentType.text urlencodedType).contentType? = some urlencodedType)
  (pairs : List (String × String))

include h

theorem withForm_eq :
    r.withForm pairs
      =
    { r.withHeader HeaderName.contentType.text urlencodedType with
      body := Text.utf8 (Urlencoded.serialize pairs)
      form := Urlencoded.parse (Text.ofUtf8Lossy (Text.utf8 (Urlencoded.serialize pairs))) } := by
  unfold withForm withBody
  apply readForm_of_urlencoded
  exact h

theorem kind_withForm : (r.withForm pairs).kind = .form := by
  rw [withForm_eq h]
  exact kind_of_urlencoded h

/-- The form has the pairs that were put into it. -/
theorem form_withForm : (r.withForm pairs).form = pairs := by
  rw [withForm_eq h]
  dsimp only
  rw [Text.ofUtf8Lossy_utf8, Urlencoded.parse_serialize]

theorem query_withForm : (r.withForm pairs).query = r.query := by
  rw [withForm_eq h]
  exact query_withHeader r _ _

end

section
variable (method : Method)

theorem headers_ofUri (uri : String) : (ofUri method uri).headers = .empty := by
  rfl

theorem kind_ofUri (uri : String) : (ofUri method uri).kind = .other := by
  unfold kind contentType? header?
  rw [headers_ofUri]
  rfl

theorem query_ofUri_of_notMem {path : String} (hpath : '?' ∉ path.toList) : (ofUri method path).query = [] := by
  unfold ofUri
  rw [Text.splitOnce_of_notMem hpath]

/-- A path that is followed by a query with these pairs. -/
def uriWith (path : String) (pairs : List (String × String)) : String :=
  path ++ String.singleton '?' ++ Urlencoded.serialize pairs

/-- A query has the pairs that were written into it. -/
theorem query_ofUri_uriWith {path : String} (hpath : '?' ∉ path.toList) (pairs : List (String × String)) :
    (ofUri method (uriWith path pairs)).query = pairs := by
  unfold ofUri uriWith
  rw [Text.splitOnce_append hpath]
  exact Urlencoded.parse_serialize pairs

theorem contentType?_withHeader_ofUri (uri : String) :
    ((ofUri method uri).withHeader HeaderName.contentType.text urlencodedType).contentType? = some urlencodedType := by
  have hvalue : headerValue? urlencodedType = some (Text.utf8 urlencodedType) := by decide +kernel
  rw [contentType?_eq, values_withHeader_contentType _ hvalue, headers_ofUri]
  exact visibleText?_urlencodedType

end

end Request

end Signpost.Http
