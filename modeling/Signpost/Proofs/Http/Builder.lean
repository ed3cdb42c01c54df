import Signpost.Proofs.Http.Delimiter
import Signpost.Proofs.Http.Form

/-!
This module contains requests that are built step by step: which of the content types counts after the steps, and
what the body is read as that is set last.
-/

theorem Option.forall_mem_apply_eq_iff_getD {f : α → β} (h : f a = b) (o : Option α) :
    (∀ x ∈ o, f x = b) ↔ f (o.getD a) = b := by
  cases o with
  | none => simp [h]
  | some x => simp

namespace Signpost.Http

/-- A step in which a request is built. -/
inductive BuildStep where
  | header (name value : String)
  | body (bytes : Bytes)
  | json (value : Json)
  | form (pairs : List (String × String))
  | file (upload : Upload)

namespace BuildStep

def apply (r : Request) : BuildStep → Request
  | header name value => r.withHeader name value
  | body bytes => r.withBody bytes
  | json value => r.withJson value
  | form pairs => r.withForm pairs
  | file upload => r.withFile upload

/-- The content type that a step adds. -/
def contentType? : BuildStep → Option Bytes
  | header name value => if HeaderName.ofString? name = some .contentType then headerValue? value else none
  | json _ => some (Text.utf8 jsonType)
  | form _ => some (Text.utf8 urlencodedType)
  | body _ | file _ => none

end BuildStep

/-- The request that the steps lead to. -/
def Request.built (method : Method) (uri : String) (steps : List BuildStep) : Request :=
  steps.foldl BuildStep.apply (ofUri method uri)

/-- What a body is taken for under a content type. -/
def BodyKind.under (contentType : Bytes) : BodyKind :=
  .ofContentType (visibleText? contentType)

/-- How a body is read as a form. -/
inductive FormReading where
  | urlencoded
  | multipart (boundary : String)
  | unread
  deriving DecidableEq

/-- How a body is read as a form under a content type. -/
def FormReading.under (contentType : Bytes) : FormReading :=
  match visibleText? contentType with
  | none => .unread
  | some text =>
    if Multipart.sameWord (mediaType text) urlencodedType then .urlencoded
    else if Multipart.sameWord (mediaType text) multipartType then (Multipart.boundary? text).elim .unread .multipart
    else .unread

/-! ## The content type that counts -/

namespace Request

theorem readForm_eq {r : Request} {first : Bytes} (h : (r.headers.values .contentType).head? = some first) :
    r.readForm =
      match FormReading.under first with
      | .urlencoded => { r with form := Urlencoded.parse (Text.ofUtf8Lossy r.body) }
      | .multipart boundary =>
        { r with form := (Multipart.parse boundary r.body).fields, files := (Multipart.parse boundary r.body).files }
      | .unread => r := by
  unfold readForm FormReading.under
  rw [contentType?_eq, h, Option.bind_some]
  cases visibleText? first with
  | none => rfl
  | some text =>
    dsimp only
    by_cases hurlencoded : Multipart.sameWord (mediaType text) urlencodedType = true
    . rw [if_pos hurlencoded, if_pos hurlencoded]
    . rw [if_neg hurlencoded, if_neg hurlencoded]
      by_cases hmultipart : Multipart.sameWord (mediaType text) multipartType = true
      . rw [if_pos hmultipart, if_pos hmultipart]
        cases Multipart.boundary? text with
        | none => rfl
        | some boundary => rfl
      . rw [if_neg hmultipart, if_neg hmultipart]

/-- Only the form and the files are read. -/
theorem exists_readForm (r : Request) : ∃ form files, r.readForm = { r with form, files } := by
  cases hfirst : (r.headers.values .contentType).head? with
  | none =>
    have hnone : r.contentType? = none := by rw [contentType?_eq, hfirst, Option.bind_none]
    unfold readForm
    rw [hnone]
    exact ⟨_, _, rfl⟩
  | some first =>
    rw [readForm_eq hfirst]
    cases FormReading.under first with
    | urlencoded => exact ⟨_, _, rfl⟩
    | multipart boundary => exact ⟨_, _, rfl⟩
    | unread => exact ⟨_, _, rfl⟩

theorem headers_withBody (r : Request) (body : Bytes) : (r.withBody body).headers = r.headers := by
  obtain ⟨form, files, heq⟩ := exists_readForm { r with body }
  unfold withBody
  rw [heq]

theorem body_withBody (r : Request) (body : Bytes) : (r.withBody body).body = body := by
  obtain ⟨form, files, heq⟩ := exists_readForm { r with body }
  unfold withBody
  rw [heq]

theorem form_withHeader (r : Request) (name value : String) : (r.withHeader name value).form = r.form := by
  unfold withHeader
  split <;> rfl

theorem values_withHeader (r : Request) (name value : String) :
    (r.withHeader name value).headers.values .contentType
      =
    r.headers.values .contentType ++ (BuildStep.header name value).contentType?.toList := by
  have hstep : (BuildStep.header name value).contentType?
      = if HeaderName.ofString? name = some .contentType then headerValue? value else none := rfl
  unfold withHeader
  rw [hstep]
  cases HeaderName.ofString? name with
  | none => simp
  | some found =>
    cases headerValue? value with
    | none => simp
    | some bytes =>
      dsimp only
      rw [Headers.values_append]
      by_cases hfound : found = .contentType <;> simp [hfound]

theorem values_withJson (r : Request) (value : Json) :
    (r.withJson value).headers.values .contentType = r.headers.values .contentType ++ [Text.utf8 jsonType] := by
  have hvalue : headerValue? jsonType = some (Text.utf8 jsonType) := by decide +kernel
  unfold withJson
  rw [headers_withBody, values_withHeader_contentType r hvalue]

theorem values_withForm (r : Request) (pairs : List (String × String)) :
    (r.withForm pairs).headers.values .contentType = r.headers.values .contentType ++ [Text.utf8 urlencodedType] := by
  have hvalue : headerValue? urlencodedType = some (Text.utf8 urlencodedType) := by decide +kernel
  unfold withForm
  rw [headers_withBody, values_withHeader_contentType r hvalue]

/-- Every step adds its content type behind those that are there. -/
theorem values_apply (step : BuildStep) (r : Request) :
    (step.apply r).headers.values .contentType = r.headers.values .contentType ++ step.contentType?.toList := by
  cases step with
  | header name value => exact values_withHeader r name value
  | body bytes =>
    rw [BuildStep.apply, headers_withBody]
    simp [BuildStep.contentType?]
  | json value => exact values_withJson r value
  | form pairs => exact values_withForm r pairs
  | file upload => simp [BuildStep.apply, BuildStep.contentType?, withFile]

theorem values_built (method : Method) (uri : String) (steps : List BuildStep) :
    (built method uri steps).headers.values .contentType = steps.filterMap BuildStep.contentType? := by
  induction steps using List.reverseRecOn with
  | nil =>
    unfold built
    rw [List.foldl_nil, headers_ofUri]
    rfl
  | append_singleton steps step ih =>
    unfold built at ih ⊢
    rw [List.foldl_append, List.foldl_cons, List.foldl_nil, values_apply, ih, List.filterMap_append]
    cases hstep : step.contentType? <;> simp [hstep]

end Request

/-! ## The body that is set last -/

theorem under_jsonType : BodyKind.under (Text.utf8 jsonType) = .json := by
  have hmedia : mediaType jsonType = jsonType := by decide +kernel
  have hvisible : visibleText? (Text.utf8 jsonType) = some jsonType := by decide +kernel
  unfold BodyKind.under BodyKind.ofContentType
  rw [hvisible]
  simp [hmedia, sameWord_self]

theorem under_urlencodedType :
    BodyKind.under (Text.utf8 urlencodedType) = .form ∧ FormReading.under (Text.utf8 urlencodedType) = .urlencoded := by
  have hjson : Multipart.sameWord urlencodedType jsonType = false := by decide +kernel
  unfold BodyKind.under BodyKind.ofContentType FormReading.under
  rw [visibleText?_urlencodedType]
  simp [mediaType_urlencodedType, hjson, sameWord_self]

namespace Request

section
variable {r : Request} {first : Bytes}

theorem kind_eq (h : (r.headers.values .contentType).head? = some first) : r.kind = .under first := by
  unfold kind
  rw [contentType?_eq, h]
  rfl

theorem form_withBody (h : (r.headers.values .contentType).head? = some first) (body : Bytes) :
    (r.withBody body).form =
      match FormReading.under first with
      | .urlencoded => Urlencoded.parse (Text.ofUtf8Lossy body)
      | .multipart boundary => (Multipart.parse boundary body).fields
      | .unread => r.form := by
  unfold withBody
  rw [readForm_eq (r := { r with body }) h]
  cases FormReading.under first <;> rfl

/-- The content type of a JSON body counts only where there is no other. -/
theorem kind_withJson (r : Request) (value : Json) :
    (r.withJson value).kind = .under ((r.headers.values .contentType).head?.getD (Text.utf8 jsonType)) := by
  apply kind_eq
  rw [values_withJson, List.head?_append, List.head?_cons]
  cases (r.headers.values .contentType).head? <;> rfl

theorem head?_values_withForm (r : Request) (pairs : List (String × String)) :
    ((r.withForm pairs).headers.values .contentType).head?
      =
    some ((r.headers.values .contentType).head?.getD (Text.utf8 urlencodedType)) := by
  rw [values_withForm, List.head?_append, List.head?_cons]
  cases (r.headers.values .contentType).head? <;> rfl

/-- The pairs are read back only where the first content type says that they are urlencoded. -/
theorem form_withForm_eq (r : Request) (pairs : List (String × String)) :
    (r.withForm pairs).form =
      match FormReading.under ((r.headers.values .contentType).head?.getD (Text.utf8 urlencodedType)) with
      | .urlencoded => pairs
      | .multipart _ => []
      | .unread => r.form := by
  have hparse : ∀ boundary, (Multipart.parse boundary (Text.utf8 (Urlencoded.serialize pairs))).fields = [] := by
    intro boundary
    unfold Multipart.parse
    rw [Multipart.parts_of_notMem boundary (Urlencoded.return_notMem_utf8_serialize pairs)]
    rfl
  have hfirst := head?_values_withForm r pairs
  unfold withForm at hfirst ⊢
  rw [headers_withBody] at hfirst
  rw [form_withBody hfirst]
  cases FormReading.under ((r.headers.values .contentType).head?.getD (Text.utf8 urlencodedType)) with
  | urlencoded =>
    dsimp only
    rw [Text.ofUtf8Lossy_utf8, Urlencoded.parse_serialize]
  | multipart boundary => exact hparse boundary
  | unread => exact form_withHeader r _ _

end

/--
The body that is set last is there, but it counts as JSON or as a form only if no content type was added before or the
first that was added says so. The pairs of a form are read back if no content type was added before or the first is
the urlencoded one, none are read under a multipart type, and those from before are left under any other.
-/
theorem kind_of_last_body (method : Method) (uri : String) (steps : List BuildStep) :
    let r := built method uri steps
    let counted := (steps.filterMap BuildStep.contentType?).head?
    (∀ value, (r.withJson value).body = Text.utf8 value.compact ∧
      ((r.withJson value).kind = .json ↔ ∀ first ∈ counted, BodyKind.under first = .json)) ∧
    ∀ pairs, (r.withForm pairs).body = Text.utf8 (Urlencoded.serialize pairs) ∧
      ((r.withForm pairs).kind = .form ↔ ∀ first ∈ counted, BodyKind.under first = .form) ∧
      ((∀ first ∈ counted, FormReading.under first = .urlencoded) → (r.withForm pairs).form = pairs) ∧
      ∀ first ∈ counted,
        (∀ boundary, FormReading.under first = .multipart boundary → (r.withForm pairs).form = []) ∧
        (FormReading.under first = .unread → (r.withForm pairs).form = r.form) := by
  obtain ⟨hform, hread⟩ := under_urlencodedType
  intro r counted
  have hcounted : (r.headers.values .contentType).head? = counted := congrArg List.head? (values_built method uri steps)
  refine ⟨?_, ?_⟩
  . intro value
    refine ⟨body_withBody _ _, ?_⟩
    rw [kind_withJson, hcounted, Option.forall_mem_apply_eq_iff_getD under_jsonType]
  . intro pairs
    refine ⟨body_withBody _ _, ?_, ?_, ?_⟩
    . rw [kind_eq (head?_values_withForm r pairs), hcounted, Option.forall_mem_apply_eq_iff_getD hform]
    . intro h
      rw [Option.forall_mem_apply_eq_iff_getD hread] at h
      rw [form_withForm_eq, hcounted, h]
    . intro first hfirst
      have hgetD : counted.getD (Text.utf8 urlencodedType) = first := by
        rw [Option.mem_def.1 hfirst, Option.getD_some]
      rw [form_withForm_eq, hcounted, hgetD]
      constructor
      . intro boundary h
        rw [h]
      . intro h
        rw [h]

/-- A JSON body behind another content type does not count as JSON. -/
theorem kind_withJson_of_plain :
    let r := built ⟨"POST"⟩ "/" [.header "content-type" "text/plain"]
    (r.withJson (.object [("a", .number (.int 1))])).kind = .other := by
  have hmedia : mediaType plainType = plainType := by decide +kernel
  have hvisible : visibleText? (Text.utf8 plainType) = some plainType := by decide +kernel
  have hjson : Multipart.sameWord plainType jsonType = false := by decide +kernel
  have hurlencoded : Multipart.sameWord plainType urlencodedType = false := by decide +kernel
  have hmultipart : Multipart.sameWord plainType multipartType = false := by decide +kernel
  intro r
  have hfirst : (r.headers.values .contentType).head? = some (Text.utf8 plainType) := by decide +kernel
  rw [kind_withJson, hfirst, Option.getD_some]
  unfold BodyKind.under BodyKind.ofContentType
  rw [hvisible]
  simp [hmedia, hjson, hurlencoded, hmultipart]

end Request

end Signpost.Http
