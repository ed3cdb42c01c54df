import Mathlib.Data.Bool.AllAny
import Signpost.Proofs.Http.Disposition

/-!
This module contains what a request carries when its body is a multipart form: the fields and the files that the
form was written from.
-/

namespace Signpost.Http

open Multipart

/-! ## Visible headers -/

theorem Multipart.IsVisible.toNat {c : Char} (h : IsVisible c) : c.toNat = 0x09 ∨ 0x20 ≤ c.toNat ∧ c.toNat < 0x7F := by
  cases h with
  | inl htab => exact .inl (htab ▸ rfl)
  | inr hprintable => exact .inr hprintable

theorem Multipart.IsVisible.toNat_ofNat {c : Char} (h : IsVisible c) : (UInt8.ofNat c.toNat).toNat = c.toNat := by
  have hnat := h.toNat
  exact Text.toNat_ofNat_of_lt (by omega)

theorem isVisible_iff {b : UInt8} : isVisible b = true ↔ b.toNat = 0x09 ∨ 0x20 ≤ b.toNat ∧ b.toNat < 0x7F := by
  simp [isVisible, ← UInt8.toNat_inj, UInt8.le_iff_toNat_le, UInt8.lt_iff_toNat_lt]

theorem isValueByte_of_isVisible {b : UInt8} (h : isVisible b = true) : isValueByte b = true := by
  rw [isVisible_iff] at h
  simp only [isValueByte, Bool.or_eq_true, Bool.and_eq_true, beq_iff_eq, bne_iff_ne, decide_eq_true_eq,
    ne_eq, ← UInt8.toNat_inj, UInt8.le_iff_toNat_le]
  have htab : (0x09 : UInt8).toNat = 0x09 := rfl
  have hspace : (0x20 : UInt8).toNat = 0x20 := rfl
  have hdelete : (0x7F : UInt8).toNat = 0x7F := rfl
  omega

section
variable {s : String} (h : ∀ c ∈ s.toList, IsVisible c)

include h

theorem utf8_of_visible : Text.utf8 s = s.toList.map fun c => UInt8.ofNat c.toNat := by
  apply Text.utf8_of_ascii
  intro c hc
  have hvisible := (h c hc).toNat
  omega

theorem isVisible_utf8 : ∀ b ∈ Text.utf8 s, isVisible b = true := by
  rw [utf8_of_visible h, List.forall_mem_map]
  intro c hc
  rw [isVisible_iff, (h c hc).toNat_ofNat]
  exact (h c hc).toNat

theorem headerValue?_of_visible : headerValue? s = some (Text.utf8 s) := by
  have hall : (Text.utf8 s).all isValueByte = true := by
    rw [List.all_eq_true]
    intro b hb
    exact isValueByte_of_isVisible (isVisible_utf8 h b hb)
  unfold headerValue?
  rw [if_pos hall]

theorem visibleText?_utf8 : visibleText? (Text.utf8 s) = some s := by
  have hall : (Text.utf8 s).all isVisible = true := by
    rw [List.all_eq_true]
    exact isVisible_utf8 h
  have hchars : (Text.utf8 s).map (fun b => Char.ofNat b.toNat) = s.toList := by
    have hchar : ∀ c ∈ s.toList, Char.ofNat (UInt8.ofNat c.toNat).toNat = c := by
      intro c hc
      rw [(h c hc).toNat_ofNat, Char.ofNat_toNat]
    rw [utf8_of_visible h, List.map_map]
    exact (List.map_congr_left hchar).trans (List.map_id s.toList)
  unfold visibleText?
  rw [if_pos hall, hchars, String.ofList_toList]

/-- A content type that is the first of its request is the one that counts. -/
theorem Request.contentType?_withHeader {r : Request} (hr : r.headers.contains HeaderName.contentType = false) :
    (r.withHeader HeaderName.contentType.text s).contentType? = some s := by
  rw [contentType?_eq, values_withHeader_contentType r (headerValue?_of_visible h), Headers.values_eq_nil_iff.2 hr]
  exact visibleText?_utf8 h

end

/-! ## Multipart forms -/

/-- The content type of a form with this boundary. -/
def Multipart.contentType (boundary : String) : String :=
  multipartType ++ "; boundary=" ++ boundary

section
variable {boundary : String}

theorem mediaType_contentType (boundary : String) : mediaType (contentType boundary) = multipartType := by
  have htrim : Text.trim multipartType = multipartType := by decide +kernel
  have htext : contentType boundary = multipartType ++ String.singleton ';' ++ (" boundary=" ++ boundary) := by
    have hmiddle : "; boundary=" = String.singleton ';' ++ " boundary=" := rfl
    unfold contentType
    rw [hmiddle]
    simp only [String.append_assoc]
  unfold mediaType
  rw [htext, Text.splitOnce_append (by decide), Option.map_some, Option.getD_some, htrim]

theorem boundary?_contentType (h : IsBoundary boundary) : boundary? (contentType boundary) = some boundary := by
  have hparameter : ∀ parameter ∈ [("boundary", boundary)], IsParameter parameter := by
    have hname : Text.trim "boundary" = "boundary" ∧ '=' ∉ "boundary".toList ∧ ';' ∉ "boundary".toList := by
      decide
    rw [List.forall_mem_singleton]
    exact ⟨hname.1, h.trimmed, hname.2.1, hname.2.2, h.separate⟩
  have htext : contentType boundary = writeParameters multipartType [("boundary", boundary)] := by
    rw [← String.toList_inj]
    simp [contentType, writeParameters, writeParameter]
  have hword : sameWord "boundary" "boundary" = true := sameWord_self "boundary"
  unfold boundary?
  rw [htext, parameter?_writeParameters (by decide) hparameter, List.findSome?_singleton, if_pos hword,
    unquote_of_notMem h.bare]

theorem visible_contentType (h : IsBoundary boundary) : ∀ c ∈ (contentType boundary).toList, IsVisible c := by
  have hfront : ∀ c ∈ (multipartType ++ "; boundary=").toList, IsVisible c := List.all_iff_forall_prop.1 (by decide)
  unfold contentType
  rw [String.toList_append, List.forall_mem_append]
  exact ⟨hfront, h.visible⟩

end

namespace Request

variable {r : Request} {boundary : String}

theorem readForm_of_multipart (hboundary : IsBoundary boundary) (h : r.contentType? = some (contentType boundary)) :
    r.readForm
      =
    { r with form := (parse boundary r.body).fields, files := (parse boundary r.body).files } := by
  have hurlencoded : ¬sameWord multipartType urlencodedType = true := by decide +kernel
  unfold readForm
  rw [h]
  dsimp only
  rw [mediaType_contentType, if_neg hurlencoded, if_pos (sameWord_self _), boundary?_contentType hboundary]

/-- A multipart form that is set as the body yields the fields and the files that it was written from. -/
theorem withBody_write (hboundary : IsBoundary boundary) {parts : List Part}
    (hparts : ∀ part ∈ parts, part.Fits boundary) (hr : r.headers.contains HeaderName.contentType = false)
    (epilogue : Bytes) :
    let sent := (r.withHeader HeaderName.contentType.text (contentType boundary)).withBody
      (write boundary parts ++ epilogue)
    sent.form = parts.filterMap Part.pair? ∧ sent.files = parts.filterMap Part.upload? := by
  have hcontent := contentType?_withHeader (visible_contentType hboundary) hr
  have hparse : parse boundary (write boundary parts ++ epilogue)
      = ⟨parts.filterMap Part.pair?, parts.filterMap Part.upload?⟩ := by
    unfold parse
    rw [parts_write hboundary hparts, ofParts_eq]
  intro sent
  unfold sent withBody
  rw [readForm_of_multipart hboundary]
  . dsimp only
    rw [hparse]
    exact ⟨rfl, rfl⟩
  . exact hcontent

/-- Line ends and blank lines at the edges of the data are kept. -/
theorem withBody_write_lineEnds :
    let parts := [.field "note" "", .file ⟨"doc", "a b.bin", some "text/plain; x=1", [0x0D, 0x0A, 0xFF, 0x0D, 0x0A]⟩,
      .field "text" "\r\nfirst\r\n\r\nlast\r\n", .file ⟨"doc", "", none, []⟩]
    let sent := ((ofUri ⟨"POST"⟩ "/").withHeader HeaderName.contentType.text (contentType "a-b c")).withBody
      (write "a-b c" parts ++ crlf)
    sent.form = [("note", ""), ("text", "\r\nfirst\r\n\r\nlast\r\n")] ∧
      sent.files
        = [⟨"doc", "a b.bin", some "text/plain; x=1", [0x0D, 0x0A, 0xFF, 0x0D, 0x0A]⟩, ⟨"doc", "", none, []⟩] := by
  have hboundary : IsBoundary "a-b c" := by decide
  apply withBody_write hboundary _ rfl crlf
  decide

end Request

end Signpost.Http
