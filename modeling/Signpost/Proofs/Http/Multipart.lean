import Signpost.Http.Request
import Signpost.Proofs.Http.Form
import Signpost.Proofs.Http.Head
import Signpost.Proofs.Text.Utf8

/-!
This module contains the writing of multipart forms: a form that is written between delimiters is read part by part.
-/

namespace Signpost.Http.Multipart

/-! ## Writing -/

namespace Part

/-- The name of the field that a part is for and, if the part is a file, the name of the file. -/
def names : Part → List (String × String)
  | .field name _ => [("name", name)]
  | .file upload => [("name", upload.field), ("filename", upload.filename)]

/-- The value that names a part in its head. -/
def disposition (part : Part) : String :=
  writeParameters "form-data" (part.names.map fun (key, name) => (key, quote name))

/-- The content type of a part, if one is given. -/
def contentType? : Part → Option String
  | .field .. => none
  | .file upload => upload.contentType

/-- The headers of a part. -/
def lines (part : Part) : List (String × String) :=
  ("Content-Disposition", part.disposition) :: part.contentType?.toList.map ("Content-Type", ·)

def data : Part → Bytes
  | .field _ text => Text.utf8 text
  | .file upload => upload.data

/-- A part as it stands between the line ends around it. -/
def write (part : Part) : Bytes :=
  Text.utf8 (writeHead part.lines) ++ (crlf ++ crlf) ++ part.data

/-- The pair that a field is. -/
def pair? : Part → Option (String × String)
  | .field name text => some (name, text)
  | .file _ => none

/-- The file that a part is. -/
def upload? : Part → Option Upload
  | .field .. => none
  | .file upload => some upload

end Part

/-- What stands after a delimiter: the parts that are left, each with a delimiter after it. -/
def writeAfter (boundary : String) : List Part → Bytes
  | [] => dashes
  | part :: parts => crlf ++ part.write ++ crlf ++ delimiter boundary ++ writeAfter boundary parts

/-- A form between delimiters. -/
def write (boundary : String) (parts : List Part) : Bytes :=
  delimiter boundary ++ writeAfter boundary parts

theorem ofParts_eq (parts : List Part) :
    Form.ofParts parts = ⟨parts.filterMap Part.pair?, parts.filterMap Part.upload?⟩ := by
  rfl

/-! ## What can be written -/

/-- A tab or a printable character of ASCII. -/
def IsVisible (c : Char) : Prop :=
  c = '\t' ∨ 0x20 ≤ c.toNat ∧ c.toNat < 0x7F

instance (c : Char) : Decidable (IsVisible c) :=
  inferInstanceAs (Decidable (_ ∨ _))

/-- A boundary that a content type can announce. -/
structure IsBoundary (boundary : String) : Prop where
  visible : ∀ c ∈ boundary.toList, IsVisible c
  trimmed : Text.trim boundary = boundary
  bare : '"' ∉ boundary.toList
  separate : ';' ∉ boundary.toList

/-- A text in which the delimiter of a boundary does not occur. -/
def Free (boundary s : String) : Prop :=
  ¬delimiter boundary <:+: Text.utf8 s

/-- A text that can stand between quotes. -/
structure IsQuotable (boundary s : String) : Prop where
  free : Free boundary s
  single : '\r' ∉ s.toList ∧ '\n' ∉ s.toList
  bare : '"' ∉ s.toList
  separate : ';' ∉ s.toList

/-- A text that can stand at the end of a line. -/
structure IsPlain (boundary s : String) : Prop where
  free : Free boundary s
  single : '\r' ∉ s.toList ∧ '\n' ∉ s.toList
  trimmed : Text.trim s = s

/-- A part that can be written: names between quotes, the content type at the end of a line. -/
structure Part.Stands (part : Part) : Prop where
  single : ∀ name ∈ part.names, '\r' ∉ name.2.toList ∧ '\n' ∉ name.2.toList
  bare : ∀ name ∈ part.names, '"' ∉ name.2.toList
  typed : ∀ contentType ∈ part.contentType?, ('\r' ∉ contentType.toList ∧ '\n' ∉ contentType.toList)
    ∧ Text.trim contentType = contentType

/-- A part behind which the delimiter that is written there is the first one. -/
def Part.Apart (boundary : String) (part : Part) : Prop :=
  ¬delimiter boundary <:+: crlf ++ part.write ++ crlf ++ (delimiter boundary).dropLast

/-- A part whose names, whose content type and whose data can stand in a form with this boundary. -/
structure Part.Fits (boundary : String) (part : Part) : Prop where
  named : ∀ name ∈ part.names, IsQuotable boundary name.2
  typed : ∀ contentType ∈ part.contentType?, IsPlain boundary contentType
  free : ¬delimiter boundary <:+: part.data

section
variable (boundary s : String) (part : Part)

instance : Decidable (IsBoundary boundary) :=
  have : Decidable (∀ c ∈ boundary.toList, IsVisible c) := List.decidableBAll _ _
  decidable_of_iff ((∀ c ∈ boundary.toList, IsVisible c) ∧ Text.trim boundary = boundary
      ∧ '"' ∉ boundary.toList ∧ ';' ∉ boundary.toList)
    ⟨fun h => ⟨h.1, h.2.1, h.2.2.1, h.2.2.2⟩, fun h => ⟨h.visible, h.trimmed, h.bare, h.separate⟩⟩

instance : Decidable (Free boundary s) :=
  inferInstanceAs (Decidable (¬_))

instance : Decidable (IsQuotable boundary s) :=
  decidable_of_iff (Free boundary s ∧ ('\r' ∉ s.toList ∧ '\n' ∉ s.toList) ∧ '"' ∉ s.toList ∧ ';' ∉ s.toList)
    ⟨fun h => ⟨h.1, h.2.1, h.2.2.1, h.2.2.2⟩, fun h => ⟨h.free, h.single, h.bare, h.separate⟩⟩

instance : Decidable (IsPlain boundary s) :=
  decidable_of_iff (Free boundary s ∧ ('\r' ∉ s.toList ∧ '\n' ∉ s.toList) ∧ Text.trim s = s)
    ⟨fun h => ⟨h.1, h.2.1, h.2.2⟩, fun h => ⟨h.free, h.single, h.trimmed⟩⟩

instance : Decidable part.Stands :=
  decidable_of_iff ((∀ name ∈ part.names, '\r' ∉ name.2.toList ∧ '\n' ∉ name.2.toList)
      ∧ (∀ name ∈ part.names, '"' ∉ name.2.toList)
      ∧ ∀ contentType ∈ part.contentType?, ('\r' ∉ contentType.toList ∧ '\n' ∉ contentType.toList)
        ∧ Text.trim contentType = contentType)
    ⟨fun h => ⟨h.1, h.2.1, h.2.2⟩, fun h => ⟨h.single, h.bare, h.typed⟩⟩

instance : Decidable (part.Apart boundary) :=
  inferInstanceAs (Decidable (¬_))

instance : Decidable (part.Fits boundary) :=
  decidable_of_iff ((∀ name ∈ part.names, IsQuotable boundary name.2)
      ∧ (∀ contentType ∈ part.contentType?, IsPlain boundary contentType) ∧ ¬delimiter boundary <:+: part.data)
    ⟨fun h => ⟨h.1, h.2.1, h.2.2⟩, fun h => ⟨h.named, h.typed, h.free⟩⟩

end

/-! ## The delimiter -/

theorem delimiter_eq (boundary : String) : delimiter boundary = 0x2D :: 0x2D :: Text.utf8 boundary := by
  rfl

section
variable {boundary : String}

theorem notMem_delimiter {c : Char} (hc : c.toNat < 0x80) (hdash : c ≠ '-') (hnot : c ∉ boundary.toList) :
    UInt8.ofNat c.toNat ∉ delimiter boundary := by
  have hbyte : UInt8.ofNat c.toNat ≠ 0x2D := by
    intro heq
    have hnat := congrArg UInt8.toNat heq
    rw [Text.toNat_ofNat_of_lt (by omega)] at hnat
    apply hdash
    exact Char.toNat_inj.1 hnat
  rw [delimiter_eq, List.mem_cons, List.mem_cons, not_or, not_or]
  exact ⟨hbyte, hbyte, fun hmem => hnot (Text.mem_of_mem_utf8 hc hmem)⟩

/-- The delimiter of a boundary has no line ends and no quotes. -/
theorem IsBoundary.notMem_delimiter (h : IsBoundary boundary) {c : Char} (hc : c ∈ ['\r', '\n', '"']) :
    UInt8.ofNat c.toNat ∉ delimiter boundary := by
  have hinvisible : c ∉ boundary.toList := by
    intro hmem
    have hvisible := h.visible c hmem
    simp only [List.mem_cons, List.not_mem_nil, or_false] at hc
    obtain rfl | rfl | rfl := hc
    . revert hvisible
      decide
    . revert hvisible
      decide
    . exact h.bare hmem
  simp only [List.mem_cons, List.not_mem_nil, or_false] at hc
  obtain rfl | rfl | rfl := hc
  all_goals exact Multipart.notMem_delimiter (by decide) (by decide) hinvisible

theorem free_mark_iff {mark : Char} (hascii : mark.toNat < 0x80)
    (hmark : UInt8.ofNat mark.toNat ∉ delimiter boundary) (s t : String) :
    Free boundary (s ++ String.singleton mark ++ t) ↔ Free boundary s ∧ Free boundary t := by
  unfold Free
  rw [Text.utf8_append_singleton_append s t hascii, Text.infix_append_cons_iff hmark, not_or]

/-- A text without two dashes in a row has no delimiter. -/
theorem free_of_dashes {s : String} (h : ¬dashes <:+: Text.utf8 s) : Free boundary s := by
  intro hinfix
  apply h
  have hdashes : dashes <+: delimiter boundary := List.prefix_append dashes (Text.utf8 boundary)
  exact hdashes.isInfix.trans hinfix

theorem IsBoundary.free_quote_iff (h : IsBoundary boundary) (s name t : String) :
    Free boundary (s ++ quote name ++ t) ↔ Free boundary s ∧ Free boundary name ∧ Free boundary t := by
  have hquote := h.notMem_delimiter (c := '"') (by decide)
  have htext : s ++ quote name ++ t = s ++ String.singleton '"' ++ (name ++ String.singleton '"' ++ t) := by
    have hmark : "\"" = String.singleton '"' := rfl
    unfold quote
    rw [hmark]
    simp only [String.append_assoc]
  rw [htext, free_mark_iff (by decide) hquote, free_mark_iff (by decide) hquote]

/-- No delimiter reaches over a line end. -/
theorem IsBoundary.infix_lineEnd_iff (h : IsBoundary boundary) (xs ys : Bytes) :
    delimiter boundary <:+: xs ++ (crlf ++ ys) ↔ delimiter boundary <:+: xs ∨ delimiter boundary <:+: ys := by
  have hreturn : 0x0D ∉ delimiter boundary := h.notMem_delimiter (c := '\r') (by decide)
  have hfeed : 0x0A ∉ delimiter boundary := h.notMem_delimiter (c := '\n') (by decide)
  have hbytes : xs ++ (crlf ++ ys) = xs ++ 0x0D :: ([] ++ 0x0A :: ys) := rfl
  rw [hbytes, Text.infix_append_cons_iff hreturn, Text.infix_append_cons_iff hfeed, List.infix_nil]
  simp [delimiter_ne_nil]

theorem IsBoundary.free_lines_iff (h : IsBoundary boundary) (s t : String) :
    Free boundary (s ++ "\r\n" ++ t) ↔ Free boundary s ∧ Free boundary t := by
  have hlineEnd : Text.utf8 "\r\n" = crlf := by decide
  unfold Free
  rw [Text.utf8_append, Text.utf8_append, hlineEnd, List.append_assoc, h.infix_lineEnd_iff, not_or]

/-- The delimiter does not reach back over the name of the header. -/
theorem free_contentType {contentType : String} (h : Free boundary contentType) :
    Free boundary (writeLine ("Content-Type", contentType)) := by
  have hdashes : ¬[0x2D, 0x2D] <:+: Text.utf8 ("Content-Type" ++ ": ") := by decide
  have hlast : (Text.utf8 ("Content-Type" ++ ": ")).getLast? ≠ some 0x2D := by decide
  intro hinfix
  apply h
  unfold writeLine at hinfix
  rw [Text.utf8_append, delimiter_eq] at hinfix
  exact Text.infix_of_infix_append hdashes hlast hinfix

end

/-! ## Heads -/

section
variable {boundary : String} {part : Part}

theorem Part.key_of_mem_names (h : name ∈ part.names) : name.1 = "name" ∨ name.1 = "filename" := by
  cases part with
  | field text =>
    rw [Part.names, List.mem_singleton] at h
    exact .inl (h ▸ rfl)
  | file upload =>
    rw [Part.names, List.mem_cons, List.mem_singleton] at h
    cases h with
    | inl hfield => exact .inl (hfield ▸ rfl)
    | inr hfile => exact .inr (hfile ▸ rfl)

theorem Part.trim_disposition (part : Part) : Text.trim part.disposition = part.disposition := by
  have hfirst : part.disposition.toList.head? = some 'f' := by
    cases part <;> simp [disposition, names, writeParameters, writeParameter]
  have hlast : part.disposition.toList.getLast? = some '"' := by
    cases part <;> simp [disposition, names, writeParameters, writeParameter, quote, List.getLast?_cons]
  apply Text.trim_of_ends hfirst hlast
  . decide
  . decide

theorem Part.Fits.stands (h : part.Fits boundary) : part.Stands where
  single name hname := (h.named name hname).single
  bare name hname := (h.named name hname).bare
  typed contentType htype := ⟨(h.typed contentType htype).single, (h.typed contentType htype).trimmed⟩

theorem Part.Fits.isQuotable_name (h : (Part.field name text).Fits boundary) : IsQuotable boundary name := by
  apply h.named ("name", name)
  simp [names]

theorem Part.Fits.isQuotable_upload (h : (Part.file upload).Fits boundary) :
    IsQuotable boundary upload.field ∧ IsQuotable boundary upload.filename := by
  constructor
  . apply h.named ("name", upload.field)
    simp [names]
  . apply h.named ("filename", upload.filename)
    simp [names]

theorem Part.Stands.notMem_disposition (h : part.Stands) :
    '\r' ∉ part.disposition.toList ∧ '\n' ∉ part.disposition.toList := by
  have hnames := h.single
  cases part with
  | field name text =>
    rw [names, List.forall_mem_singleton] at hnames
    simp [disposition, names, writeParameters, writeParameter, quote, hnames]
  | file upload =>
    rw [names, List.forall_mem_cons, List.forall_mem_singleton] at hnames
    simp [disposition, names, writeParameters, writeParameter, quote, hnames.1, hnames.2]

theorem Part.Stands.isLine (h : part.Stands) : ∀ line ∈ part.lines, IsLine line := by
  unfold lines
  rw [List.forall_mem_cons, List.forall_mem_map]
  constructor
  . have hname : Text.trim "Content-Disposition" = "Content-Disposition"
        ∧ ':' ∉ "Content-Disposition".toList ∧ '\n' ∉ "Content-Disposition".toList := by
      decide
    exact ⟨hname.1, part.trim_disposition, hname.2.1, hname.2.2, h.notMem_disposition.2⟩
  . intro contentType htype
    have hname : Text.trim "Content-Type" = "Content-Type"
        ∧ ':' ∉ "Content-Type".toList ∧ '\n' ∉ "Content-Type".toList := by
      decide
    have hplain := h.typed contentType (Option.mem_toList.1 htype)
    exact ⟨hname.1, hplain.2, hname.2.1, hname.2.2, hplain.1.2⟩

theorem Part.Stands.notMem_writeLine (h : part.Stands) : ∀ line ∈ part.lines, '\r' ∉ (writeLine line).toList := by
  unfold lines
  rw [List.forall_mem_cons, List.forall_mem_map]
  constructor
  . simp [writeLine, h.notMem_disposition.1]
  . intro contentType htype
    have hplain := h.typed contentType (Option.mem_toList.1 htype)
    simp [writeLine, hplain.1.1]

theorem Part.Fits.free_disposition (h : part.Fits boundary) (hboundary : IsBoundary boundary) :
    Free boundary (writeLine ("Content-Disposition", part.disposition)) := by
  have hempty : Free boundary "" := free_of_dashes (by decide)
  have hfront : Free boundary "Content-Disposition: form-data; name=" := free_of_dashes (by decide)
  cases part with
  | field name text =>
    have htext : writeLine ("Content-Disposition", (Part.field name text).disposition)
        = "Content-Disposition: form-data; name=" ++ quote name ++ "" := by
      rw [← String.toList_inj]
      simp [writeLine, disposition, names, writeParameters, writeParameter]
    rw [htext, hboundary.free_quote_iff]
    exact ⟨hfront, h.isQuotable_name.free, hempty⟩
  | file upload =>
    have hmiddle : Free boundary "; filename=" := free_of_dashes (by decide)
    have htext : writeLine ("Content-Disposition", (Part.file upload).disposition)
        = "Content-Disposition: form-data; name=" ++ quote upload.field
          ++ ("; filename=" ++ quote upload.filename ++ "") := by
      rw [← String.toList_inj]
      simp [writeLine, disposition, names, writeParameters, writeParameter]
    rw [htext, hboundary.free_quote_iff, hboundary.free_quote_iff]
    exact ⟨hfront, h.isQuotable_upload.1.free, hmiddle, h.isQuotable_upload.2.free, hempty⟩

/-- No delimiter begins in the head of a part. -/
theorem Part.Fits.free_writeHead (h : part.Fits boundary) (hboundary : IsBoundary boundary) :
    Free boundary (writeHead part.lines) := by
  have hline := h.free_disposition hboundary
  unfold lines
  cases htype : part.contentType? with
  | none =>
    rw [Option.toList_none, List.map_nil, writeHead_singleton]
    exact hline
  | some contentType =>
    rw [Option.toList_some, List.map_singleton, writeHead_cons_cons, writeHead_singleton,
      hboundary.free_lines_iff]
    exact ⟨hline, free_contentType (h.typed contentType htype).free⟩

end

theorem utf8_writeLine_ne_nil (line : String × String) : Text.utf8 (writeLine line) ≠ [] := by
  have hcolon : Text.utf8 ": " ≠ [] := by decide
  unfold writeLine
  rw [Text.utf8_append, Text.utf8_append]
  simp [hcolon]

theorem notMem_of_return {line : String × String} (h : '\r' ∉ (writeLine line).toList) :
    0x0D ∉ Text.utf8 (writeLine line) := by
  intro hmem
  exact h (Text.mem_of_mem_utf8 (c := '\r') (by decide) hmem)

/-- A head does not begin with a line end. -/
theorem not_return_prefix {line : String × String} (h : '\r' ∉ (writeLine line).toList)
    (lines : List (String × String)) (bytes rest : Bytes) :
    ¬0x0D :: bytes <+: Text.utf8 (writeHead (line :: lines)) ++ rest := by
  have hreturn := notMem_of_return h
  obtain ⟨more, hmore⟩ := exists_writeHead_cons line lines
  intro hbegin
  rw [hmore, Text.utf8_append, List.append_assoc] at hbegin
  cases hline : Text.utf8 (writeLine line) with
  | nil => exact utf8_writeLine_ne_nil line hline
  | cons b others =>
    rw [hline, List.cons_append, List.cons_prefix_cons] at hbegin
    rw [hline, ← hbegin.1] at hreturn
    exact hreturn List.mem_cons_self

/-- No empty line stands before the end of a head. -/
theorem head_complete {lines : List (String × String)} (h : ∀ line ∈ lines, '\r' ∉ (writeLine line).toList) :
    ¬crlf ++ crlf <:+: Text.utf8 (writeHead lines) ++ (crlf ++ crlf).dropLast := by
  have hempty : crlf ++ crlf = [0x0D, 0x0A, 0x0D, 0x0A] := rfl
  rw [hempty]
  induction lines with
  | nil => decide
  | cons line lines ih =>
    rw [List.forall_mem_cons] at h
    have hline := notMem_of_return h.1
    intro hinfix
    cases lines with
    | nil =>
      rw [writeHead_singleton] at hinfix
      have hend := Text.infix_of_notMem hline hinfix
      revert hend
      decide
    | cons next lines =>
      have hlineEnd : Text.utf8 "\r\n" = [0x0D, 0x0A] := by decide
      rw [writeHead_cons_cons, Text.utf8_append, Text.utf8_append, List.append_assoc, List.append_assoc,
        hlineEnd] at hinfix
      have hrest := Text.infix_of_notMem hline hinfix
      rw [List.cons_append, List.infix_cons_iff] at hrest
      cases hrest with
      | inl hbegin =>
        rw [List.cons_append, List.nil_append, List.cons_prefix_cons, List.cons_prefix_cons] at hbegin
        exact not_return_prefix (h.2 next List.mem_cons_self) _ _ _ hbegin.2.2
      | inr hlater =>
        have hfeed : 0x0D ∉ [(0x0A : UInt8)] := by decide
        apply ih h.2
        exact Text.infix_of_notMem hfeed hlater

/-! ## Reading -/

theorem dropLeadingLineEnd_append (bytes : Bytes) : dropLeadingLineEnd (crlf ++ bytes) = bytes := by
  unfold dropLeadingLineEnd
  rw [Text.afterLead_append, Option.getD_some]

theorem dropTrailingLineEnd_append (bytes : Bytes) : dropTrailingLineEnd (bytes ++ crlf) = bytes := by
  unfold dropTrailingLineEnd
  rw [List.reverse_append, Text.afterLead_append, Option.map_some, Option.getD_some, List.reverse_reverse]

section
variable {boundary : String} {part : Part}

theorem Part.Stands.headerOf?_disposition (h : part.Stands) :
    headerOf? "content-disposition" (writeHead part.lines) = some part.disposition := by
  have hdisposition : sameWord "Content-Disposition" "content-disposition" = true := by
    rw [sameWord_iff]
    decide
  have htype : ¬sameWord "Content-Type" "content-disposition" = true := by
    rw [sameWord_iff]
    decide
  rw [headerOf?_writeHead h.isLine]
  unfold lines
  cases part.contentType? with
  | none => simp [hdisposition]
  | some contentType => simp [hdisposition, htype]

theorem Part.Stands.headerOf?_contentType (h : part.Stands) :
    headerOf? "content-type" (writeHead part.lines) = part.contentType? := by
  have hdisposition : ¬sameWord "Content-Disposition" "content-type" = true := by
    rw [sameWord_iff]
    decide
  have htype : sameWord "Content-Type" "content-type" = true := by
    rw [sameWord_iff]
    decide
  rw [headerOf?_writeHead h.isLine]
  unfold lines
  cases part.contentType? with
  | none => simp [hdisposition]
  | some contentType => simp [hdisposition, htype]

/-- What is read of a part that stands between line ends, the second of which may be left out. -/
theorem Part.Stands.part?_eq (h : part.Stands) {bytes data : Bytes}
    (hbytes : dropTrailingLineEnd bytes = Text.utf8 (writeHead part.lines) ++ (crlf ++ crlf) ++ data) :
    part? (crlf ++ bytes)
      =
    (parameter? (· == "name") part.disposition).map fun field =>
      match parameter? (· == "filename") part.disposition with
      | some filename => .file ⟨field, filename, part.contentType?, data⟩
      | none => .field field (Text.ofUtf8Lossy data) := by
  unfold part?
  rw [dropLeadingLineEnd_append, hbytes]
  dsimp only
  rw [Text.cutAt_append (head_complete h.notMem_writeLine), Option.bind_some, Text.ofUtf8Lossy_utf8,
    h.headerOf?_disposition, h.headerOf?_contentType]
  rfl

theorem Part.Fits.apart (h : part.Fits boundary) (hboundary : IsBoundary boundary) : part.Apart boundary := by
  have hlines : crlf ++ part.write ++ crlf ++ (delimiter boundary).dropLast
      = [] ++ (crlf ++ (Text.utf8 (writeHead part.lines) ++ (crlf ++ ([] ++ (crlf ++ (part.data
        ++ (crlf ++ (delimiter boundary).dropLast))))))) := by
    simp [write]
  have hshort := Text.not_infix_dropLast (delimiter_ne_nil boundary)
  unfold Apart
  rw [hlines, hboundary.infix_lineEnd_iff, hboundary.infix_lineEnd_iff, hboundary.infix_lineEnd_iff,
    hboundary.infix_lineEnd_iff, List.infix_nil]
  simp only [delimiter_ne_nil, h.free, hshort, false_or, or_false]
  exact h.free_writeHead hboundary

end

theorem partsAfter_of_cutAt {delimiter bytes rest more : Bytes} (nonempty : delimiter ≠ [])
    (hdashes : (Text.afterLead dashes bytes).isSome = false)
    (hcut : Text.cutAt delimiter bytes = some (rest, more)) :
    partsAfter delimiter nonempty bytes = (part? rest).toList ++ partsAfter delimiter nonempty more := by
  rw [partsAfter, hdashes, if_neg Bool.false_ne_true]
  split
  . next heq =>
    rw [hcut, Option.some.injEq, Prod.mk.injEq] at heq
    rw [heq.1, heq.2]
  . next heq => simp [hcut] at heq

section
variable {boundary : String} {parts : List Part} {read : Part → Part}

/-- The parts that are written between delimiters are read one by one. -/
theorem partsAfter_writeAfter (hread : ∀ part ∈ parts, part? (crlf ++ (part.write ++ crlf)) = some (read part))
    (h : ∀ part ∈ parts, part.Apart boundary) (epilogue : Bytes) :
    partsAfter (delimiter boundary) (delimiter_ne_nil boundary) (writeAfter boundary parts ++ epilogue)
      =
    parts.map read := by
  induction parts with
  | nil =>
    have hend : Text.afterLead dashes (writeAfter boundary [] ++ epilogue) = some epilogue :=
      Text.afterLead_append dashes epilogue
    rw [partsAfter, hend, Option.isSome_some, if_pos rfl]
    rfl
  | cons part parts ih =>
    rw [List.forall_mem_cons] at hread h
    have hafter : writeAfter boundary (part :: parts) ++ epilogue
        = crlf ++ part.write ++ crlf ++ delimiter boundary ++ (writeAfter boundary parts ++ epilogue) := by
      rw [writeAfter, List.append_assoc]
    have hcut : Text.cutAt (delimiter boundary) (writeAfter boundary (part :: parts) ++ epilogue)
        = some (crlf ++ part.write ++ crlf, writeAfter boundary parts ++ epilogue) := by
      rw [hafter]
      exact Text.cutAt_append h.1
    have hdashes : (Text.afterLead dashes (writeAfter boundary (part :: parts) ++ epilogue)).isSome = false := by
      simp [hafter, Text.afterLead, dashes, crlf]
    rw [partsAfter_of_cutAt (delimiter_ne_nil boundary) hdashes hcut, ih hread.2 h.2, List.append_assoc, hread.1]
    rfl

theorem parts_write_eq_map (hread : ∀ part ∈ parts, part? (crlf ++ (part.write ++ crlf)) = some (read part))
    (h : ∀ part ∈ parts, part.Apart boundary) (epilogue : Bytes) :
    Multipart.parts boundary (write boundary parts ++ epilogue) = parts.map read := by
  have hcut : Text.cutAt (delimiter boundary) (write boundary parts ++ epilogue)
      = some ([], writeAfter boundary parts ++ epilogue) := by
    unfold write
    rw [List.append_assoc, ← List.nil_append (delimiter boundary ++ _), ← List.append_assoc]
    apply Text.cutAt_append
    rw [List.nil_append]
    exact Text.not_infix_dropLast (delimiter_ne_nil boundary)
  unfold Multipart.parts
  rw [hcut]
  exact partsAfter_writeAfter hread h epilogue

end

end Signpost.Http.Multipart
