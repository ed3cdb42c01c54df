import Signpost.Proofs.Http.Multipart

/-!
This module contains what is read of the names of a part: its parameters are cut at every semicolon, also at those
between quotes. A part whose names have no semicolons is read as it was written.
-/

namespace Signpost.Http.Multipart

/-- What is read of a text between quotes: what stands before its first semicolon and before the blanks there. -/
def upToSemicolon (s : String) : String :=
  match Text.splitOnce ';' s with
  | some (front, _) => String.ofList (front.toList.rdropWhile Text.isBlank)
  | none => s

/-- The value of a parameter that is found behind a semicolon of a text between quotes. -/
def inner? (p : String → Bool) (s : String) : Option String :=
  (Text.splitOnce ';' s).bind fun (_, rest) => (Text.split ';' (rest ++ "\"")).findSome? (readParameter? p)

/-- The part that is read where a part is written. -/
def Part.reread : Part → Part
  | .field name text =>
    match inner? (· == "filename") name with
    | some filename => .file ⟨upToSemicolon name, filename, none, Text.utf8 text⟩
    | none => .field (upToSemicolon name) text
  | .file upload =>
    .file { upload with
      field := upToSemicolon upload.field
      filename := (inner? (· == "filename") upload.field).getD (upToSemicolon upload.filename) }

/-- The part with other data. -/
def Part.withData (data : Bytes) : Part → Part
  | .field name _ => .field name (Text.ofUtf8Lossy data)
  | .file upload => .file { upload with data := data }

theorem Part.withData_self (part : Part) : part.withData part.data = part := by
  cases part with
  | field name text => rw [withData, data, Text.ofUtf8Lossy_utf8]
  | file upload => rfl

theorem Part.data_reread (part : Part) : part.reread.data = part.data := by
  cases part with
  | field name text =>
    rw [reread]
    split <;> rfl
  | file upload => rfl

/-! ## Up to the semicolon -/

theorem exists_semicolon {s : String} (h : ';' ∈ s.toList) :
    ∃ front rest, s = front ++ String.singleton ';' ++ rest ∧ ';' ∉ front.toList := by
  obtain ⟨before, after, hlist, hbefore⟩ := List.eq_append_cons_of_mem h
  refine ⟨String.ofList before, String.ofList after, ?_, ?_⟩
  . rw [← String.toList_inj, hlist]
    simp
  . rwa [String.toList_ofList]

theorem upToSemicolon_of_notMem {s : String} (h : ';' ∉ s.toList) : upToSemicolon s = s := by
  unfold upToSemicolon
  rw [Text.splitOnce_of_notMem h]

theorem upToSemicolon_append {front : String} (h : ';' ∉ front.toList) (rest : String) :
    upToSemicolon (front ++ String.singleton ';' ++ rest)
      =
    String.ofList (front.toList.rdropWhile Text.isBlank) := by
  unfold upToSemicolon
  rw [Text.splitOnce_append h]

theorem upToSemicolon_eq_self_iff {s : String} : upToSemicolon s = s ↔ ';' ∉ s.toList := by
  constructor
  . intro heq hmem
    obtain ⟨front, rest, rfl, hfront⟩ := exists_semicolon hmem
    rw [upToSemicolon_append hfront] at heq
    rw [← heq, String.toList_ofList] at hmem
    exact hfront ((List.rdropWhile_prefix _ _).subset hmem)
  . apply upToSemicolon_of_notMem

theorem inner?_of_notMem {s : String} (h : ';' ∉ s.toList) (p : String → Bool) : inner? p s = none := by
  unfold inner?
  rw [Text.splitOnce_of_notMem h, Option.bind_none]

theorem inner?_append {front : String} (h : ';' ∉ front.toList) (rest : String) (p : String → Bool) :
    inner? p (front ++ String.singleton ';' ++ rest)
      =
    (Text.split ';' (rest ++ "\"")).findSome? (readParameter? p) := by
  unfold inner?
  rw [Text.splitOnce_append h, Option.bind_some]

/-- A part is read as it is written exactly if its names have no semicolons. -/
theorem Part.reread_eq_self_iff (part : Part) : part.reread = part ↔ ∀ name ∈ part.names, ';' ∉ name.2.toList := by
  cases part with
  | field name text =>
    rw [names, List.forall_mem_singleton, ← upToSemicolon_eq_self_iff, reread]
    constructor
    . intro h
      split at h
      . cases h
      . exact (Part.field.inj h).1
    . intro h
      rw [inner?_of_notMem (upToSemicolon_eq_self_iff.1 h)]
      dsimp only
      rw [h]
  | file upload =>
    rw [names, List.forall_mem_cons, List.forall_mem_singleton, ← upToSemicolon_eq_self_iff,
      ← upToSemicolon_eq_self_iff, reread]
    constructor
    . intro h
      have hupload := Part.file.inj h
      have hfield : upToSemicolon upload.field = upload.field := congrArg Upload.field hupload
      have hfilename := congrArg Upload.filename hupload
      dsimp only at hfilename
      rw [inner?_of_notMem (upToSemicolon_eq_self_iff.1 hfield), Option.getD_none] at hfilename
      exact ⟨hfield, hfilename⟩
    . intro h
      rw [inner?_of_notMem (upToSemicolon_eq_self_iff.1 h.1), Option.getD_none, h.1, h.2]

/-! ## Parameters with semicolons -/

/-- A word that can name a parameter. -/
structure IsKey (key : String) : Prop where
  trimmed : Text.trim key = key
  nameEnds : '=' ∉ key.toList
  separate : ';' ∉ key.toList

theorem Part.isKey_of_mem_names {part : Part} (h : name ∈ part.names) : IsKey name.1 := by
  have hkey : Text.trim name.1 = name.1 ∧ '=' ∉ name.1.toList ∧ ';' ∉ name.1.toList := by
    cases Part.key_of_mem_names h with
    | inl heq =>
      rw [heq]
      decide
    | inr heq =>
      rw [heq]
      decide
  exact ⟨hkey.1, hkey.2.1, hkey.2.2⟩

section
variable {key s : String} {p : String → Bool}

theorem readParameter?_append_blanks {blanks : String} (h : ∀ c ∈ blanks.toList, Text.isBlank c = true)
    (parameter : String) : readParameter? p (parameter ++ blanks) = readParameter? p parameter := by
  unfold readParameter?
  rw [Text.trim_append_right h]

theorem trim_openingQuote (h : s.toList.rdropWhile Text.isBlank = s.toList) : Text.trim ("\"" ++ s) = "\"" ++ s := by
  rw [Text.rdropWhile_eq_self_iff_getLast?] at h
  rw [Text.trim_eq_self_iff, Text.trimList_eq_self_iff]
  have hlist : ("\"" ++ s).toList = '"' :: s.toList := by simp
  rw [hlist, List.head?_cons, List.getLast?_cons]
  constructor
  . intro c hc
    rw [← Option.mem_some.1 hc]
    decide
  . intro c hc
    rw [← Option.mem_some.1 hc]
    cases hlast : s.toList.getLast? with
    | none => decide
    | some d => exact h d hlast

theorem unquote_openingQuote (h : '"' ∉ s.toList) : unquote ("\"" ++ s) = s := by
  have hquote : ∀ c ∈ "\"".toList, isQuote c = true := List.forall_mem_singleton.2 rfl
  have hunquote := unquote_of_notMem h
  unfold unquote at hunquote ⊢
  rw [String.toList_append, Text.trimList_append_left hquote, hunquote]

/-- A value that begins with a quote but does not end with one is read without the blanks at its end. -/
theorem readParameter?_openingQuote (hkey : IsKey key) (hbare : '"' ∉ s.toList) (hseparate : ';' ∉ s.toList) :
    readParameter? p (writeParameter (key, "\"" ++ s))
      =
    if p key then some (String.ofList (s.toList.rdropWhile Text.isBlank)) else none := by
  obtain ⟨kept, hkept⟩ : ∃ kept, kept = String.ofList (s.toList.rdropWhile Text.isBlank) := ⟨_, rfl⟩
  obtain ⟨blanks, hblanks⟩ : ∃ blanks, blanks = String.ofList (s.toList.rtakeWhile Text.isBlank) := ⟨_, rfl⟩
  have hs : s = kept ++ blanks := by
    rw [hkept, hblanks, ← String.ofList_append, List.rdropWhile_append_rtakeWhile, String.ofList_toList]
  have hblank : ∀ c ∈ blanks.toList, Text.isBlank c = true := by
    rw [hblanks, String.toList_ofList]
    intro c hc
    exact List.mem_rtakeWhile_imp hc
  have hend : kept.toList.rdropWhile Text.isBlank = kept.toList := by
    rw [hkept, String.toList_ofList]
    apply List.rdropWhile_idempotent
  have hmem : ∀ c, c ∉ s.toList → c ∉ kept.toList := by
    intro c hc hmem
    rw [hs, String.toList_append] at hc
    exact hc (List.mem_append_left _ hmem)
  have hparameter : IsParameter (key, "\"" ++ kept) := by
    refine ⟨hkey.trimmed, trim_openingQuote hend, hkey.nameEnds, hkey.separate, ?_⟩
    simp [hmem ';' hseparate]
  have htext : writeParameter (key, "\"" ++ s) = writeParameter (key, "\"" ++ kept) ++ blanks := by
    rw [hs]
    unfold writeParameter
    simp only [String.append_assoc]
  rw [htext, readParameter?_append_blanks hblank, readParameter?_writeParameter hparameter,
    unquote_openingQuote (hmem '"' hbare), ← hkept]

/-- The pieces of a parameter are asked one by one. -/
theorem findSome?_split_quote (hkey : IsKey key) (hbare : '"' ∉ s.toList) :
    (Text.split ';' (writeParameter (key, quote s))).findSome? (readParameter? p)
      =
    if p key then some (upToSemicolon s) else inner? p s := by
  by_cases hmem : ';' ∈ s.toList
  . obtain ⟨front, rest, rfl, hfront⟩ := exists_semicolon hmem
    have hbare' : '"' ∉ front.toList := by
      rw [String.toList_append, String.toList_append, List.append_assoc] at hbare
      exact fun h => hbare (List.mem_append_left _ h)
    have htext : writeParameter (key, quote (front ++ String.singleton ';' ++ rest))
        = writeParameter (key, "\"" ++ front) ++ String.singleton ';' ++ (rest ++ "\"") := by
      unfold writeParameter quote
      simp only [String.append_assoc]
    have hpiece : ';' ∉ (writeParameter (key, "\"" ++ front)).toList := by
      unfold writeParameter
      simp [hkey.separate, hfront]
    rw [htext, Text.split_append, Text.split_of_notMem hpiece, List.findSome?_append, List.findSome?_singleton,
      readParameter?_openingQuote hkey hbare' hfront, upToSemicolon_append hfront, inner?_append hfront]
    cases p key with
    | true => rfl
    | false => rfl
  . have hparameter : IsParameter (key, quote s) :=
      ⟨hkey.trimmed, trim_quote s, hkey.nameEnds, hkey.separate, notMem_quote (by decide) hmem⟩
    rw [Text.split_of_notMem (notMem_writeParameter hparameter), List.findSome?_singleton,
      readParameter?_writeParameter hparameter, unquote_quote hbare, upToSemicolon_of_notMem hmem,
      inner?_of_notMem hmem]

end

/-! ## Parts with semicolons -/

section
variable {boundary : String} {part : Part} {p : String → Bool}

/-- Each name is asked first for itself and then for the parameters that its semicolons make of it. -/
theorem Part.Stands.parameter?_disposition (h : part.Stands) :
    parameter? p part.disposition
      =
    part.names.findSome? fun (key, name) => if p key then some (upToSemicolon name) else inner? p name := by
  have hkey : ∀ name ∈ part.names, IsKey name.1 := fun name hname => Part.isKey_of_mem_names hname
  have hbare := h.bare
  have hsemicolon : ";" = String.singleton ';' := rfl
  have hkind : ';' ∉ "form-data".toList := by decide
  unfold disposition writeParameters
  rw [parameter?_eq, hsemicolon, Text.split_intercalate_eq_flatMap (List.cons_ne_nil _ _), List.flatMap_cons,
    Text.split_of_notMem hkind, List.singleton_append, List.drop_succ_cons, List.drop_zero]
  generalize part.names = names at hkey hbare
  induction names with
  | nil => rfl
  | cons name names ih =>
    obtain ⟨key, name⟩ := name
    rw [List.forall_mem_cons] at hkey hbare
    rw [List.map_cons, List.map_cons, List.flatMap_cons, List.findSome?_append, findSome?_split_quote hkey.1 hbare.1,
      ih hkey.2 hbare.2, List.findSome?_cons]
    dsimp only
    cases (if p key then some (upToSemicolon name) else inner? p name) with
    | none => rfl
    | some _ => rfl

theorem Part.Stands.part?_reread (h : part.Stands) {bytes data : Bytes}
    (hbytes : dropTrailingLineEnd bytes = Text.utf8 (writeHead part.lines) ++ (crlf ++ crlf) ++ data) :
    part? (crlf ++ bytes) = some (part.reread.withData data) := by
  rw [h.part?_eq hbytes, h.parameter?_disposition, h.parameter?_disposition]
  cases part with
  | field name text =>
    cases hinner : inner? (· == "filename") name with
    | none => simp [names, reread, withData, hinner]
    | some filename => simp [names, contentType?, reread, withData, hinner]
  | file upload =>
    cases hinner : inner? (· == "filename") upload.field with
    | none => simp [names, contentType?, reread, withData, hinner]
    | some filename => simp [names, contentType?, reread, withData, hinner]

theorem Part.Stands.part?_write (h : part.Stands) : part? (crlf ++ (part.write ++ crlf)) = some part.reread := by
  rw [h.part?_reread (dropTrailingLineEnd_append part.write), ← part.data_reread, part.reread.withData_self]

theorem Part.Fits.part?_of_write (h : part.Fits boundary) {bytes : Bytes}
    (hbytes : dropTrailingLineEnd bytes = part.write) : part? (crlf ++ bytes) = some part := by
  have hreread : part.reread = part := by
    rw [part.reread_eq_self_iff]
    exact fun name hname => (h.named name hname).separate
  rw [h.stands.part?_reread hbytes, hreread, part.withData_self]

end

section
variable {boundary : String} {parts : List Part}

/-- A form is read as it was written, whatever stands behind its last delimiter. -/
theorem parts_write (hboundary : IsBoundary boundary) (h : ∀ part ∈ parts, part.Fits boundary) (epilogue : Bytes) :
    Multipart.parts boundary (write boundary parts ++ epilogue) = parts := by
  have hread : ∀ part ∈ parts, part? (crlf ++ (part.write ++ crlf)) = some (id part) := by
    intro part hpart
    exact (h part hpart).part?_of_write (dropTrailingLineEnd_append _)
  have hapart : ∀ part ∈ parts, part.Apart boundary := fun part hpart => (h part hpart).apart hboundary
  rw [parts_write_eq_map hread hapart, List.map_id]

/--
Parts whose names have neither quotes nor line ends are read with the names that stand before their semicolons, and
behind a semicolon of the name of a field they may get the name of a file. They are read with the names they were
written with exactly if these have no semicolons.
-/
theorem parts_write_reread (h : ∀ part ∈ parts, part.Stands) :
    (∀ part ∈ parts, ∀ data,
        part? (crlf ++ (Text.utf8 (writeHead part.lines) ++ (crlf ++ crlf) ++ data ++ crlf))
          = some (part.reread.withData data)) ∧
      (∀ boundary epilogue, (∀ part ∈ parts, part.Apart boundary) →
        Multipart.parts boundary (write boundary parts ++ epilogue) = parts.map Part.reread) ∧
      ∀ part ∈ parts, part.reread = part ↔ ∀ name ∈ part.names, ';' ∉ name.2.toList := by
  refine ⟨?_, ?_, ?_⟩
  . intro part hpart data
    exact (h part hpart).part?_reread (dropTrailingLineEnd_append _)
  . intro boundary epilogue hapart
    exact parts_write_eq_map (fun part hpart => (h part hpart).part?_write) hapart epilogue
  . intro part _
    exact part.reread_eq_self_iff

end

/-- Equals signs and blanks between quotes are read as they are, a semicolon cuts off what is behind it. -/
theorem parts_write_reread_semicolons :
    let parts := [.field "a = b" "x", .file ⟨"up load", "c ;d.txt", some "text/plain", [0x00]⟩,
      .field "e; filename=f" "y"]
    (∀ part ∈ parts, part.Stands ∧ part.Apart "B") ∧
      Multipart.parts "B" (write "B" parts ++ crlf)
        = [.field "a = b" "x", .file ⟨"up load", "c", some "text/plain", [0x00]⟩,
          .file ⟨"e", "f", none, Text.utf8 "y"⟩] := by
  intro parts
  have h : ∀ part ∈ parts, part.Stands ∧ part.Apart "B" := by decide +kernel
  refine ⟨h, ?_⟩
  have hreread := (parts_write_reread fun part hpart => (h part hpart).1).2.1 "B" crlf fun part hpart => (h part hpart).2
  rw [hreread]
  decide +kernel

/-- The name of a field that looks like two parameters makes the field a file. -/
theorem parts_of_name_with_semicolon :
    parts "B" (write "B" [.field "a; filename=b" "x"]) = [.file ⟨"a", "b", none, Text.utf8 "x"⟩] := by
  have h : (Part.field "a; filename=b" "x").Stands ∧ (Part.field "a; filename=b" "x").Apart "B" := by decide +kernel
  have hread : ∀ part ∈ [Part.field "a; filename=b" "x"], part? (crlf ++ (part.write ++ crlf)) = some part.reread :=
    List.forall_mem_singleton.2 h.1.part?_write
  have hparts := parts_write_eq_map hread (List.forall_mem_singleton.2 h.2) []
  rw [List.append_nil] at hparts
  rw [hparts]
  decide +kernel

end Signpost.Http.Multipart
