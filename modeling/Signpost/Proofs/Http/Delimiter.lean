import Signpost.Proofs.Http.Disposition
import Signpost.Proofs.Text.Cuts

/-!
This module contains where the parts of a multipart body begin and end: at the leftmost occurrences of the delimiter,
also at those that stand in the middle of a line.
-/

namespace Signpost.Http.Multipart

/-- A place at the start of a body or right after a line end. -/
def AtLineStart (body : Bytes) (i : Nat) : Prop :=
  i = 0 ∨ crlf <:+ body.take i

instance (body : Bytes) (i : Nat) : Decidable (AtLineStart body i) :=
  inferInstanceAs (Decidable (_ ∨ _))

/-- The places of the leftmost delimiters that do not overlap, where only those at the start of a line count. -/
def IsLeftmostOfLines (delimiter body : Bytes) (places : Nat → Prop) : Prop :=
  ∀ i, places i ↔
    (delimiter <+: body.drop i ∧ AtLineStart body i) ∧ ∀ j, places j → j < i → j + delimiter.length ≤ i

/-- Whether two dashes stand right after a delimiter, be they in the piece or those of the next delimiter. -/
def closes (piece : Bytes) : Bool :=
  (Text.afterLead dashes (piece ++ dashes)).isSome

/-- The bytes that the text of a field or the contents of a file are read from. -/
def Part.ReadsFrom (data : Bytes) : Part → Prop
  | .field _ text => text = Text.ofUtf8Lossy data
  | .file upload => upload.data = data

/-! ## Parts and pieces -/

section
variable {boundary : String} {rest : Bytes} {pieces : List Bytes}

theorem afterLead_dashes_of_cutAt (hcut : Text.cutAt (delimiter boundary) rest = some (piece, more)) :
    (Text.afterLead dashes rest).isSome = closes piece := by
  have hrest : rest = piece ++ dashes ++ (Text.utf8 boundary ++ more) := by
    rw [Text.eq_append_of_cutAt hcut, delimiter]
    simp only [List.append_assoc]
  have hlength : dashes.length ≤ (piece ++ dashes).length := by
    rw [List.length_append]
    omega
  rw [Bool.eq_iff_iff, closes, Text.isSome_afterLead_iff, Text.isSome_afterLead_iff, hrest]
  constructor
  . intro h
    exact List.prefix_of_prefix_length_le h (List.prefix_append _ _) hlength
  . intro h
    exact h.trans (List.prefix_append _ _)

theorem partsAfter_of_closing {delimiter : Bytes} (nonempty : delimiter ≠ [])
    (h : (Text.afterLead dashes rest).isSome = true) : partsAfter delimiter nonempty rest = [] := by
  rw [partsAfter, if_pos h]

theorem partsAfter_of_cutAt_eq_none {delimiter : Bytes} (nonempty : delimiter ≠ [])
    (h : Text.cutAt delimiter rest = none) : partsAfter delimiter nonempty rest = [] := by
  rw [partsAfter]
  split
  . rfl
  . split
    . next heq => simp [h] at heq
    . rfl

/-- The last piece has no delimiter behind it. Of the others those count that no closing dashes precede. -/
theorem partsAfter_eq (h : Text.CutInto (delimiter boundary) rest pieces) :
    partsAfter (delimiter boundary) (delimiter_ne_nil boundary) rest
      =
    (pieces.dropLast.takeWhile (!closes ·)).filterMap part? := by
  induction h with
  | last hcut => exact partsAfter_of_cutAt_eq_none _ hcut
  | @cut rest piece more pieces hcut hmore ih =>
    obtain ⟨next, others, rfl⟩ := hmore.exists_cons
    have hdashes := afterLead_dashes_of_cutAt hcut
    rw [List.dropLast_cons_of_ne_nil (List.cons_ne_nil _ _), List.takeWhile_cons]
    cases hcloses : closes piece with
    | true =>
      rw [hcloses] at hdashes
      exact partsAfter_of_closing _ hdashes
    | false =>
      rw [hcloses] at hdashes
      rw [partsAfter_of_cutAt _ hdashes hcut, ih, Bool.not_false, if_pos rfl, List.filterMap_cons]
      cases part? piece <;> rfl

theorem parts_eq {body : Bytes} (h : Text.CutInto (delimiter boundary) body pieces) :
    parts boundary body = (pieces.tail.dropLast.takeWhile (!closes ·)).filterMap part? := by
  unfold parts
  cases h with
  | last hcut =>
    rw [hcut]
    rfl
  | cut hcut more =>
    rw [hcut]
    exact partsAfter_eq more

end

/-! ## The data of a part -/

theorem dropLeadingLineEnd_suffix (bytes : Bytes) : dropLeadingLineEnd bytes <:+ bytes := by
  unfold dropLeadingLineEnd
  cases hlead : Text.afterLead crlf bytes with
  | none => exact List.suffix_rfl
  | some rest =>
    rw [Text.eq_append_of_afterLead hlead]
    apply List.suffix_append

theorem eq_or_of_dropTrailingLineEnd (bytes : Bytes) :
    dropTrailingLineEnd bytes = bytes ∨ dropTrailingLineEnd bytes ++ crlf = bytes := by
  unfold dropTrailingLineEnd
  cases hlead : Text.afterLead crlf.reverse bytes.reverse with
  | none => exact .inl rfl
  | some rest =>
    have hbytes := Text.eq_append_of_afterLead hlead
    rw [← List.reverse_inj, List.reverse_reverse, List.reverse_append, List.reverse_reverse] at hbytes
    exact .inr hbytes.symm

/-- The data of a part reaches to the end of its piece, apart from one line end there. -/
theorem exists_data_of_part? {piece : Bytes} {part : Part} (h : part? piece = some part) :
    ∃ data, part.ReadsFrom data ∧ (data <:+ piece ∨ data ++ crlf <:+ piece) := by
  unfold part? at h
  obtain ⟨⟨head, data⟩, hcut, h⟩ := Option.bind_eq_some_iff.1 h
  obtain ⟨disposition, _, h⟩ := Option.bind_eq_some_iff.1 h
  obtain ⟨field, _, h⟩ := Option.map_eq_some_iff.1 h
  refine ⟨data, ?_, ?_⟩
  . split at h <;> rw [← h, Part.ReadsFrom]
  . have hdata : data <:+ dropTrailingLineEnd (dropLeadingLineEnd piece) := by
      rw [Text.eq_append_of_cutAt hcut]
      apply List.suffix_append
    have hpiece := dropLeadingLineEnd_suffix piece
    cases eq_or_of_dropTrailingLineEnd (dropLeadingLineEnd piece) with
    | inl heq =>
      rw [heq] at hdata
      exact .inl (hdata.trans hpiece)
    | inr heq =>
      obtain ⟨front, hfront⟩ := hdata
      have hend : data ++ crlf <:+ dropLeadingLineEnd piece := by
        rw [← heq, ← hfront, List.append_assoc]
        apply List.suffix_append
      exact .inr (hend.trans hpiece)

/-- Without line ends there is no end of a head. -/
theorem part?_of_notMem {piece : Bytes} (h : 0x0D ∉ piece) : part? piece = none := by
  have hbytes : 0x0D ∉ dropTrailingLineEnd (dropLeadingLineEnd piece) := by
    intro hmem
    apply h
    apply (dropLeadingLineEnd_suffix piece).subset
    cases eq_or_of_dropTrailingLineEnd (dropLeadingLineEnd piece) with
    | inl heq => rwa [heq] at hmem
    | inr heq =>
      rw [← heq]
      exact List.mem_append_left _ hmem
  have hcut : Text.cutAt (crlf ++ crlf) (dropTrailingLineEnd (dropLeadingLineEnd piece)) = none := by
    rw [← Option.not_isSome_iff_eq_none, Text.isSome_cutAt_iff]
    intro hoccurs
    exact hbytes (hoccurs.subset List.mem_cons_self)
  unfold part?
  dsimp only
  rw [hcut, Option.bind_none]

theorem parts_of_notMem (boundary : String) {body : Bytes} (h : 0x0D ∉ body) : parts boundary body = [] := by
  obtain ⟨pieces, hpieces⟩ := Text.exists_cutInto (delimiter_ne_nil boundary) body
  rw [parts_eq hpieces, List.filterMap_eq_nil_iff]
  intro piece hpiece
  have hmem : piece ∈ pieces :=
    List.mem_of_mem_tail (List.dropLast_subset _ ((List.takeWhile_prefix _).subset hpiece))
  apply part?_of_notMem
  exact fun hreturn => h (hpieces.subset_of_mem hmem hreturn)

/-! ## Delimiters and lines -/

/-- The rule of lines holds of the leftmost delimiters exactly if all of them are at the start of a line. -/
theorem isLeftmostOfLines_iff {delimiter body : Bytes} {places : Nat → Prop}
    (h : Text.IsLeftmost delimiter body places) :
    IsLeftmostOfLines delimiter body places ↔ ∀ i, places i → AtLineStart body i := by
  constructor
  . intro hlines i hi
    exact ((hlines i).1 hi).1.2
  . intro hstart i
    rw [h i]
    constructor
    . intro hi
      exact ⟨⟨hi.1, hstart i ((h i).2 hi)⟩, hi.2⟩
    . intro hi
      exact ⟨hi.1.1, hi.2⟩

/--
The parts of a body are read from the pieces between its leftmost delimiters, up to closing dashes, and the data of a
part reaches to the next delimiter, whether this one stands at the start of a line or not. Delimiters end parts at the
starts of lines only if there is no other among the leftmost.
-/
theorem parts_between (boundary : String) (body : Bytes) :
    ∃ pieces, (delimiter boundary).intercalate pieces = body ∧
      Text.IsLeftmost (delimiter boundary) body (Text.CutsAt (delimiter boundary) pieces) ∧
      parts boundary body = (pieces.tail.dropLast.takeWhile (!closes ·)).filterMap part? ∧
      (∀ piece part, part? piece = some part →
        ∃ data, part.ReadsFrom data ∧ (data <:+ piece ∨ data ++ crlf <:+ piece)) ∧
      (IsLeftmostOfLines (delimiter boundary) body (Text.CutsAt (delimiter boundary) pieces) ↔
        ∀ i, Text.CutsAt (delimiter boundary) pieces i → AtLineStart body i) := by
  obtain ⟨pieces, h⟩ := Text.exists_cutInto (delimiter_ne_nil boundary) body
  refine ⟨pieces, h.intercalate_eq, h.isLeftmost, parts_eq h, ?_, isLeftmostOfLines_iff h.isLeftmost⟩
  intro piece part
  apply exists_data_of_part?

/-- A file is cut off where the delimiter stands in the middle of one of its lines. -/
theorem parts_with_delimiter_in_line :
    let body := write "B" [.file ⟨"f", "a.txt", none, Text.utf8 "x--By"⟩]
    delimiter "B" <+: body.drop 68 ∧ ¬AtLineStart body 68 ∧
      parts "B" body = [.file ⟨"f", "a.txt", none, Text.utf8 "x"⟩] := by
  intro body
  have hfits : (Part.file ⟨"f", "a.txt", none, Text.utf8 "x"⟩).Fits "B" := by decide
  generalize hfile : Part.file ⟨"f", "a.txt", none, Text.utf8 "x"⟩ = file at hfits ⊢
  have hcut : Text.CutInto (delimiter "B") body [[], crlf ++ file.write, Text.utf8 "y" ++ crlf, dashes] := by
    have hstart : Text.cutAt (delimiter "B") body = some ([], body.drop 3) := by decide +kernel
    have hline : Text.cutAt (delimiter "B") (body.drop 3) = some (crlf ++ file.write, body.drop 71) := by
      rw [← hfile]
      decide +kernel
    have hend : Text.cutAt (delimiter "B") (body.drop 71) = some (Text.utf8 "y" ++ crlf, dashes) := by decide +kernel
    have hnone : Text.cutAt (delimiter "B") dashes = none := by decide
    exact .cut hstart (.cut hline (.cut hend (.last hnone)))
  have hfirst : part? (crlf ++ file.write) = some file := by
    apply hfits.part?_of_write
    rw [← hfile]
    decide +kernel
  have hsecond : part? (Text.utf8 "y" ++ crlf) = none := by decide
  have hopen : closes (crlf ++ file.write) = false ∧ closes (Text.utf8 "y" ++ crlf) = false := by
    rw [← hfile]
    decide +kernel
  refine ⟨by decide +kernel, by decide +kernel, ?_⟩
  rw [parts_eq hcut]
  simp [hopen, hfirst, hsecond]

end Signpost.Http.Multipart
