import Signpost.Http.Token
import Signpost.Proofs.Text.Pieces
import Signpost.Route.Key

/-!
This module contains the laws of paths and of the keys of requests: a path that is joined from segments has
these segments, and the key of a request is made of its method and the segments of its path alone.
-/

namespace Signpost.Route

/-- A text that can stand between two slashes. -/
def IsSegment (s : String) : Prop :=
  s ≠ "" ∧ '/' ∉ s.toList

instance : DecidablePred IsSegment :=
  fun s => inferInstanceAs (Decidable (s ≠ "" ∧ '/' ∉ s.toList))

theorem isSegment_of_mem_segments {path s : String} (h : s ∈ segments path) : IsSegment s := by
  unfold segments Text.split at h
  rw [List.mem_filter, List.mem_map] at h
  obtain ⟨⟨piece, hpiece, rfl⟩, hne⟩ := h
  refine ⟨by simpa using hne, ?_⟩
  intro hslash
  rw [String.toList_ofList] at hslash
  simpa using Text.eq_false_of_mem_pieces hpiece hslash

/-- Empty pieces are no segments. -/
theorem segments_joinPath_filter {pieces : List String} (h : ∀ s ∈ pieces, '/' ∉ s.toList) :
    segments (joinPath pieces) = pieces.filter (· ≠ "") := by
  by_cases hne : pieces = []
  . rw [hne]
    rfl
  . have hsplit : Text.split '/' (joinPath pieces) = pieces := Text.split_intercalate h hne
    unfold segments
    rw [hsplit]

theorem segments_joinPath {path : List String} (h : ∀ s ∈ path, IsSegment s) : segments (joinPath path) = path := by
  rw [segments_joinPath_filter fun s hs => (h s hs).2, List.filter_eq_self]
  intro s hs
  simpa using (h s hs).1

theorem split_joinPath {path : List String} (h : ∀ s ∈ path, '/' ∉ s.toList) (hne : path ≠ []) :
    Text.split '/' (joinPath path) = path :=
  Text.split_intercalate h hne

theorem segments_append_slash (path rest : String) :
    segments (path ++ "/" ++ rest) = segments path ++ segments rest := by
  unfold segments
  rw [← List.filter_append]
  congr 1
  exact Text.split_append path rest

theorem segments_slash_append (rest : String) : segments ("/" ++ rest) = segments rest := by
  have hempty : segments "" = [] := by decide
  have h := segments_append_slash "" rest
  rwa [String.empty_append, hempty, List.nil_append] at h

theorem segments_of_isSegment {s : String} (h : IsSegment s) : segments s = [s] := by
  have hsingle : segments (joinPath [s]) = [s] := segments_joinPath (by simpa using h)
  unfold joinPath at hsingle
  rwa [String.intercalate_singleton] at hsingle

/-- The segments of what is joined are those of the pieces, whatever these are. -/
theorem segments_joinPath_cons_eq_append (piece : String) (path : List String) :
    segments (joinPath (piece :: path)) = segments piece ++ segments (joinPath path) := by
  unfold joinPath
  by_cases hpath : path = []
  . rw [hpath, String.intercalate_singleton]
    exact (List.append_nil _).symm
  . rw [String.intercalate_cons_of_ne_nil hpath, segments_append_slash]

theorem segments_joinPath_cons {s : String} (h : IsSegment s) (path : List String) :
    segments (joinPath (s :: path)) = s :: segments (joinPath path) := by
  rw [segments_joinPath_cons_eq_append, segments_of_isSegment h]
  rfl

/-- What follows a segment lengthens it, up to the first slash. -/
theorem segments_append {s : String} (h : IsSegment s) (t : String) :
    segments (s ++ t)
      =
    (s ++ String.ofList (t.toList.takeWhile (· ≠ '/')))
      :: segments (String.ofList (t.toList.dropWhile (· ≠ '/'))) := by
  have hfirst : IsSegment (s ++ String.ofList (t.toList.takeWhile (· ≠ '/'))) := by
    refine ⟨by simp [h.1], ?_⟩
    rw [String.toList_append, String.toList_ofList, List.mem_append, not_or]
    refine ⟨h.2, ?_⟩
    intro hslash
    simpa using List.all_eq_true.1 List.all_takeWhile _ hslash
  have hcut : t = String.ofList (t.toList.takeWhile (· ≠ '/')) ++ String.ofList (t.toList.dropWhile (· ≠ '/')) := by
    rw [← String.ofList_append, List.takeWhile_append_dropWhile, String.ofList_toList]
  have hhead := List.head?_dropWhile_not (· ≠ '/') t.toList
  conv_lhs => rw [hcut, ← String.append_assoc]
  cases hrest : t.toList.dropWhile (· ≠ '/') with
  | nil =>
    rw [String.ofList_nil, String.append_empty, segments_of_isSegment hfirst]
    rfl
  | cons c rest =>
    rw [hrest] at hhead
    have hc : c = '/' := by simpa using hhead
    have hslash : String.ofList ('/' :: rest) = "/" ++ String.ofList rest := by
      apply String.toList_injective
      simp
    rw [hc, hslash, segments_slash_append, ← String.append_assoc, segments_append_slash, segments_of_isSegment hfirst]
    rfl

theorem joinPath_inj {path other : List String} (h : ∀ s ∈ path, IsSegment s) (hother : ∀ s ∈ other, IsSegment s) :
    joinPath path = joinPath other ↔ path = other := by
  constructor
  . intro heq
    rw [← segments_joinPath h, heq, segments_joinPath hother]
  . intro heq
    rw [heq]

theorem notMem_joinPath {pieces : List String} {c : Char} (hslash : c ≠ '/') (h : ∀ s ∈ pieces, c ∉ s.toList) :
    c ∉ (joinPath pieces).toList := by
  intro hc
  cases Text.mem_intercalate hc with
  | inl hsep => exact hslash (by simpa using hsep)
  | inr hpiece =>
    obtain ⟨s, hs, hc⟩ := hpiece
    exact h s hs hc

theorem notMem_of_mem_segments {path s : String} {c : Char} (h : c ∉ path.toList) (hs : s ∈ segments path) :
    c ∉ s.toList := by
  unfold segments Text.split at hs
  rw [List.mem_filter, List.mem_map] at hs
  obtain ⟨⟨piece, hpiece, rfl⟩, _⟩ := hs
  intro hc
  rw [String.toList_ofList] at hc
  exact h (Text.mem_of_mem_pieces hpiece hc)

theorem exists_mem_segments {path : String} {c : Char} (hslash : c ≠ '/') (h : c ∈ path.toList) :
    ∃ s ∈ segments path, c ∈ s.toList := by
  have hpieces : ∃ piece ∈ Text.pieces (· == '/') path.toList, c ∈ piece :=
    Text.exists_mem_pieces h (by simpa using hslash)
  obtain ⟨piece, hpiece, hc⟩ := hpieces
  refine ⟨String.ofList piece, ?_, by simpa using hc⟩
  unfold segments Text.split
  rw [List.mem_filter]
  refine ⟨List.mem_map_of_mem hpiece, ?_⟩
  rw [decide_eq_true_eq, ne_eq, String.ofList_eq_empty_iff]
  exact List.ne_nil_of_mem hc

/-! ## The keys of requests -/

/-- The part of a target before its first question mark. -/
def beforeQuery (target : String) : String :=
  String.ofList (target.toList.takeWhile (· ≠ '?'))

/-- What follows the path of a request: nothing, or a query. -/
def IsQuery (suffix : String) : Prop :=
  suffix = "" ∨ ∃ query, suffix = "?" ++ query

theorem notMem_beforeQuery (target : String) : '?' ∉ (beforeQuery target).toList := by
  unfold beforeQuery
  rw [String.toList_ofList]
  intro hmem
  simpa using List.all_eq_true.1 List.all_takeWhile _ hmem

theorem beforeQuery_append {path suffix : String} (hpath : '?' ∉ path.toList) (hsuffix : IsQuery suffix) :
    beforeQuery (path ++ suffix) = path := by
  have hkept : ∀ c ∈ path.toList, decide (c ≠ '?') = true := by
    intro c hc
    rw [decide_eq_true_eq]
    rintro rfl
    exact hpath hc
  unfold beforeQuery
  rw [String.toList_append, List.takeWhile_append_of_pos hkept]
  cases hsuffix with
  | inl hempty => simp [hempty]
  | inr hquery =>
    obtain ⟨query, rfl⟩ := hquery
    simp

theorem beforeQuery_of_notMem {path : String} (h : '?' ∉ path.toList) : beforeQuery path = path := by
  have heq := beforeQuery_append h (.inl rfl)
  rwa [String.append_empty] at heq

theorem getD_fst_splitOnce (target : String) :
    ((Text.splitOnce '?' target).map (·.1)).getD target = beforeQuery target := by
  rw [Text.fst_splitOnce]
  split
  . rfl
  . next hpath => rw [beforeQuery_of_notMem hpath, Option.getD_none]

theorem requestKey_eq (method target : String) :
    requestKey method target = joinPath (method.toLower :: segments (beforeQuery target)) := by
  unfold requestKey
  rw [getD_fst_splitOnce]

/-- The query is no part of the key. -/
theorem requestKey_append {path suffix : String} (hpath : '?' ∉ path.toList) (hsuffix : IsQuery suffix)
    (method : String) : requestKey method (path ++ suffix) = joinPath (method.toLower :: segments path) := by
  rw [requestKey_eq, beforeQuery_append hpath hsuffix]

theorem match?_append {path suffix : String} (hpath : '?' ∉ path.toList) (hsuffix : IsQuery suffix)
    (t : Table α) (method : String) :
    t.match? method (path ++ suffix)
      =
    (t.find? (joinPath (method.toLower :: segments path))).map fun hit =>
      { hit with key := joinPath (method.toLower :: segments path) } := by
  unfold Table.match?
  rw [requestKey_append hpath hsuffix]

/-! ## The methods of requests -/

theorem eq_slash_of_toLower {c : Char} (h : c.toLower = '/') : c = '/' := by
  unfold Char.toLower at h
  split at h
  . next hupper =>
    have hval := congrArg (fun d : Char => d.val.toNat) h
    have hlow := UInt32.le_iff_toNat_le.1 hupper.1
    have hhigh := UInt32.le_iff_toNat_le.1 hupper.2
    simp at hval hlow hhigh
    omega
  . exact h

theorem isSegment_toLower_of_isToken {s : String} (h : Http.isToken s = true) : IsSegment s.toLower := by
  unfold Http.isToken at h
  rw [Bool.and_eq_true, List.all_eq_true] at h
  obtain ⟨hne, hchars⟩ := h
  unfold String.toLower
  refine ⟨?_, ?_⟩
  . rw [ne_eq, String.map_eq_empty]
    simpa using hne
  . intro hslash
    rw [String.toList_map, List.mem_map] at hslash
    obtain ⟨c, hc, heq⟩ := hslash
    have htoken := hchars c hc
    rw [eq_slash_of_toLower heq] at htoken
    exact absurd htoken (by decide)

end Signpost.Route
