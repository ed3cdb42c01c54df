/-!
This module contains the cutting of lists and texts: at every separator, and around the leftmost
occurrence of a delimiter. The lemmas say that a cut loses nothing but the delimiter.
-/

namespace Signpost.Text

/-- Cut a list at every separator. The separators are dropped and empty pieces are kept. -/
def pieces (isSep : α → Bool) : List α → List (List α)
  | [] => [[]]
  | x :: xs =>
    match isSep x, pieces isSep xs with
    | true, rest => [] :: rest
    | false, piece :: rest => (x :: piece) :: rest
    | false, [] => [[x]]

theorem pieces_ne_nil (isSep : α → Bool) (xs : List α) : pieces isSep xs ≠ [] := by
  cases xs with
  | nil => simp [pieces]
  | cons x xs => rw [pieces]; split <;> simp

section
variable [DecidableEq α]

/-- What follows `lead` in a list that begins with it. -/
def afterLead : (lead : List α) → List α → Option (List α)
  | [], xs => some xs
  | _ :: _, [] => none
  | y :: ys, x :: xs => if y = x then afterLead ys xs else none

theorem eq_append_of_afterLead {lead xs rest : List α} (h : afterLead lead xs = some rest) :
    xs = lead ++ rest := by
  fun_induction afterLead lead xs with
  | case1 => simp_all
  | case2 => simp at h
  | case3 y ys xs ih => simp [ih h]
  | case4 => simp at h

@[simp]
theorem afterLead_append (lead rest : List α) : afterLead lead (lead ++ rest) = some rest := by
  induction lead with
  | nil => simp [afterLead]
  | cons y ys ih => simp [afterLead, ih]

/-- The list before the leftmost occurrence of `needle` and the list after that occurrence. -/
def cutAt (needle : List α) : List α → Option (List α × List α)
  | [] => if needle = [] then some ([], []) else none
  | x :: xs =>
    match afterLead needle (x :: xs) with
    | some rest => some ([], rest)
    | none => (cutAt needle xs).map fun (before, rest) => (x :: before, rest)

theorem eq_append_of_cutAt {needle xs before rest : List α} (h : cutAt needle xs = some (before, rest)) :
    xs = before ++ needle ++ rest := by
  induction xs generalizing before with
  | nil =>
    simp only [cutAt] at h
    split at h <;> simp_all
  | cons x xs ih =>
    simp only [cutAt] at h
    split at h
    . rename_i hlead
      cases h
      simpa using eq_append_of_afterLead hlead
    . simp only [Option.map_eq_some_iff, Prod.mk.injEq, Prod.exists] at h
      obtain ⟨b, r, hcut, rfl, rfl⟩ := h
      simp [ih hcut]

/-- A cut at a delimiter that is not empty leaves less than there was. -/
theorem length_lt_of_cutAt {needle xs before rest : List α} (hneedle : needle ≠ [])
    (h : cutAt needle xs = some (before, rest)) : rest.length < xs.length := by
  have hpos := List.length_pos_iff.2 hneedle
  rw [eq_append_of_cutAt h]
  simp only [List.length_append]
  omega

/-- Whether `needle` occurs somewhere in the list. -/
def occursIn (needle xs : List α) : Bool :=
  (cutAt needle xs).isSome

end

/-- Cut a text at every `sep`. -/
def split (sep : Char) (s : String) : List String :=
  (pieces (· == sep) s.toList).map String.ofList

/-- The text before the first `sep` and the text after it. -/
def splitOnce (sep : Char) (s : String) : Option (String × String) :=
  (cutAt [sep] s.toList).map fun (before, rest) => (String.ofList before, String.ofList rest)

end Signpost.Text
