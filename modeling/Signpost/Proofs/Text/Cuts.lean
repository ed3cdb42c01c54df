import Signpost.Proofs.Text.Pieces

/-!
This module contains lists that are cut around a needle wherever it occurs: the pieces make up the list, and the
needles between them are its leftmost occurrences. A cut from a place on is made at the next occurrence.
-/

namespace Signpost.Text

/-! ## Occurrences from a place on -/

/-- The first place from `i` on at which the needle begins. -/
structure IsNext (needle xs : List α) (i j : Nat) : Prop where
  le : i ≤ j
  occurs : needle <+: xs.drop j
  first : ∀ k, i ≤ k → k < j → ¬needle <+: xs.drop k

section
variable {needle xs : List α}

theorem infix_drop_iff {i : Nat} : needle <:+: xs.drop i ↔ ∃ k, i ≤ k ∧ needle <+: xs.drop k := by
  rw [List.infix_iff_prefix_suffix]
  constructor
  . rintro ⟨rest, hprefix, hsuffix⟩
    rw [List.suffix_iff_eq_drop, List.drop_drop] at hsuffix
    rw [hsuffix] at hprefix
    exact ⟨_, Nat.le_add_right _ _, hprefix⟩
  . rintro ⟨k, hk, hprefix⟩
    obtain ⟨n, rfl⟩ := Nat.exists_eq_add_of_le hk
    refine ⟨_, hprefix, ?_⟩
    rw [← List.drop_drop]
    apply List.drop_suffix

theorem prefix_drop_append {k : Nat} (h : needle <+: xs.drop k) (more : List α) : needle <+: (xs ++ more).drop k := by
  rw [List.drop_append]
  exact h.trans (List.prefix_append _ _)

theorem infix_drop_append {k : Nat} (h : needle <:+: xs.drop k) (more : List α) : needle <:+: (xs ++ more).drop k := by
  rw [List.drop_append]
  exact h.trans (List.prefix_append _ _).isInfix

/-- Whether a needle begins at a place is known once so much of the list is there. -/
theorem prefix_drop_append_iff {k : Nat} (h : k + needle.length ≤ xs.length) (more : List α) :
    needle <+: (xs ++ more).drop k ↔ needle <+: xs.drop k := by
  have hlength : needle.length ≤ (xs.drop k).length := by
    rw [List.length_drop]
    omega
  constructor
  . intro hprefix
    rw [List.drop_append] at hprefix
    exact List.prefix_of_prefix_length_le hprefix (List.prefix_append _ _) hlength
  . intro hprefix
    exact prefix_drop_append hprefix more

theorem add_length_le_of_prefix_drop (hne : needle ≠ []) {k : Nat} (h : needle <+: xs.drop k) :
    k + needle.length ≤ xs.length := by
  have hpos := List.length_pos_iff.2 hne
  have hlength := h.length_le
  rw [List.length_drop] at hlength
  omega

namespace IsNext

theorem isInfix (h : IsNext needle xs i j) : needle <:+: xs.drop i :=
  infix_drop_iff.2 ⟨j, h.le, h.occurs⟩

theorem unique (h : IsNext needle xs i j) (h' : IsNext needle xs i k) : j = k := by
  apply Nat.le_antisymm
  . by_contra hlt
    exact h.first k h'.le (by omega) h'.occurs
  . by_contra hlt
    exact h'.first j h.le (by omega) h.occurs

theorem append_iff {j : Nat} (hj : j + needle.length ≤ xs.length) (more : List α) :
    IsNext needle (xs ++ more) i j ↔ IsNext needle xs i j := by
  have hbefore : ∀ k < j, (needle <+: (xs ++ more).drop k ↔ needle <+: xs.drop k) := by
    intro k hk
    exact prefix_drop_append_iff (by omega) more
  constructor
  . intro h
    refine ⟨h.le, (prefix_drop_append_iff hj more).1 h.occurs, ?_⟩
    intro k hi hk
    rw [← hbefore k hk]
    exact h.first k hi hk
  . intro h
    refine ⟨h.le, (prefix_drop_append_iff hj more).2 h.occurs, ?_⟩
    intro k hi hk
    rw [hbefore k hk]
    exact h.first k hi hk

/-- Before the next occurrence is complete there is none. -/
theorem not_infix_of_append {more : List α} (hne : needle ≠ []) (h : IsNext needle (xs ++ more) i j)
    (hj : xs.length < j + needle.length) : ¬needle <:+: xs.drop i := by
  rw [infix_drop_iff]
  rintro ⟨k, hi, hk⟩
  have hlength := add_length_le_of_prefix_drop hne hk
  rw [← prefix_drop_append_iff hlength more] at hk
  exact h.first k hi (by omega) hk

end IsNext

end

variable [DecidableEq α]

section
variable {needle xs : List α}

namespace IsNext

theorem of_cutAt {piece rest : List α} (h : cutAt needle (xs.drop i) = some (piece, rest)) :
    IsNext needle xs i (i + piece.length) := by
  refine ⟨Nat.le_add_right _ _, ?_, ?_⟩
  . rw [← List.drop_drop, eq_append_of_cutAt h, List.append_assoc, List.drop_left]
    apply List.prefix_append
  . intro k hi hk
    obtain ⟨n, rfl⟩ := Nat.exists_eq_add_of_le hi
    rw [← List.drop_drop]
    exact not_prefix_of_cutAt h (by omega)

/-- A cut from a place on is made at the next occurrence. -/
theorem cutAt_eq (h : IsNext needle xs i j) :
    cutAt needle (xs.drop i) = some ((xs.drop i).take (j - i), xs.drop (j + needle.length)) := by
  have hsome : (cutAt needle (xs.drop i)).isSome = true := isSome_cutAt_iff.2 h.isInfix
  obtain ⟨⟨piece, rest⟩, hcut⟩ := Option.isSome_iff_exists.1 hsome
  have hj : j = i + piece.length := h.unique (of_cutAt hcut)
  have hdrop := eq_append_of_cutAt hcut
  have hpiece : (xs.drop i).take (j - i) = piece := by
    rw [hdrop, hj, Nat.add_sub_cancel_left, List.append_assoc, List.take_left]
  have hrest : xs.drop (j + needle.length) = rest := by
    rw [hj, Nat.add_assoc, ← List.drop_drop, hdrop, ← List.length_append, List.drop_left]
  rw [hcut, hpiece, hrest]

end IsNext

theorem exists_isNext (h : needle <:+: xs.drop i) : ∃ j, IsNext needle xs i j := by
  obtain ⟨⟨piece, rest⟩, hcut⟩ := Option.isSome_iff_exists.1 (isSome_cutAt_iff.2 h)
  exact ⟨_, IsNext.of_cutAt hcut⟩

end

/-! ## Pieces -/

/-- Cut at the first occurrence of the needle, and then cut what is left, as long as there is one. -/
inductive CutInto (needle : List α) : List α → List (List α) → Prop
  | last (h : cutAt needle xs = none) : CutInto needle xs [xs]
  | cut {pieces : List (List α)} (h : cutAt needle xs = some (piece, rest)) (more : CutInto needle rest pieces) :
    CutInto needle xs (piece :: pieces)

/-- The places of the needles that stand between the pieces. -/
def CutsAt (needle : List α) : List (List α) → Nat → Prop
  | piece :: next :: pieces, i =>
    i = piece.length ∨ ∃ j, CutsAt needle (next :: pieces) j ∧ i = (piece ++ needle).length + j
  | _, _ => False

section
variable {needle : List α}

theorem exists_cutInto (hne : needle ≠ []) (xs : List α) : ∃ pieces, CutInto needle xs pieces := by
  match hcut : cutAt needle xs with
  | none => exact ⟨_, .last hcut⟩
  | some (piece, rest) =>
    have hshort := length_lt_of_cutAt hne hcut
    obtain ⟨pieces, hrest⟩ := exists_cutInto hne rest
    exact ⟨_, .cut hcut hrest⟩
termination_by xs.length

namespace CutInto

variable {xs : List α} {pieces : List (List α)}

theorem exists_cons (h : CutInto needle xs pieces) : ∃ piece more, pieces = piece :: more := by
  cases h with
  | last => exact ⟨_, _, rfl⟩
  | cut => exact ⟨_, _, rfl⟩

theorem intercalate_eq (h : CutInto needle xs pieces) : needle.intercalate pieces = xs := by
  induction h with
  | last => apply List.intercalate_singleton
  | cut hcut more ih =>
    obtain ⟨next, rest, rfl⟩ := more.exists_cons
    rw [List.intercalate_cons_cons, ih, eq_append_of_cutAt hcut]

theorem subset_of_mem (h : CutInto needle xs pieces) (hpiece : piece ∈ pieces) : piece ⊆ xs := by
  induction h with
  | last =>
    rw [List.mem_singleton] at hpiece
    rw [hpiece]
    apply List.Subset.refl
  | cut hcut more ih =>
    rw [eq_append_of_cutAt hcut]
    cases List.mem_cons.1 hpiece with
    | inl heq =>
      rw [heq, List.append_assoc]
      apply List.subset_append_left
    | inr hmore => exact List.Subset.trans (ih hmore) (List.subset_append_right _ _)

theorem isLeftmost (h : CutInto needle xs pieces) : IsLeftmost needle xs (CutsAt needle pieces) := by
  induction h with
  | last hcut =>
    apply isLeftmost_nowhere
    rw [← isSome_cutAt_iff, hcut]
    exact Bool.false_ne_true
  | cut hcut more ih =>
    obtain ⟨next, rest, rfl⟩ := more.exists_cons
    exact ih.of_cutAt hcut

end CutInto

end

end Signpost.Text
