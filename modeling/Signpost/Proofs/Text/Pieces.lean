import Mathlib.Data.List.Infix
import Signpost.Text.Pieces

/-!
This module contains the laws of cutting: a cut at every separator undoes a joining of pieces without
separators, and a delimiter is found exactly where it occurs.
-/

namespace Signpost.Text

/-! ## Cutting at every separator -/

theorem pieces_eq_splitOnP (isSep : α → Bool) (xs : List α) : pieces isSep xs = xs.splitOnP isSep := by
  induction xs with
  | nil => simp [pieces]
  | cons x xs ih =>
    rw [pieces, ih, List.splitOnP_cons_eq_if_modifyHead]
    cases isSep x with
    | true => rfl
    | false =>
      cases hrest : xs.splitOnP isSep with
      | nil => exact absurd (ih.trans hrest) (pieces_ne_nil isSep xs)
      | cons piece rest => rfl

theorem eq_false_of_mem_pieces {isSep : α → Bool} {xs piece : List α} (h : piece ∈ pieces isSep xs)
    (hx : x ∈ piece) : isSep x = false := by
  induction xs generalizing piece with
  | nil =>
    rw [pieces, List.mem_singleton] at h
    simp [h] at hx
  | cons y ys ih =>
    rw [pieces] at h
    split at h
    . rw [List.mem_cons] at h
      cases h with
      | inl heq => simp [heq] at hx
      | inr hmem => exact ih hmem hx
    . next first rest hsep hpieces =>
      rw [hpieces] at ih
      rw [List.mem_cons] at h
      cases h with
      | inl heq =>
        rw [heq, List.mem_cons] at hx
        cases hx with
        | inl heq => rw [heq, hsep]
        | inr hmem => exact ih List.mem_cons_self hmem
      | inr hmem => exact ih (List.mem_cons_of_mem _ hmem) hx
    . next hpieces => exact absurd hpieces (pieces_ne_nil isSep ys)

theorem mem_of_mem_pieces {isSep : α → Bool} {xs piece : List α} (h : piece ∈ pieces isSep xs) (hx : x ∈ piece) :
    x ∈ xs := by
  induction xs generalizing piece with
  | nil =>
    rw [pieces, List.mem_singleton] at h
    rwa [h] at hx
  | cons y ys ih =>
    rw [pieces] at h
    split at h
    . rw [List.mem_cons] at h
      cases h with
      | inl heq => simp [heq] at hx
      | inr hmem => exact List.mem_cons_of_mem _ (ih hmem hx)
    . next first rest hsep hpieces =>
      rw [hpieces] at ih
      rw [List.mem_cons] at h
      cases h with
      | inl heq =>
        rw [heq, List.mem_cons] at hx
        exact List.mem_cons.2 (hx.imp_right (ih List.mem_cons_self))
      | inr hmem => exact List.mem_cons_of_mem _ (ih (List.mem_cons_of_mem _ hmem) hx)
    . next hpieces => exact absurd hpieces (pieces_ne_nil isSep ys)

/-- What is no separator is in one of the pieces. -/
theorem exists_mem_pieces {isSep : α → Bool} {xs : List α} (hx : x ∈ xs) (hsep : isSep x = false) :
    ∃ piece ∈ pieces isSep xs, x ∈ piece := by
  induction xs with
  | nil => simp at hx
  | cons y ys ih =>
    rw [List.mem_cons] at hx
    rw [pieces]
    split
    . next hy =>
      cases hx with
      | inl heq => simp [heq, hy] at hsep
      | inr hmem =>
        obtain ⟨piece, hpiece, hx⟩ := ih hmem
        exact ⟨piece, List.mem_cons_of_mem _ hpiece, hx⟩
    . next first rest _ hpieces =>
      rw [hpieces] at ih
      cases hx with
      | inl heq => exact ⟨y :: first, List.mem_cons_self, heq ▸ List.mem_cons_self⟩
      | inr hmem =>
        obtain ⟨piece, hpiece, hx⟩ := ih hmem
        rw [List.mem_cons] at hpiece
        cases hpiece with
        | inl heq => exact ⟨y :: first, List.mem_cons_self, List.mem_cons_of_mem _ (heq ▸ hx)⟩
        | inr hrest => exact ⟨piece, List.mem_cons_of_mem _ hrest, hx⟩
    . next hpieces => exact absurd hpieces (pieces_ne_nil isSep ys)

theorem split_append {sep : Char} (before rest : String) :
    split sep (before ++ String.singleton sep ++ rest) = split sep before ++ split sep rest := by
  have hlist : (before ++ String.singleton sep ++ rest).toList = before.toList ++ sep :: rest.toList := by simp
  unfold split
  rw [hlist, pieces_eq_splitOnP, pieces_eq_splitOnP, pieces_eq_splitOnP,
    List.splitOnP_append_cons (p := (· == sep)) _ _ (beq_self_eq_true sep), List.map_append]

/-- What was joined comes back, if no text has the separator. -/
theorem split_intercalate {sep : Char} {texts : List String} (h : ∀ s ∈ texts, sep ∉ s.toList)
    (hne : texts ≠ []) : split sep ((String.singleton sep).intercalate texts) = texts := by
  have hpieces : pieces (· == sep) ([sep].intercalate (texts.map String.toList))
      = texts.map String.toList := by
    rw [pieces_eq_splitOnP]
    apply List.splitOn_intercalate
    . simpa using h
    . simpa using hne
  unfold split
  rw [String.toList_intercalate, String.toList_singleton, hpieces, List.map_map]
  simp [Function.comp_def]

theorem split_of_notMem {sep : Char} {s : String} (h : sep ∉ s.toList) : split sep s = [s] := by
  have hall : ∀ t ∈ [s], sep ∉ t.toList := by simpa using h
  have hsplit := split_intercalate hall (List.cons_ne_nil s [])
  rwa [String.intercalate_singleton] at hsplit

theorem split_intercalate_eq_flatMap {sep : Char} {texts : List String} (hne : texts ≠ []) :
    split sep ((String.singleton sep).intercalate texts) = texts.flatMap (split sep) := by
  induction texts with
  | nil => exact absurd rfl hne
  | cons s texts ih =>
    cases texts with
    | nil => rw [String.intercalate_singleton, List.flatMap_singleton]
    | cons t texts =>
      rw [String.intercalate_cons_cons, split_append, ih (List.cons_ne_nil t texts)]
      rfl

theorem mem_intercalate {sep : String} {texts : List String} (h : c ∈ (sep.intercalate texts).toList) :
    c ∈ sep.toList ∨ ∃ s ∈ texts, c ∈ s.toList := by
  induction texts with
  | nil => simp at h
  | cons s texts ih =>
    cases texts with
    | nil => exact .inr ⟨s, List.mem_cons_self, by simpa using h⟩
    | cons next texts =>
      rw [String.intercalate_cons_cons, String.toList_append, String.toList_append, List.mem_append,
        List.mem_append] at h
      obtain (hs | hsep) | hrest := h
      . exact .inr ⟨s, List.mem_cons_self, hs⟩
      . exact .inl hsep
      . obtain hsep | ⟨t, ht, hc⟩ := ih hrest
        . exact .inl hsep
        . exact .inr ⟨t, List.mem_cons_of_mem _ ht, hc⟩

/-! ## Cutting around a delimiter -/

section
variable [DecidableEq α]

theorem afterLead_eq_some_iff {lead xs rest : List α} : afterLead lead xs = some rest ↔ xs = lead ++ rest := by
  constructor
  . exact eq_append_of_afterLead
  . intro h
    rw [h, afterLead_append]

theorem isSome_afterLead_iff {lead xs : List α} : (afterLead lead xs).isSome = true ↔ lead <+: xs := by
  rw [Option.isSome_iff_exists, List.prefix_iff_exists_append_eq]
  simp only [afterLead_eq_some_iff]
  simp only [eq_comm]

theorem isSome_cutAt_iff {needle xs : List α} : (cutAt needle xs).isSome = true ↔ needle <:+: xs := by
  induction xs with
  | nil =>
    rw [cutAt, List.infix_nil]
    split
    . next h => simp [h]
    . next h => simp [h]
  | cons x xs ih =>
    rw [List.infix_cons_iff, ← ih, ← isSome_afterLead_iff, cutAt]
    cases afterLead needle (x :: xs) with
    | some rest => simp
    | none => simp

theorem occursIn_iff {needle xs : List α} : occursIn needle xs = true ↔ needle <:+: xs := by
  apply isSome_cutAt_iff

theorem cutAt_singleton_of_notMem {x : α} {xs : List α} (h : x ∉ xs) : cutAt [x] xs = none := by
  rw [← Option.not_isSome_iff_eq_none, isSome_cutAt_iff, List.singleton_infix_iff]
  exact h

theorem cutAt_singleton_append {x : α} {before : List α} (h : x ∉ before) (rest : List α) :
    cutAt [x] (before ++ x :: rest) = some (before, rest) := by
  induction before with
  | nil => simp [cutAt, afterLead]
  | cons y before ih =>
    rw [List.mem_cons, not_or] at h
    rw [List.cons_append, cutAt, ih h.2]
    simp [afterLead, h.1]

theorem fst_cutAt_singleton (x : α) (xs : List α) :
    (cutAt [x] xs).map (·.1) = if x ∈ xs then some (xs.takeWhile (· ≠ x)) else none := by
  induction xs with
  | nil => rfl
  | cons y xs ih =>
    by_cases h : x = y
    . simp [cutAt, afterLead, h]
    . have hcut : (cutAt [x] (y :: xs)).map (·.1) = ((cutAt [x] xs).map (·.1)).map (y :: ·) := by
        simp [cutAt, afterLead, h, Function.comp_def]
      rw [hcut, ih, List.takeWhile_cons_of_pos (by simpa using Ne.symm h)]
      simp only [List.mem_cons, h, false_or]
      split <;> rfl

/-- A cut is made at the first place where the delimiter is complete. -/
theorem cutAt_append {needle before rest : List α} (h : ¬needle <:+: before ++ needle.dropLast) :
    cutAt needle (before ++ needle ++ rest) = some (before, rest) := by
  have hne : needle ≠ [] := by
    intro hnil
    rw [hnil] at h
    exact h List.nil_infix
  induction before with
  | nil =>
    have hlead : afterLead needle (needle ++ rest) = some rest := afterLead_append needle rest
    cases needle with
    | nil => exact absurd rfl hne
    | cons y ys =>
      rw [List.nil_append, List.cons_append, cutAt, ← List.cons_append, hlead]
  | cons x before ih =>
    have hlead : afterLead needle (x :: (before ++ needle ++ rest)) = none := by
      rw [← Option.not_isSome_iff_eq_none, isSome_afterLead_iff]
      intro hprefix
      -- an earlier occurrence would end before the last element of this one
      have hlast : needle = needle.dropLast ++ [needle.getLast hne] := (List.dropLast_append_getLast hne).symm
      have hwhole : x :: before ++ needle.dropLast <+: x :: (before ++ needle ++ rest) := by
        conv_rhs => rw [hlast]
        simp
      have hlength : needle.length ≤ (x :: before ++ needle.dropLast).length := by
        rw [List.length_append, List.length_cons, List.length_dropLast]
        omega
      exact h (List.prefix_of_prefix_length_le hprefix hwhole hlength).isInfix
    have hbefore : ¬needle <:+: before ++ needle.dropLast := by
      intro hinfix
      exact h (List.infix_cons hinfix)
    rw [List.cons_append, List.cons_append, cutAt, hlead]
    dsimp only
    rw [ih hbefore]
    rfl

/-- No occurrence of the delimiter begins before the cut. -/
theorem not_prefix_of_cutAt {needle xs before rest : List α} (h : cutAt needle xs = some (before, rest)) {i : Nat}
    (hi : i < before.length) : ¬needle <+: xs.drop i := by
  induction xs generalizing before i with
  | nil =>
    rw [cutAt] at h
    split at h
    . cases h
      exact absurd hi (Nat.not_lt_zero i)
    . cases h
  | cons x xs ih =>
    rw [cutAt] at h
    split at h
    . cases h
      exact absurd hi (Nat.not_lt_zero i)
    . next hlead =>
      rw [Option.map_eq_some_iff] at h
      obtain ⟨⟨first, more⟩, hcut, heq⟩ := h
      cases heq
      cases i with
      | zero =>
        rw [List.drop_zero, ← isSome_afterLead_iff, hlead]
        exact Bool.false_ne_true
      | succ i =>
        rw [List.drop_succ_cons]
        exact ih hcut (Nat.lt_of_succ_lt_succ hi)

theorem not_infix_of_cutAt {needle xs before rest : List α} (hne : needle ≠ [])
    (h : cutAt needle xs = some (before, rest)) : ¬needle <:+: before := by
  rintro ⟨first, more, rfl⟩
  have hpos := List.length_pos_iff.2 hne
  have hi : first.length < (first ++ needle ++ more).length := by
    rw [List.length_append, List.length_append]
    omega
  apply not_prefix_of_cutAt h hi
  rw [eq_append_of_cutAt h, List.append_assoc, List.append_assoc, List.append_assoc, List.drop_left]
  exact List.prefix_append _ _

end

theorem splitOnce_of_notMem {sep : Char} {s : String} (h : sep ∉ s.toList) : splitOnce sep s = none := by
  unfold splitOnce
  rw [cutAt_singleton_of_notMem h]
  rfl

theorem splitOnce_append {sep : Char} {before : String} (h : sep ∉ before.toList) (rest : String) :
    splitOnce sep (before ++ String.singleton sep ++ rest) = some (before, rest) := by
  have hlist : (before ++ String.singleton sep ++ rest).toList = before.toList ++ sep :: rest.toList := by simp
  unfold splitOnce
  rw [hlist, cutAt_singleton_append h]
  simp

/-- Only a text with the separator is cut, at the first of them. -/
theorem fst_splitOnce (sep : Char) (s : String) :
    (splitOnce sep s).map (·.1)
      =
    if sep ∈ s.toList then some (String.ofList (s.toList.takeWhile (· ≠ sep))) else none := by
  have hfirst : (splitOnce sep s).map (·.1) = ((cutAt [sep] s.toList).map (·.1)).map String.ofList := by
    unfold splitOnce
    rw [Option.map_map, Option.map_map]
    rfl
  rw [hfirst, fst_cutAt_singleton]
  split <;> rfl

theorem prefix_append_cons_iff {needle before rest : List α} (hsep : sep ∉ needle) :
    needle <+: before ++ sep :: rest ↔ needle <+: before := by
  constructor
  . intro h
    cases List.prefix_or_prefix_of_prefix h (List.prefix_append before (sep :: rest)) with
    | inl hprefix => exact hprefix
    | inr hbefore =>
      obtain ⟨more, rfl⟩ := hbefore
      rw [List.prefix_append_right_inj, List.prefix_cons_iff] at h
      cases h with
      | inl hnil => simp [hnil]
      | inr hcons =>
        obtain ⟨tail, rfl, _⟩ := hcons
        simp at hsep
  . intro h
    exact h.trans (List.prefix_append before (sep :: rest))

/-- What does not have the separator occurs on one side of it. -/
theorem infix_append_cons_iff {needle before rest : List α} (hsep : sep ∉ needle) :
    needle <:+: before ++ sep :: rest ↔ needle <:+: before ∨ needle <:+: rest := by
  induction before with
  | nil =>
    have hlead : needle <+: sep :: rest ↔ needle = [] := by
      rw [← List.nil_append (sep :: rest), prefix_append_cons_iff hsep, List.prefix_nil]
    rw [List.nil_append, List.infix_cons_iff, List.infix_nil, hlead]
  | cons x before ih =>
    rw [List.cons_append, List.infix_cons_iff, List.infix_cons_iff, ih, ← List.cons_append,
      prefix_append_cons_iff hsep, or_assoc]

theorem not_infix_dropLast {xs : List α} (h : xs ≠ []) : ¬xs <:+: xs.dropLast := by
  have hpos := List.length_pos_iff.2 h
  intro hinfix
  have hlength := hinfix.length_le
  rw [List.length_dropLast] at hlength
  omega

theorem infix_of_notMem {x : α} {needle before rest : List α} (hx : x ∉ before)
    (h : x :: needle <:+: before ++ rest) : x :: needle <:+: rest := by
  induction before with
  | nil => exact h
  | cons y before ih =>
    rw [List.mem_cons, not_or] at hx
    rw [List.cons_append, List.infix_cons_iff, List.cons_prefix_cons] at h
    cases h with
    | inl hprefix => exact absurd hprefix.1 hx.1
    | inr hinfix => exact ih hx.2 hinfix

/-- What begins with a pair lies behind a list that neither has the pair nor ends with its first half. -/
theorem infix_of_infix_append {x y : α} {needle before rest : List α} (hpair : ¬[x, y] <:+: before)
    (hlast : before.getLast? ≠ some x) (h : x :: y :: needle <:+: before ++ rest) : x :: y :: needle <:+: rest := by
  induction before with
  | nil => exact h
  | cons z before ih =>
    rw [List.cons_append, List.infix_cons_iff] at h
    cases h with
    | inl hprefix =>
      rw [List.cons_prefix_cons] at hprefix
      obtain ⟨rfl, hprefix⟩ := hprefix
      cases before with
      | nil => exact absurd rfl hlast
      | cons w before =>
        rw [List.cons_append, List.cons_prefix_cons] at hprefix
        obtain ⟨rfl, _⟩ := hprefix
        exact absurd ⟨[], before, rfl⟩ hpair
    | inr hinfix =>
      apply ih _ _ hinfix
      . intro hmem
        exact hpair (List.infix_cons hmem)
      . intro heq
        apply hlast
        rw [List.getLast?_cons, heq]
        rfl

/-! ## Occurrences that do not overlap -/

/-- The places at which the leftmost occurrences begin that do not overlap: all that no earlier one reaches into. -/
def IsLeftmost (needle xs : List α) (places : Nat → Prop) : Prop :=
  ∀ i, places i ↔ needle <+: xs.drop i ∧ ∀ j, places j → j < i → j + needle.length ≤ i

theorem isLeftmost_nowhere {needle xs : List α} (h : ¬needle <:+: xs) :
    IsLeftmost needle xs fun _ => False := by
  intro i
  refine ⟨False.elim, ?_⟩
  rintro ⟨hoccurs, -⟩
  exact h (hoccurs.isInfix.trans (List.drop_suffix i xs).isInfix)

/-- There is only one choice of such places. -/
theorem IsLeftmost.unique {needle xs : List α} {places others : Nat → Prop} (h : IsLeftmost needle xs places)
    (h' : IsLeftmost needle xs others) (i : Nat) : places i ↔ others i := by
  induction i using Nat.strong_induction_on with
  | h i ih =>
    rw [h i, h' i]
    apply and_congr_right
    intro _
    constructor
    . intro hfree j hj hlt
      exact hfree j ((ih j hlt).2 hj) hlt
    . intro hfree j hj hlt
      exact hfree j ((ih j hlt).1 hj) hlt

/-- Behind a front into whose end no occurrence reaches, the places are those of what is left. -/
theorem IsLeftmost.of_append {needle front rest : List α} {places : Nat → Prop}
    (h : IsLeftmost needle (front ++ rest) places)
    (hfree : ∀ i, places i → i < front.length → i + needle.length ≤ front.length) :
    IsLeftmost needle rest fun i => places (front.length + i) := by
  intro i
  dsimp only
  have hdrop : (front ++ rest).drop (front.length + i) = rest.drop i := by
    rw [← List.drop_drop, List.drop_left]
  rw [h (front.length + i), hdrop]
  apply and_congr_right
  intro _
  constructor
  . intro hall j hj hlt
    have := hall (front.length + j) hj (by omega)
    omega
  . intro hall j hj hlt
    by_cases hfront : j < front.length
    . have := hfree j hj hfront
      omega
    . obtain ⟨k, rfl⟩ := Nat.exists_eq_add_of_le (Nat.le_of_not_lt hfront)
      have := hall k hj (by omega)
      omega

/-- The first occurrence is where the cut is made, and the others are those of what is left. -/
theorem IsLeftmost.of_cutAt [DecidableEq α] {needle xs before rest : List α} {places : Nat → Prop}
    (h : IsLeftmost needle rest places) (hcut : cutAt needle xs = some (before, rest)) :
    IsLeftmost needle xs fun i =>
      i = before.length ∨ ∃ j, places j ∧ i = (before ++ needle).length + j := by
  intro i
  dsimp only
  have hxs := eq_append_of_cutAt hcut
  have hlength : (before ++ needle).length = before.length + needle.length := List.length_append
  rcases Nat.lt_trichotomy i before.length with hlt | rfl | hgt
  . have hprefix := not_prefix_of_cutAt hcut hlt
    constructor
    . rintro (heq | ⟨j, -, heq⟩) <;> omega
    . exact fun hi => absurd hi.1 hprefix
  . refine iff_of_true (.inl rfl) ⟨?_, ?_⟩
    . rw [hxs, List.append_assoc, List.drop_left]
      exact List.prefix_append _ _
    . rintro j (heq | ⟨j, -, heq⟩) hj <;> omega
  . -- an occurrence after the first one either overlaps with it or is one of the rest
    by_cases hover : i < (before ++ needle).length
    . constructor
      . rintro (heq | ⟨j, -, heq⟩) <;> omega
      . intro hi
        have := hi.2 before.length (.inl rfl) hgt
        omega
    . obtain ⟨k, rfl⟩ := Nat.exists_eq_add_of_le (Nat.le_of_not_lt hover)
      have hdrop : xs.drop ((before ++ needle).length + k) = rest.drop k := by
        rw [hxs, ← List.drop_drop, List.drop_left]
      have hplace : ((before ++ needle).length + k = before.length ∨
          ∃ j, places j ∧ (before ++ needle).length + k = (before ++ needle).length + j) ↔ places k := by
        constructor
        . rintro (heq | ⟨j, hj, heq⟩)
          . omega
          . rwa [Nat.add_left_cancel heq]
        . exact fun hk => .inr ⟨k, hk, rfl⟩
      rw [hplace, hdrop, h k]
      apply and_congr_right
      intro _
      constructor
      . rintro hfree j (heq | ⟨j, hj, rfl⟩) hlt
        . omega
        . have := hfree j hj (by omega)
          omega
      . intro hfree j hj hlt
        have := hfree _ (.inr ⟨j, hj, rfl⟩) (by omega)
        omega

end Signpost.Text
