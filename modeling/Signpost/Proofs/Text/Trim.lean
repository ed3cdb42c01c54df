import Mathlib.Data.List.DropRight
import Signpost.Text.Blank

/-!
This module contains the laws of trimming: what is dropped stands at the two ends, and a list whose ends stay is
left as it is.
-/

namespace Signpost.Text

section
variable {p : α → Bool} {xs ys : List α}

theorem trimList_eq_rdropWhile (p : α → Bool) (xs : List α) : trimList p xs = (xs.dropWhile p).rdropWhile p := by
  rfl

theorem dropWhile_eq_self_iff_head? : xs.dropWhile p = xs ↔ ∀ x ∈ xs.head?, p x = false := by
  rw [List.dropWhile_eq_self_iff]
  cases xs <;> simp

theorem rdropWhile_eq_self_iff_getLast? : xs.rdropWhile p = xs ↔ ∀ x ∈ xs.getLast?, p x = false := by
  rw [List.rdropWhile_eq_self_iff]
  cases hlast : xs.getLast? with
  | none =>
    rw [List.getLast?_eq_none_iff] at hlast
    simp [hlast]
  | some x =>
    obtain ⟨front, rfl⟩ := List.getLast?_eq_some_iff.1 hlast
    simp

/-- Nothing is dropped exactly if both ends stay. -/
theorem trimList_eq_self_iff :
    trimList p xs = xs ↔ (∀ x ∈ xs.head?, p x = false) ∧ ∀ x ∈ xs.getLast?, p x = false := by
  rw [trimList_eq_rdropWhile, ← dropWhile_eq_self_iff_head?, ← rdropWhile_eq_self_iff_getLast?]
  constructor
  . intro h
    -- both steps only shorten the list, so neither has shortened it
    have hright := (List.rdropWhile_prefix p (xs.dropWhile p)).length_le
    rw [h] at hright
    have hleft : xs.dropWhile p = xs := (List.dropWhile_sublist p).eq_of_length_le hright
    rw [hleft] at h
    exact ⟨hleft, h⟩
  . rintro ⟨hleft, hright⟩
    rw [hleft, hright]

theorem trimList_of_forall (h : ∀ x ∈ xs, p x = false) : trimList p xs = xs :=
  trimList_eq_self_iff.2
    ⟨fun x hx => h x (List.mem_of_mem_head? hx), fun x hx => h x (List.mem_of_mem_getLast? hx)⟩

theorem trimList_append_left (h : ∀ x ∈ xs, p x = true) : trimList p (xs ++ ys) = trimList p ys := by
  unfold trimList
  rw [List.dropWhile_append_of_pos h]

theorem trimList_append_right (h : ∀ y ∈ ys, p y = true) : trimList p (xs ++ ys) = trimList p xs := by
  unfold trimList
  rw [List.dropWhile_append]
  split
  . next hempty =>
    rw [List.isEmpty_iff] at hempty
    rw [hempty, List.dropWhile_eq_nil_iff.2 h]
  . rw [List.reverse_append, List.dropWhile_append_of_pos]
    intro y hy
    exact h y (List.mem_reverse.1 hy)

end

theorem trim_eq_self_iff {s : String} : trim s = s ↔ trimList isBlank s.toList = s.toList := by
  unfold trim
  rw [← String.toList_inj, String.toList_ofList]

theorem trim_of_ends {s : String} {c d : Char} (hfirst : s.toList.head? = some c) (hlast : s.toList.getLast? = some d)
    (hc : isBlank c = false) (hd : isBlank d = false) : trim s = s := by
  rw [trim_eq_self_iff, trimList_eq_self_iff, hfirst, hlast]
  constructor
  . intro x hx
    rwa [← Option.mem_some.1 hx]
  . intro x hx
    rwa [← Option.mem_some.1 hx]

theorem trim_append_left {blanks : String} (h : ∀ c ∈ blanks.toList, isBlank c = true) (s : String) :
    trim (blanks ++ s) = trim s := by
  unfold trim
  rw [String.toList_append, trimList_append_left h]

theorem trim_append_right {blanks : String} (h : ∀ c ∈ blanks.toList, isBlank c = true) (s : String) :
    trim (s ++ blanks) = trim s := by
  unfold trim
  rw [String.toList_append, trimList_append_right h]

/-- Two texts that are trimmed are so with a mark between them as well. -/
theorem trim_append_singleton_append {s t : String} {mark : Char} (hs : trim s = s) (ht : trim t = t)
    (hmark : isBlank mark = false) :
    trim (s ++ String.singleton mark ++ t) = s ++ String.singleton mark ++ t := by
  have hlist : (s ++ String.singleton mark ++ t).toList = s.toList ++ mark :: t.toList := by simp
  rw [trim_eq_self_iff, trimList_eq_self_iff] at hs ht ⊢
  rw [hlist, List.head?_append, List.getLast?_append, List.getLast?_cons]
  constructor
  . intro c hc
    cases hfirst : s.toList.head? with
    | none =>
      rw [hfirst, List.head?_cons] at hc
      exact Option.mem_some.1 hc ▸ hmark
    | some d =>
      rw [hfirst] at hc
      exact hs.1 c (hfirst ▸ hc)
  . intro c hc
    rw [Option.some_or, Option.mem_some] at hc
    rw [← hc]
    cases hlast : t.toList.getLast? with
    | none => exact hmark
    | some d => exact ht.2 d hlast

end Signpost.Text
