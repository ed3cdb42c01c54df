import Signpost.Proofs.Route.Verb

/-!
This module contains the theory of markers in names. The markers among the parts of a name are the leftmost
occurrences of the marker. A segment is spelled like the marker not only there, but also where a word becomes the
marker when its first letter is made small, and the key has the wildcard in both places.
-/

namespace Signpost.Route

namespace Name

/-- What a part was in the name. -/
def NamePart.letters (marker : List Char) : NamePart → List Char
  | .marker => marker
  | .word letters => letters

/-- Where a part begins in the name. -/
def startOf (marker : List Char) (parts : List NamePart) (k : Nat) : Nat :=
  ((parts.take k).flatMap (NamePart.letters marker)).length

/-- Whether one of the parts is a marker that begins at a place of the name. -/
def MarkedAt (marker : List Char) (parts : List NamePart) (place : Nat) : Prop :=
  ∃ k, parts[k]? = some .marker ∧ place = startOf marker parts k

/-- The parts make up the name, the markers among them are the leftmost occurrences, and no word has another. -/
structure Around (marker name : List Char) (parts : List NamePart) : Prop where
  whole : parts.flatMap (NamePart.letters marker) = name
  leftmost : Text.IsLeftmost marker name (MarkedAt marker parts)
  words : ∀ letters, .word letters ∈ parts → ¬marker <:+: letters

/-! ## Taking a name apart -/

theorem flatten_camelTail (cs : List Char) : (camelTail cs).1 ++ (camelTail cs).2.flatten = cs := by
  induction cs with
  | nil => rfl
  | cons c cs ih =>
    rw [camelTail]
    dsimp only
    split
    . rw [List.nil_append, List.flatten_cons, List.cons_append, ih]
    . rw [List.cons_append, ih]

theorem flatten_camelWords (cs : List Char) : (camelWords cs).flatten = cs := by
  cases cs with
  | nil => rfl
  | cons c cs =>
    rw [camelWords]
    dsimp only
    rw [List.flatten_cons, List.cons_append, flatten_camelTail]

theorem exists_of_mem_wordsBetween {cs : List Char} {part : NamePart} (h : part ∈ wordsBetween cs) :
    ∃ letters ∈ camelWords cs, part = .word letters := by
  unfold wordsBetween at h
  split at h
  . cases h
  . obtain ⟨letters, hletters, rfl⟩ := List.mem_map.1 h
    exact ⟨letters, hletters, rfl⟩

theorem flatMap_wordsBetween (marker cs : List Char) :
    (wordsBetween cs).flatMap (NamePart.letters marker) = cs := by
  unfold wordsBetween
  split
  . next hnil =>
    rw [hnil]
    rfl
  . rw [List.flatMap_map]
    exact List.flatMap_id.trans (flatten_camelWords cs)

theorem infix_of_word_mem {cs letters : List Char} (h : .word letters ∈ wordsBetween cs) : letters <:+: cs := by
  obtain ⟨letters', hmem, heq⟩ := exists_of_mem_wordsBetween h
  cases heq
  rw [← flatten_camelWords cs]
  exact List.infix_of_mem_flatten hmem

theorem not_markedAt_wordsBetween (marker cs : List Char) (place : Nat) :
    ¬MarkedAt marker (wordsBetween cs) place := by
  rintro ⟨k, hk, -⟩
  obtain ⟨letters, -, heq⟩ := exists_of_mem_wordsBetween (List.mem_of_getElem? hk)
  cases heq

theorem startOf_append_of_le {marker : List Char} {front : List NamePart} {k : Nat} (h : k ≤ front.length)
    (back : List NamePart) : startOf marker (front ++ back) k = startOf marker front k := by
  unfold startOf
  rw [List.take_append_of_le_length h]

/-- A part of the back begins after all that is in front. -/
theorem startOf_append (marker : List Char) (front back : List NamePart) (k : Nat) :
    startOf marker (front ++ back) (front.length + k)
      =
    (front.flatMap (NamePart.letters marker)).length + startOf marker back k := by
  unfold startOf
  rw [List.take_length_add_append, List.flatMap_append, List.length_append]

theorem startOf_cons_succ (marker : List Char) (part : NamePart) (parts : List NamePart) (k : Nat) :
    startOf marker (part :: parts) (k + 1) = (NamePart.letters marker part).length + startOf marker parts k := by
  unfold startOf
  rw [List.take_succ_cons, List.flatMap_cons, List.length_append]

theorem markedAt_append_iff {marker : List Char} {front back : List NamePart} {place : Nat} :
    MarkedAt marker (front ++ back) place ↔
      MarkedAt marker front place ∨
        ∃ j, MarkedAt marker back j ∧ place = (front.flatMap (NamePart.letters marker)).length + j := by
  unfold MarkedAt
  constructor
  . rintro ⟨k, hk, rfl⟩
    by_cases hlt : k < front.length
    . rw [List.getElem?_append_left hlt] at hk
      exact .inl ⟨k, hk, startOf_append_of_le (Nat.le_of_lt hlt) back⟩
    . obtain ⟨j, rfl⟩ := Nat.exists_eq_add_of_le (Nat.le_of_not_lt hlt)
      rw [List.getElem?_append_right (by omega), Nat.add_sub_cancel_left] at hk
      exact .inr ⟨_, ⟨j, hk, rfl⟩, startOf_append marker front back j⟩
  . rintro (⟨k, hk, rfl⟩ | ⟨_, ⟨j, hj, rfl⟩, rfl⟩)
    . have hlt := (List.getElem?_eq_some_iff.1 hk).1
      refine ⟨k, ?_, (startOf_append_of_le (Nat.le_of_lt hlt) back).symm⟩
      rwa [List.getElem?_append_left hlt]
    . refine ⟨front.length + j, ?_, (startOf_append marker front back j).symm⟩
      rwa [List.getElem?_append_right (by omega), Nat.add_sub_cancel_left]

theorem markedAt_cons_iff {marker : List Char} {part : NamePart} {parts : List NamePart} {place : Nat} :
    MarkedAt marker (part :: parts) place ↔
      (part = .marker ∧ place = 0) ∨
        ∃ j, MarkedAt marker parts j ∧ place = (NamePart.letters marker part).length + j := by
  have hfirst : MarkedAt marker [part] place ↔ part = .marker ∧ place = 0 := by
    constructor
    . rintro ⟨k, hk, rfl⟩
      cases k with
      | zero => exact ⟨Option.some.inj hk, rfl⟩
      | succ k => cases hk
    . rintro ⟨rfl, rfl⟩
      exact ⟨0, rfl, rfl⟩
  rw [← List.singleton_append, markedAt_append_iff, hfirst, List.flatMap_singleton]

/-- The markers of a name are the first one and those of what follows it. -/
theorem markedAt_wordsBetween_append_iff {marker before : List Char} {parts : List NamePart} {place : Nat} :
    MarkedAt marker (wordsBetween before ++ .marker :: parts) place ↔
      place = before.length ∨ ∃ j, MarkedAt marker parts j ∧ place = (before ++ marker).length + j := by
  rw [markedAt_append_iff, or_iff_right (not_markedAt_wordsBetween marker before place), flatMap_wordsBetween]
  simp only [markedAt_cons_iff, true_and]
  constructor
  . rintro ⟨_, rfl | ⟨j, hj, rfl⟩, rfl⟩
    . exact .inl rfl
    . refine .inr ⟨j, hj, ?_⟩
      rw [List.length_append, Nat.add_assoc, NamePart.letters]
  . rintro (rfl | ⟨j, hj, rfl⟩)
    . exact ⟨0, .inl rfl, rfl⟩
    . refine ⟨_, .inr ⟨j, hj, rfl⟩, ?_⟩
      rw [List.length_append, Nat.add_assoc, NamePart.letters]

theorem Around.of_unmarked {marker name : List Char} (h : ¬marker <:+: name) :
    Around marker name (wordsBetween name) where
  whole := flatMap_wordsBetween marker name
  leftmost := by
    have hnone : MarkedAt marker (wordsBetween name) = fun _ => False := by
      funext place
      exact eq_false (not_markedAt_wordsBetween marker name place)
    rw [hnone]
    exact Text.isLeftmost_nowhere h
  words := by
    intro letters hmem hoccurs
    exact h (hoccurs.trans (infix_of_word_mem hmem))

theorem Around.of_cutAt {marker name before rest : List Char} {parts : List NamePart} (hne : marker ≠ [])
    (hcut : Text.cutAt marker name = some (before, rest)) (h : Around marker rest parts) :
    Around marker name (wordsBetween before ++ .marker :: parts) where
  whole := by
    rw [List.flatMap_append, List.flatMap_cons, flatMap_wordsBetween, h.whole, ← List.append_assoc]
    exact (Text.eq_append_of_cutAt hcut).symm
  leftmost := by
    have hmarked : MarkedAt marker (wordsBetween before ++ .marker :: parts)
        = fun i => i = before.length ∨ ∃ j, MarkedAt marker parts j ∧ i = (before ++ marker).length + j := by
      funext place
      exact propext markedAt_wordsBetween_append_iff
    rw [hmarked]
    exact h.leftmost.of_cutAt hcut
  words := by
    intro letters hmem
    rw [List.mem_append, List.mem_cons] at hmem
    obtain hbefore | heq | hparts := hmem
    . exact fun hoccurs => Text.not_infix_of_cutAt hne hcut (hoccurs.trans (infix_of_word_mem hbefore))
    . cases heq
    . exact h.words letters hparts

/-- What holds of texts without the marker, and of a text if it holds of what follows the first marker. -/
theorem parts_induction {marker : String} {motive : List Char → List NamePart → Prop} (hne : marker ≠ "")
    (unmarked : ∀ name, ¬marker.toList <:+: name → motive name (wordsBetween name))
    (cut : ∀ name before rest parts, Text.cutAt marker.toList name = some (before, rest) → motive rest parts →
      motive name (wordsBetween before ++ .marker :: parts))
    (name : String) : motive name.toList (parts marker name) := by
  have hlist : marker.toList ≠ [] := mt String.toList_eq_nil_iff.1 hne
  unfold parts
  rw [dif_neg hlist]
  induction name.toList using partsAround.induct marker.toList hlist with
  | case1 name before rest hcut ih =>
    rw [partsAround_of_cutAt hlist hcut]
    exact cut name before rest _ hcut ih
  | case2 name hcut =>
    rw [partsAround_of_cutAt_eq_none hlist hcut]
    apply unmarked
    rw [← Text.isSome_cutAt_iff, hcut]
    exact Bool.false_ne_true

theorem around_parts {marker : String} (hne : marker ≠ "") (name : String) :
    Around marker.toList name.toList (parts marker name) := by
  apply parts_induction hne
  . intro name hunmarked
    exact Around.of_unmarked hunmarked
  . intro name before rest parts hcut hrest
    exact hrest.of_cutAt (mt String.toList_eq_nil_iff.1 hne) hcut

/-! ## Words that become the marker -/

theorem segment_word_eq_iff {marker : String} {letters : List Char} :
    NamePart.segment marker (.word letters) = marker ↔ lowerFirst letters = marker.toList := by
  rw [← String.toList_inj, NamePart.segment, String.toList_ofList]

end Name

namespace Naming

open Name (Around lowerFirst)

variable {naming : Naming} {marker name key : String}

/-- Whether the segment at an index is the wildcard, whatever the wildcard is. -/
def WildAt (marker name : String) (k : Nat) : Prop :=
  ∀ wildcard, ((Naming.mk marker wildcard).pieces name)[k]? = some wildcard

theorem getElem?_pieces (k : Nat) :
    (naming.pieces name)[k]?
      =
    ((Name.split naming.marker name)[k]?).map fun s => if s = naming.marker then naming.wildcard else s := by
  unfold pieces
  rw [List.getElem?_map]

theorem wildAt_iff_split {k : Nat} : WildAt marker name k ↔ (Name.split marker name)[k]? = some marker := by
  unfold WildAt
  simp only [getElem?_pieces, Option.map_eq_some_iff]
  constructor
  . intro h
    -- a segment that is no marker cannot be two wildcards at once
    obtain ⟨s, hs, hempty⟩ := h ""
    obtain ⟨s', hs', hstar⟩ := h "*"
    rw [hs, Option.some.injEq] at hs'
    subst hs'
    split at hempty
    . next heq => rw [hs, heq]
    . next hne =>
      rw [if_neg hne, hempty] at hstar
      exact absurd hstar (by decide)
  . intro h wildcard
    exact ⟨marker, h, if_pos rfl⟩

theorem wildAt_iff_parts {k : Nat} :
    WildAt marker name k ↔
      (Name.parts marker name)[k]? = some .marker ∨
        ∃ letters, (Name.parts marker name)[k]? = some (.word letters) ∧ lowerFirst letters = marker.toList := by
  rw [wildAt_iff_split, Name.split, List.getElem?_map, Option.map_eq_some_iff]
  constructor
  . rintro ⟨part, hpart, hsegment⟩
    cases part with
    | marker => exact .inl hpart
    | word letters => exact .inr ⟨letters, hpart, Name.segment_word_eq_iff.1 hsegment⟩
  . rintro (hmarker | ⟨letters, hword, hlower⟩)
    . exact ⟨_, hmarker, rfl⟩
    . exact ⟨_, hword, Name.segment_word_eq_iff.2 hlower⟩

/--
The key of an accepted name is joined from its parts, among which the markers are the leftmost occurrences of
the marker. The wildcard stands for these, and for a word that has no occurrence but becomes the marker when its
first letter is made small. Every other word is a segment of its own, and so the occurrences alone are replaced
exactly if there is no such word.
-/
theorem wildAt_of_key (hmarker : naming.marker ≠ "") (h : naming.key name = .ok key) :
    key = joinPath (naming.pieces name) ∧
      (naming.pieces name).length = (Name.parts naming.marker name).length ∧
      Around naming.marker.toList name.toList (Name.parts naming.marker name) ∧
      (∀ k, WildAt naming.marker name k ↔
        (Name.parts naming.marker name)[k]? = some .marker ∨
          ∃ letters, (Name.parts naming.marker name)[k]? = some (.word letters) ∧
            ¬naming.marker.toList <:+: letters ∧ lowerFirst letters = naming.marker.toList) ∧
      (∀ k, ¬WildAt naming.marker name k →
        (naming.pieces name)[k]? = (Name.split naming.marker name)[k]?) ∧
      ((∀ k, WildAt naming.marker name k ↔ (Name.parts naming.marker name)[k]? = some .marker) ↔
        ∀ letters, .word letters ∈ Name.parts naming.marker name → lowerFirst letters ≠ naming.marker.toList) := by
  obtain ⟨verb, -, -, rfl⟩ := key_eq_ok_iff.1 h
  have haround := Name.around_parts hmarker name
  refine ⟨rfl, ?_, haround, ?_, ?_, ?_⟩
  . unfold pieces Name.split
    rw [List.length_map, List.length_map]
  . intro k
    rw [wildAt_iff_parts]
    apply or_congr_right
    apply exists_congr
    intro letters
    apply and_congr_right
    intro hword
    rw [and_iff_right (haround.words letters (List.mem_of_getElem? hword))]
  . intro k hk
    rw [wildAt_iff_split] at hk
    rw [getElem?_pieces]
    cases hs : (Name.split naming.marker name)[k]? with
    | none => rfl
    | some s =>
      rw [hs, Option.some.injEq] at hk
      rw [Option.map_some, if_neg hk]
  . simp only [wildAt_iff_parts]
    constructor
    . intro honly letters hmem hlower
      obtain ⟨k, hk⟩ := List.mem_iff_getElem?.1 hmem
      have hmarked := (honly k).1 (.inr ⟨letters, hk, hlower⟩)
      rw [hk] at hmarked
      cases hmarked
    . intro hnone k
      constructor
      . rintro (hmarked | ⟨letters, hk, hlower⟩)
        . exact hmarked
        . exact absurd hlower (hnone letters (List.mem_of_getElem? hk))
      . exact .inl

theorem wildAt_of_key_user :
    (Naming.mk "user" "*").key "GetXuserUser" = .ok "get/x/*/*" ∧ ¬WildAt "user" "GetXuserUser" 1 ∧
      WildAt "user" "GetXuserUser" 2 ∧ WildAt "user" "GetXuserUser" 3 := by
  have hkey : (Naming.mk "user" "*").key "GetXuserUser" = .ok "get/x/*/*" := by decide +kernel
  obtain ⟨-, -, haround, hwild, -, -⟩ := wildAt_of_key (by decide) hkey
  have hparts : Name.parts "user" "GetXuserUser"
      = [.word ['G', 'e', 't'], .word ['X'], .marker, .word ['U', 's', 'e', 'r']] := by decide +kernel
  have huser := haround.words ['U', 's', 'e', 'r'] (by simp [hparts])
  simp only [hparts] at hwild
  refine ⟨hkey, ?_, (hwild 2).2 (.inl rfl), (hwild 3).2 (.inr ⟨_, rfl, huser, by decide +kernel⟩)⟩
  rw [hwild]
  rintro (hmarker | ⟨letters, hword, -, hlower⟩)
  . cases hmarker
  . cases hword
    exact absurd hlower (by decide +kernel)

/-- A word becomes the marker although the name has no occurrence of it, and the wildcard stands for the word. -/
theorem key_with_word_like_marker :
    (Naming.mk "id" "*").key "GetId" = .ok "get/*" ∧
      Text.IsLeftmost "id".toList "GetId".toList (fun _ => False) ∧
      Name.parts "id" "GetId" = [.word ['G', 'e', 't'], .word ['I', 'd']] ∧ WildAt "id" "GetId" 1 := by
  have hparts : Name.parts "id" "GetId" = [.word ['G', 'e', 't'], .word ['I', 'd']] := by decide +kernel
  refine ⟨by decide +kernel, Text.isLeftmost_nowhere (by decide +kernel), hparts, ?_⟩
  rw [wildAt_iff_parts, hparts]
  exact .inr ⟨_, rfl, by decide +kernel⟩

end Naming

end Signpost.Route
