import Mathlib.Data.List.Forall2
import Signpost.Proofs.Route.Marked
import Signpost.Proofs.Text.Boundaries

/-!
This module contains the cut of a name into parts. The markers and the capitals leave only one way to cut a name, the
parts that are found make up the name again, and in its bytes the cuts lie between characters.
-/

namespace Signpost.Route

namespace Name

/-- A first letter, and no capital after it. -/
def IsCamelWord (letters : List Char) : Prop :=
  ∃ first small, letters = first :: small ∧ ∀ c ∈ small, isUpper c = false

/--
The parts are a cut of the name. Every word has a first letter and no capital after it, and begins where the name
begins, right after a marker, or with a capital.
-/
structure IsPartition (marker name : List Char) (parts : List NamePart) : Prop extends Around marker name parts where
  camel : ∀ letters, .word letters ∈ parts → IsCamelWord letters
  begins : ∀ k letters, parts[k]? = some (.word letters) →
    startOf marker parts k = 0 ∨
      (∃ place, MarkedAt marker parts place ∧ startOf marker parts k = place + marker.length) ∨
      ∃ c ∈ letters.head?, isUpper c = true

/-- A segment is spelled as a part is, apart from the first letter of a word, which is made small. -/
inductive NamePart.Spells (marker : String) : NamePart → String → Prop
  | marker : Spells marker .marker marker
  | word (first : Char) (small : List Char) :
    Spells marker (.word (first :: small)) (String.ofList (Text.lowercase first ++ small))

/-- Where a part begins in the bytes of the name. -/
def byteStartOf (marker : List Char) (parts : List NamePart) (k : Nat) : Nat :=
  (Text.bytesOf ((parts.take k).flatMap (NamePart.letters marker))).length

/-! ## Words between two markers -/

theorem capitals_camelTail (cs : List Char) :
    (∀ c ∈ (camelTail cs).1, isUpper c = false) ∧
      ∀ letters ∈ (camelTail cs).2, IsCamelWord letters ∧ ∃ c ∈ letters.head?, isUpper c = true := by
  induction cs with
  | nil => exact ⟨List.forall_mem_nil _, List.forall_mem_nil _⟩
  | cons c cs ih =>
    rw [camelTail]
    dsimp only
    split
    . next hupper =>
      refine ⟨List.forall_mem_nil _, ?_⟩
      rw [List.forall_mem_cons]
      exact ⟨⟨⟨c, _, rfl, ih.1⟩, c, rfl, hupper⟩, ih.2⟩
    . next hlower =>
      refine ⟨?_, ih.2⟩
      rw [List.forall_mem_cons]
      exact ⟨Bool.not_eq_true _ ▸ hlower, ih.1⟩

theorem wordsBetween_cons (c : Char) (cs : List Char) :
    wordsBetween (c :: cs) = .word (c :: (camelTail cs).1) :: (camelTail cs).2.map .word := by
  unfold wordsBetween
  rw [if_neg (List.cons_ne_nil c cs)]
  rfl

theorem isCamelWord_wordsBetween {cs letters : List Char} (h : .word letters ∈ wordsBetween cs) :
    IsCamelWord letters := by
  cases cs with
  | nil => cases h
  | cons c cs =>
    obtain ⟨hfirst, hwords⟩ := capitals_camelTail cs
    rw [wordsBetween_cons, List.mem_cons] at h
    cases h with
    | inl heq =>
      cases heq
      exact ⟨c, _, rfl, hfirst⟩
    | inr hmem =>
      obtain ⟨_, hletters, heq⟩ := List.mem_map.1 hmem
      cases heq
      exact (hwords letters hletters).1

/-- All words but the first one begin with a capital. -/
theorem begins_wordsBetween {cs letters : List Char} {k : Nat} (h : (wordsBetween cs)[k]? = some (.word letters)) :
    k = 0 ∨ ∃ c ∈ letters.head?, isUpper c = true := by
  cases k with
  | zero => exact .inl rfl
  | succ k =>
    right
    cases cs with
    | nil => cases h
    | cons c cs =>
      rw [wordsBetween_cons, List.getElem?_cons_succ] at h
      obtain ⟨_, hletters, heq⟩ := List.mem_map.1 (List.mem_of_getElem? h)
      cases heq
      exact ((capitals_camelTail cs).2 letters hletters).2

/-- No capital stands inside of a word. -/
theorem IsCamelWord.isUpper_inside {front rest letters more : List Char} {c : Char} (h : IsCamelWord letters)
    (hwhole : front ++ c :: rest = letters ++ more) (hfront : front ≠ []) (hlt : front.length < letters.length) :
    isUpper c = false := by
  obtain ⟨first, small, rfl, hsmall⟩ := h
  obtain ⟨_, front, rfl⟩ := List.exists_cons_of_ne_nil hfront
  rw [List.cons_append, List.cons_append, List.cons.injEq, List.append_cons] at hwhole
  have hwithin : front ++ [c] <+: small := by
    apply List.prefix_of_prefix_length_le ⟨rest, hwhole.2⟩ (List.prefix_append small more)
    rw [List.length_append]
    exact Nat.le_of_lt_succ (Nat.lt_succ_of_le (Nat.lt_of_succ_lt_succ hlt))
  exact hsmall c (hwithin.subset (List.mem_append_right _ (List.mem_singleton_self c)))

/-! ## A partition -/

section
variable {marker name : List Char}

theorem IsPartition.of_unmarked (h : ¬marker <:+: name) : IsPartition marker name (wordsBetween name) where
  toAround := .of_unmarked h
  camel := fun _ => isCamelWord_wordsBetween
  begins := by
    intro k letters hk
    obtain rfl | hcapital := begins_wordsBetween hk
    . exact .inl rfl
    . exact .inr (.inr hcapital)

theorem IsPartition.of_cutAt {before rest : List Char} {parts : List NamePart} (hne : marker ≠ [])
    (hcut : Text.cutAt marker name = some (before, rest)) (h : IsPartition marker rest parts) :
    IsPartition marker name (wordsBetween before ++ .marker :: parts) where
  toAround := h.toAround.of_cutAt hne hcut
  camel := by
    intro letters hmem
    rw [List.mem_append, List.mem_cons] at hmem
    obtain hbefore | heq | hparts := hmem
    . exact isCamelWord_wordsBetween hbefore
    . cases heq
    . exact h.camel letters hparts
  begins := by
    intro k letters hk
    simp only [markedAt_wordsBetween_append_iff]
    by_cases hlt : k < (wordsBetween before).length
    . rw [List.getElem?_append_left hlt] at hk
      obtain rfl | hcapital := begins_wordsBetween hk
      . exact .inl rfl
      . exact .inr (.inr hcapital)
    . obtain ⟨k, rfl⟩ := Nat.exists_eq_add_of_le (Nat.le_of_not_lt hlt)
      rw [List.getElem?_append_right (Nat.le_add_right _ _), Nat.add_sub_cancel_left] at hk
      rw [startOf_append, flatMap_wordsBetween]
      cases k with
      | zero => cases hk
      | succ k =>
        -- what begins the rest begins right after the marker
        have hstart : startOf marker (.marker :: parts) (k + 1) = marker.length + startOf marker parts k :=
          startOf_cons_succ marker .marker parts k
        right
        obtain hzero | ⟨place, hplace, heq⟩ | hcapital := h.begins k letters hk
        . exact .inl ⟨_, .inl rfl, by rw [hstart, hzero, Nat.add_zero]⟩
        . refine .inl ⟨_, .inr ⟨place, hplace, rfl⟩, ?_⟩
          rw [hstart, heq, List.length_append]
          omega
        . exact .inr hcapital

theorem isPartition_parts {marker : String} (hne : marker ≠ "") (name : String) :
    IsPartition marker.toList name.toList (parts marker name) := by
  apply parts_induction hne
  . intro name hunmarked
    exact IsPartition.of_unmarked hunmarked
  . intro name before rest parts hcut hrest
    exact hrest.of_cutAt (mt String.toList_eq_nil_iff.1 hne) hcut

/-! ## No other partition -/

namespace IsPartition

variable {part other : NamePart} {parts others : List NamePart}

theorem letters_ne_nil (hne : marker ≠ []) (h : IsPartition marker name parts) (hmem : part ∈ parts) :
    NamePart.letters marker part ≠ [] := by
  cases part with
  | marker => exact hne
  | word letters =>
    obtain ⟨first, small, rfl, -⟩ := h.camel letters hmem
    exact List.cons_ne_nil first small

theorem length_head_pos (hne : marker ≠ []) (h : IsPartition marker name (part :: parts)) :
    0 < (NamePart.letters marker part).length :=
  List.length_pos_iff.2 (h.letters_ne_nil hne List.mem_cons_self)

theorem markedAt_zero_iff (hne : marker ≠ []) (h : IsPartition marker name (part :: parts)) :
    MarkedAt marker (part :: parts) 0 ↔ part = .marker := by
  have hpos := h.length_head_pos hne
  rw [markedAt_cons_iff]
  constructor
  . rintro (⟨hpart, -⟩ | ⟨j, -, heq⟩)
    . exact hpart
    . omega
  . intro hpart
    exact .inl ⟨hpart, rfl⟩

theorem markedAt_add_iff (hne : marker ≠ []) (h : IsPartition marker name (part :: parts)) {place : Nat} :
    MarkedAt marker (part :: parts) ((NamePart.letters marker part).length + place) ↔ MarkedAt marker parts place := by
  have hpos := h.length_head_pos hne
  rw [markedAt_cons_iff]
  constructor
  . rintro (⟨-, hzero⟩ | ⟨j, hj, heq⟩)
    . omega
    . rwa [Nat.add_left_cancel heq]
  . intro hplace
    exact .inr ⟨place, hplace, rfl⟩

/-- What is left behind the first part is cut by the other parts. -/
theorem tail (hne : marker ≠ []) (h : IsPartition marker name (part :: parts)) :
    IsPartition marker (parts.flatMap (NamePart.letters marker)) parts where
  whole := rfl
  leftmost := by
    have hplaces : MarkedAt marker parts
        = fun place => MarkedAt marker (part :: parts) ((NamePart.letters marker part).length + place) := by
      funext place
      exact propext (h.markedAt_add_iff hne).symm
    rw [hplaces]
    apply Text.IsLeftmost.of_append
    . rw [← List.flatMap_cons, h.whole]
      exact h.leftmost
    . intro place hplace hlt
      rw [markedAt_cons_iff] at hplace
      obtain ⟨rfl, rfl⟩ | ⟨j, -, rfl⟩ := hplace
      . exact Nat.le_of_eq (Nat.zero_add _)
      . omega
  words := fun letters hmem => h.words letters (List.mem_cons_of_mem _ hmem)
  camel := fun letters hmem => h.camel letters (List.mem_cons_of_mem _ hmem)
  begins := by
    intro k letters hk
    have hbegins := h.begins (k + 1) letters hk
    rw [startOf_cons_succ] at hbegins
    obtain hzero | ⟨place, hplace, heq⟩ | hcapital := hbegins
    . exact .inl (Nat.eq_zero_of_add_eq_zero_left hzero)
    . rw [markedAt_cons_iff] at hplace
      obtain ⟨rfl, rfl⟩ | ⟨j, hj, rfl⟩ := hplace
      . rw [NamePart.letters] at heq
        exact .inl (by omega)
      . exact .inr (.inl ⟨j, hj, by omega⟩)
    . exact .inr (.inr hcapital)

/-- A word that comes right after another begins with a capital. -/
theorem capital_of_word {letters second : List Char} (hne : marker ≠ [])
    (h : IsPartition marker name (.word letters :: .word second :: parts)) : ∃ c ∈ second.head?, isUpper c = true := by
  have hpos := h.length_head_pos hne
  have hmarker := List.length_pos_iff.2 hne
  have hstart : startOf marker (.word second :: parts) 0 = 0 := rfl
  have hbegins := h.begins 1 second rfl
  rw [startOf_cons_succ, hstart] at hbegins
  obtain hzero | ⟨place, hplace, heq⟩ | hcapital := hbegins
  . omega
  . rw [markedAt_cons_iff] at hplace
    obtain ⟨hword, -⟩ | ⟨j, -, rfl⟩ := hplace
    . cases hword
    . omega
  . exact hcapital

/-- Of two cuts none begins with a longer word than the other. -/
theorem length_le_of_word {letters longer : List Char} (hne : marker ≠ [])
    (h : IsPartition marker name (.word letters :: parts)) (h' : IsPartition marker name (.word longer :: others)) :
    longer.length ≤ letters.length := by
  have hletters : NamePart.letters marker (.word letters) = letters := rfl
  have hlonger : NamePart.letters marker (.word longer) = longer := rfl
  have hwhole := h.whole.trans h'.whole.symm
  rw [List.flatMap_cons, List.flatMap_cons, hletters, hlonger] at hwhole
  by_contra hlt
  -- what follows the shorter word would begin inside of the longer one, which has neither a marker nor a capital there
  cases parts with
  | nil =>
    have hlength := congrArg List.length hwhole
    rw [List.length_append, List.length_append, List.flatMap_nil, List.length_nil] at hlength
    omega
  | cons next parts =>
    cases next with
    | marker =>
      have hmarked : MarkedAt marker (.word letters :: .marker :: parts) letters.length :=
        markedAt_cons_iff.2 (.inr ⟨0, markedAt_cons_iff.2 (.inl ⟨rfl, rfl⟩), rfl⟩)
      rw [h.leftmost.unique h'.leftmost, markedAt_cons_iff, hlonger] at hmarked
      obtain ⟨hword, -⟩ | ⟨j, -, heq⟩ := hmarked
      . cases hword
      . omega
    | word second =>
      obtain ⟨c, hc, hupper⟩ := h.capital_of_word hne
      obtain ⟨more, rfl⟩ := List.head?_eq_some_iff.1 hc
      have hinside := (h'.camel longer List.mem_cons_self).isUpper_inside hwhole
        (h.letters_ne_nil hne List.mem_cons_self) (Nat.lt_of_not_le hlt)
      rw [hupper] at hinside
      cases hinside

theorem head_eq (hne : marker ≠ []) (h : IsPartition marker name (part :: parts))
    (h' : IsPartition marker name (other :: others)) : part = other := by
  have hmarker : part = .marker ↔ other = .marker := by
    rw [← h.markedAt_zero_iff hne, ← h'.markedAt_zero_iff hne]
    exact h.leftmost.unique h'.leftmost 0
  cases part with
  | marker => exact (hmarker.1 rfl).symm
  | word letters =>
    cases other with
    | marker => exact hmarker.2 rfl
    | word longer =>
      have hlength := Nat.le_antisymm (h'.length_le_of_word hne h) (h.length_le_of_word hne h')
      have hwhole := h.whole.trans h'.whole.symm
      rw [List.flatMap_cons, List.flatMap_cons] at hwhole
      rw [show letters = longer from (List.append_inj hwhole hlength).1]

theorem ne_nil (hne : marker ≠ []) (h : IsPartition marker name (part :: parts)) : name ≠ [] := by
  rw [← h.whole, List.flatMap_cons]
  exact List.append_ne_nil_of_left_ne_nil (h.letters_ne_nil hne List.mem_cons_self) _

theorem unique (hne : marker ≠ []) (h : IsPartition marker name parts) (h' : IsPartition marker name others) :
    parts = others := by
  induction parts generalizing name others with
  | nil =>
    cases others with
    | nil => rfl
    | cons other others => exact absurd h.whole.symm (h'.ne_nil hne)
  | cons part parts ih =>
    cases others with
    | nil => exact absurd h'.whole.symm (h.ne_nil hne)
    | cons other others =>
      obtain rfl := h.head_eq hne h'
      have hwhole := h.whole.trans h'.whole.symm
      rw [List.flatMap_cons, List.flatMap_cons] at hwhole
      have htail := h'.tail hne
      rw [← List.append_cancel_left hwhole] at htail
      rw [ih (h.tail hne) htail]

theorem length_le (hne : marker ≠ []) (h : IsPartition marker name parts) : parts.length ≤ name.length := by
  induction parts generalizing name with
  | nil => exact Nat.zero_le _
  | cons part parts ih =>
    have hpos := h.length_head_pos hne
    have hrest := ih (h.tail hne)
    rw [← h.whole, List.flatMap_cons, List.length_append, List.length_cons]
    omega

end IsPartition

/-! ## The bytes of a name -/

theorem byteStartOf_eq {parts : List NamePart} (h : parts.flatMap (NamePart.letters marker) = name) (k : Nat) :
    byteStartOf marker parts k = Text.offset name (startOf marker parts k) := by
  have hsplit : name
      = (parts.take k).flatMap (NamePart.letters marker) ++ (parts.drop k).flatMap (NamePart.letters marker) := by
    rw [← List.flatMap_append, List.take_append_drop, h]
  rw [hsplit, byteStartOf, Text.offset, startOf, List.take_left]

theorem IsPartition.isBoundary_byteStartOf {parts : List NamePart} (h : IsPartition marker name parts) (k : Nat) :
    Text.IsBoundary (Text.bytesOf name) (byteStartOf marker parts k) := by
  rw [byteStartOf_eq h.whole]
  exact Text.isBoundary_offset name _

theorem IsPartition.isLeftmost_byteStartOf {parts : List NamePart} (hne : marker ≠ [])
    (h : IsPartition marker name parts) :
    Text.IsLeftmost (Text.bytesOf marker) (Text.bytesOf name)
      fun place => ∃ k, parts[k]? = some .marker ∧ place = byteStartOf marker parts k := by
  have hplaces : (fun place => ∃ k, parts[k]? = some .marker ∧ place = byteStartOf marker parts k)
      = fun place => ∃ n, MarkedAt marker parts n ∧ place = Text.offset name n := by
    funext place
    simp only [byteStartOf_eq h.whole, MarkedAt]
    apply propext
    constructor
    . rintro ⟨k, hk, rfl⟩
      exact ⟨_, ⟨k, hk, rfl⟩, rfl⟩
    . rintro ⟨_, ⟨k, hk, rfl⟩, rfl⟩
      exact ⟨k, hk, rfl⟩
  rw [hplaces]
  exact h.leftmost.bytesOf hne

end

/-! ## The segments of a name -/

theorem spells_segment {marker : String} {name : List Char} {parts : List NamePart}
    (h : IsPartition marker.toList name parts) :
    List.Forall₂ (NamePart.Spells marker) parts (parts.map (NamePart.segment marker)) := by
  rw [List.forall₂_map_right_iff, List.forall₂_same]
  intro part hmem
  cases part with
  | marker => exact .marker
  | word letters =>
    obtain ⟨first, small, rfl, -⟩ := h.camel letters hmem
    exact .word first small

/--
There is exactly one cut of a name at the leftmost occurrences of the marker and at the capitals between them. The
segments are its parts in this order, in which nothing but the first letter of a word is changed. There are no more
parts than characters. In the bytes of the name every part begins between two characters, and the markers are the
leftmost occurrences of the bytes of the marker.
-/
theorem exists_partition_split {marker : String} (hmarker : marker ≠ "") (name : String) :
    ∃ parts, IsPartition marker.toList name.toList parts ∧
      (∀ others, IsPartition marker.toList name.toList others → others = parts) ∧
      List.Forall₂ (NamePart.Spells marker) parts (split marker name) ∧
      parts.length ≤ name.length ∧
      (∀ k, Text.IsBoundary (Text.utf8 name) (byteStartOf marker.toList parts k)) ∧
      Text.IsLeftmost (Text.utf8 marker) (Text.utf8 name)
        fun place => ∃ k, parts[k]? = some .marker ∧ place = byteStartOf marker.toList parts k := by
  have hne : marker.toList ≠ [] := mt String.toList_eq_nil_iff.1 hmarker
  have h := isPartition_parts hmarker name
  refine ⟨parts marker name, h, ?_, spells_segment h, h.length_le hne, ?_, h.isLeftmost_byteStartOf hne⟩
  . intro others hothers
    exact hothers.unique hne h
  . intro k
    exact h.isBoundary_byteStartOf k

theorem exists_partition_split_umlauts :
    let name := "ÉtéGetXÜberÜÜ"
    let cut := [.word ['É', 't', 'é'], .word ['G', 'e', 't'], .word ['X'], .marker, .word ['b', 'e', 'r'], .marker,
      .marker]
    IsPartition ['Ü'] name.toList cut ∧ (∀ others, IsPartition ['Ü'] name.toList others → others = cut) ∧
      split "Ü" name = ["été", "get", "x", "Ü", "ber", "Ü", "Ü"] ∧
      List.Forall₂ (NamePart.Spells "Ü") cut (split "Ü" name) ∧
      byteStartOf ['Ü'] cut 3 = 9 ∧ Text.IsBoundary (Text.utf8 name) 9 ∧ ¬Text.IsBoundary (Text.utf8 name) 10 := by
  intro name cut
  have hmarker : "Ü" ≠ "" := by decide
  obtain ⟨parts, hparts, hunique, hspells, -, hboundary, -⟩ := exists_partition_split hmarker name
  have hcut : cut = parts := by
    apply hunique
    have hfound : Name.parts "Ü" name = cut := by decide +kernel
    rw [← hfound]
    exact isPartition_parts hmarker name
  have hstart : byteStartOf ['Ü'] cut 3 = 9 := by decide +kernel
  rw [← hcut] at hparts hunique hspells hboundary
  refine ⟨hparts, hunique, by decide +kernel, hspells, hstart, hstart ▸ hboundary 3, ?_⟩
  -- the second byte of the marker trails
  intro h
  exact absurd (h.leads 0x9C (by decide +kernel)) (by decide)

end Name

end Signpost.Route
