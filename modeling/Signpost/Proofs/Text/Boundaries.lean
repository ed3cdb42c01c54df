import Signpost.Proofs.Text.Pieces
import Signpost.Proofs.Text.Utf8

/-!
This module contains the boundaries of characters in bytes. The first byte of a character is told apart from all that
follow, so a text occurs in the bytes of another only where its characters do.
-/

namespace Signpost.Text

/-- Where the character with a number begins in the bytes. -/
def offset (cs : List Char) (n : Nat) : Nat :=
  (bytesOf (cs.take n)).length

/-- Whether a place in bytes is the end or one where a character begins: no byte that trails another stands there. -/
structure IsBoundary (bytes : Bytes) (place : Nat) : Prop where
  le : place ≤ bytes.length
  leads : ∀ b ∈ bytes[place]?, isTrail b = false

/-! ## The bytes of a character -/

theorem isTrail_ofNat_of_lead {n : Nat} (h : n < 0x80 ∨ (0xC0 ≤ n ∧ n < 0x100)) : isTrail (UInt8.ofNat n) = false := by
  rw [← Bool.not_eq_true, isTrail_iff, toNat_ofNat_of_lt (by omega)]
  omega

/-- The first byte of a character does not trail, and all others do. -/
theorem exists_encodeChar (c : Char) :
    ∃ first trail, String.utf8EncodeChar c = first :: trail ∧ isTrail first = false ∧
      trail.all isTrail = true := by
  rw [String.utf8EncodeChar.eq_1]
  generalize c.val.toNat = n
  split
  . exact ⟨_, _, rfl, isTrail_ofNat_of_lead (by omega), rfl⟩
  . split
    . refine ⟨_, _, rfl, isTrail_ofNat_of_lead (by omega), ?_⟩
      rw [List.all_cons, isTrail_ofNat, List.all_nil, Bool.and_self]
    . split
      . refine ⟨_, _, rfl, isTrail_ofNat_of_lead (by omega), ?_⟩
        simp only [List.all_cons, isTrail_ofNat, List.all_nil, Bool.and_self]
      . refine ⟨_, _, rfl, isTrail_ofNat_of_lead (by omega), ?_⟩
        simp only [List.all_cons, isTrail_ofNat, List.all_nil, Bool.and_self]

/-! ## The bytes of characters -/

section
variable {needle cs : List Char} {m n : Nat}

theorem exists_bytesOf (h : cs ≠ []) : ∃ first rest, bytesOf cs = first :: rest ∧ isTrail first = false := by
  obtain ⟨c, cs, rfl⟩ := List.exists_cons_of_ne_nil h
  obtain ⟨first, trail, hc, hfirst, -⟩ := exists_encodeChar c
  rw [bytesOf_cons, hc]
  exact ⟨_, _, rfl, hfirst⟩

theorem bytesOf_prefix_iff : bytesOf needle <+: bytesOf cs ↔ needle <+: cs := by
  constructor
  . rintro ⟨rest, heq⟩
    have hscan : needle.map some ++ utf8Scan rest = cs.map some := by
      rw [← utf8Scan_bytesOf_append, heq, ← List.append_nil (bytesOf cs), utf8Scan_bytesOf_append]
      exact List.append_nil _
    rw [← List.prefix_map_iff_of_injective (fun _ _ => Option.some.inj), ← hscan]
    exact List.prefix_append _ _
  . rintro ⟨rest, rfl⟩
    rw [bytesOf_append]
    exact List.prefix_append _ _

/-! ## Offsets -/

theorem offset_add (cs : List Char) (m n : Nat) :
    offset cs (m + n) = offset cs m + (bytesOf ((cs.drop m).take n)).length := by
  unfold offset
  rw [List.take_add, bytesOf_append, List.length_append]

theorem offset_le_offset (cs : List Char) (h : m ≤ n) : offset cs m ≤ offset cs n := by
  obtain ⟨k, rfl⟩ := Nat.exists_eq_add_of_le h
  rw [offset_add]
  exact Nat.le_add_right _ _

theorem offset_lt_offset (h : m < n) (hm : m < cs.length) : offset cs m < offset cs n := by
  obtain ⟨k, rfl⟩ := Nat.exists_eq_add_of_le (Nat.le_of_lt h)
  have hne : (cs.drop m).take k ≠ [] := by
    rw [← List.length_pos_iff, List.length_take, List.length_drop]
    omega
  obtain ⟨first, rest, hbytes, -⟩ := exists_bytesOf hne
  rw [offset_add, hbytes, List.length_cons]
  omega

theorem offset_add_length (h : needle <+: cs.drop n) :
    offset cs (n + needle.length) = offset cs n + (bytesOf needle).length := by
  rw [offset_add, ← List.prefix_iff_eq_take.1 h]

theorem bytesOf_take_append_drop (cs : List Char) (n : Nat) :
    bytesOf (cs.take n) ++ bytesOf (cs.drop n) = bytesOf cs := by
  rw [← bytesOf_append, List.take_append_drop]

theorem drop_offset (cs : List Char) (n : Nat) : (bytesOf cs).drop (offset cs n) = bytesOf (cs.drop n) := by
  rw [← bytesOf_take_append_drop cs n, offset, List.drop_left]

/-! ## Boundaries -/

theorem isBoundary_offset (cs : List Char) (n : Nat) : IsBoundary (bytesOf cs) (offset cs n) where
  le := by
    rw [← bytesOf_take_append_drop cs n, List.length_append]
    exact Nat.le_add_right _ _
  leads := by
    intro b hb
    rw [← List.head?_drop, drop_offset] at hb
    by_cases hnil : cs.drop n = []
    . rw [hnil] at hb
      cases hb
    . obtain ⟨first, rest, hbytes, hfirst⟩ := exists_bytesOf hnil
      rw [hbytes] at hb
      cases hb
      exact hfirst

namespace IsBoundary

theorem of_append {front back : Bytes} {k : Nat} (h : IsBoundary (front ++ back) (front.length + k)) :
    IsBoundary back k where
  le := by
    have hle := h.le
    rw [List.length_append] at hle
    omega
  leads := by
    intro b hb
    apply h.leads
    rwa [List.getElem?_append_right (Nat.le_add_right _ _), Nat.add_sub_cancel_left]

theorem eq_zero_of_lt {first : UInt8} {trail rest : Bytes} {place : Nat} (htrail : trail.all isTrail = true)
    (h : IsBoundary (first :: trail ++ rest) place) (hlt : place < (first :: trail).length) : place = 0 := by
  cases place with
  | zero => rfl
  | succ k =>
    have hk : k < trail.length := Nat.lt_of_succ_lt_succ hlt
    have hlead := h.leads trail[k]
    rw [List.cons_append, List.getElem?_cons_succ, List.getElem?_append_left hk, List.getElem?_eq_getElem hk,
      List.all_eq_true.1 htrail _ (List.getElem_mem hk)] at hlead
    cases hlead rfl

/-- The only boundaries are the places where characters begin, and the end. -/
theorem exists_offset {place : Nat} (h : IsBoundary (bytesOf cs) place) : ∃ n, place = offset cs n := by
  induction cs generalizing place with
  | nil => exact ⟨0, Nat.eq_zero_of_le_zero h.le⟩
  | cons c cs ih =>
    obtain ⟨first, trail, hc, -, htrail⟩ := exists_encodeChar c
    rw [bytesOf_cons, hc] at h
    by_cases hlt : place < (first :: trail).length
    . exact ⟨0, h.eq_zero_of_lt htrail hlt⟩
    . obtain ⟨k, rfl⟩ := Nat.exists_eq_add_of_le (Nat.le_of_not_lt hlt)
      obtain ⟨n, rfl⟩ := ih h.of_append
      refine ⟨n + 1, ?_⟩
      rw [offset, offset, List.take_succ_cons, bytesOf_cons, List.length_append, hc]

theorem of_prefix_drop {bytes : Bytes} {place : Nat} (hne : needle ≠ []) (h : bytesOf needle <+: bytes.drop place) :
    IsBoundary bytes place := by
  obtain ⟨first, rest, hbytes, hfirst⟩ := exists_bytesOf hne
  rw [hbytes] at h
  obtain ⟨more, heq⟩ := h
  have hhead : bytes[place]? = some first := by
    rw [← List.head?_drop, ← heq]
    rfl
  refine ⟨Nat.le_of_lt (List.getElem?_eq_some_iff.1 hhead).1, ?_⟩
  intro b hb
  rw [hhead] at hb
  cases hb
  exact hfirst

end IsBoundary

/-! ## Occurrences -/

/-- A text that is not empty occurs in bytes only where it occurs in the characters. -/
theorem prefix_drop_bytesOf_iff (hne : needle ≠ []) {place : Nat} :
    bytesOf needle <+: (bytesOf cs).drop place ↔ ∃ n, place = offset cs n ∧ needle <+: cs.drop n := by
  constructor
  . intro h
    obtain ⟨n, rfl⟩ := (IsBoundary.of_prefix_drop hne h).exists_offset
    rw [drop_offset, bytesOf_prefix_iff] at h
    exact ⟨n, rfl, h⟩
  . rintro ⟨n, rfl, h⟩
    rwa [drop_offset, bytesOf_prefix_iff]

/-- The leftmost occurrences in bytes are those in the characters. -/
theorem IsLeftmost.bytesOf {places : Nat → Prop} (hne : needle ≠ []) (h : IsLeftmost needle cs places) :
    IsLeftmost (bytesOf needle) (bytesOf cs) fun place => ∃ n, places n ∧ place = offset cs n := by
  intro place
  constructor
  . rintro ⟨n, hn, rfl⟩
    obtain ⟨hoccurs, hfree⟩ := (h n).1 hn
    refine ⟨(prefix_drop_bytesOf_iff hne).2 ⟨n, rfl, hoccurs⟩, ?_⟩
    rintro _ ⟨m, hm, rfl⟩ hlt
    have hmn : m < n := by
      by_contra hle
      have := offset_le_offset cs (Nat.le_of_not_lt hle)
      omega
    rw [← offset_add_length ((h m).1 hm).1]
    exact offset_le_offset cs (hfree m hm hmn)
  . rintro ⟨hoccurs, hfree⟩
    obtain ⟨n, rfl, hn⟩ := (prefix_drop_bytesOf_iff hne).1 hoccurs
    have hlength : n < cs.length := by
      by_contra hle
      rw [List.drop_eq_nil_of_le (Nat.le_of_not_lt hle), List.prefix_nil] at hn
      exact hne hn
    refine ⟨n, (h n).2 ⟨hn, ?_⟩, rfl⟩
    intro m hm hmn
    have hle := hfree _ ⟨m, hm, rfl⟩ (offset_lt_offset hmn (by omega))
    rw [← offset_add_length ((h m).1 hm).1] at hle
    by_contra hlt
    have := offset_lt_offset (Nat.lt_of_not_le hlt) hlength
    omega

end

end Signpost.Text
