import Signpost.Proofs.Text.Utf8

/-!
This module contains the order of texts. The order by characters is the order of their bytes.
-/

namespace Signpost.Text

/-- Two lists differ where the first has the smaller entry, and are the same up to there. -/
inductive Precedes [LT α] : List α → List α → Prop where
  | here (lt : a < b) : Precedes (a :: as) (b :: bs)
  | there (rest : Precedes as bs) : Precedes (a :: as) (a :: bs)

theorem Precedes.append_lt [LT α] {as bs : List α} (h : Precedes as bs) (xs ys : List α) :
    as ++ xs < bs ++ ys := by
  induction h with
  | here lt =>
    rw [List.cons_append, List.cons_append, List.cons_lt_cons_iff]
    exact .inl lt
  | there _ ih =>
    rw [List.cons_append, List.cons_append, List.cons_lt_cons_iff]
    exact .inr ⟨rfl, ih⟩

section
variable {m n : Nat} {as bs : Bytes}

theorem precedes_of_lt (hn : n < 256) (h : m < n) : Precedes (UInt8.ofNat m :: as) (UInt8.ofNat n :: bs) := by
  apply Precedes.here
  rw [UInt8.lt_iff_toNat_lt, toNat_ofNat_of_lt hn, toNat_ofNat_of_lt (Nat.lt_trans h hn)]
  exact h

/-- The next byte only counts if this one is the same. -/
theorem precedes_of_le (hn : n < 256) (h : m ≤ n) (hrest : m = n → Precedes as bs) :
    Precedes (UInt8.ofNat m :: as) (UInt8.ofNat n :: bs) := by
  cases Nat.lt_or_eq_of_le h with
  | inl hlt => exact precedes_of_lt hn hlt
  | inr heq =>
    rw [heq]
    exact .there (hrest heq)

end

/-- The bytes of a smaller character precede those of a greater one. -/
theorem precedes_encodeChar {c d : Char} (h : c < d) :
    Precedes (String.utf8EncodeChar c) (String.utf8EncodeChar d) := by
  have hlt : c.val.toNat < d.val.toNat := UInt32.lt_iff_toNat_lt.1 h
  have hvalid : d.val.toNat < 0xD800 ∨ (0xDFFF < d.val.toNat ∧ d.val.toNat < 0x110000) := d.valid
  rw [String.utf8EncodeChar.eq_1, String.utf8EncodeChar.eq_1]
  generalize c.val.toNat = m at hlt ⊢
  generalize d.val.toNat = n at hlt hvalid ⊢
  -- with as many bytes the first digit that differs decides, and with more of them the leading byte is greater
  split
  . split
    . exact precedes_of_lt (by omega) hlt
    . split
      . exact precedes_of_lt (by omega) (by omega)
      . split <;> exact precedes_of_lt (by omega) (by omega)
  . split
    . rw [if_neg (by omega)]
      split
      . refine precedes_of_le (by omega) (by omega) fun _ => ?_
        exact precedes_of_lt (by omega) (by omega)
      . split <;> exact precedes_of_lt (by omega) (by omega)
    . split
      . rw [if_neg (by omega), if_neg (by omega)]
        split
        . refine precedes_of_le (by omega) (by omega) fun _ => ?_
          refine precedes_of_le (by omega) (by omega) fun _ => ?_
          exact precedes_of_lt (by omega) (by omega)
        . exact precedes_of_lt (by omega) (by omega)
      . rw [if_neg (by omega), if_neg (by omega), if_neg (by omega)]
        refine precedes_of_le (by omega) (by omega) fun _ => ?_
        refine precedes_of_le (by omega) (by omega) fun _ => ?_
        refine precedes_of_le (by omega) (by omega) fun _ => ?_
        exact precedes_of_lt (by omega) (by omega)

/-- A smaller text has smaller bytes. -/
theorem utf8_lt_utf8 {s t : String} (h : s < t) : utf8 s < utf8 t := by
  have hlist : s.toList < t.toList := h
  unfold utf8
  generalize s.toList = cs at hlist ⊢
  generalize t.toList = ds at hlist ⊢
  induction cs generalizing ds with
  | nil =>
    cases ds with
    | nil => cases hlist
    | cons d ds =>
      obtain ⟨b, bs, hd⟩ := List.exists_cons_of_ne_nil (String.utf8EncodeChar_ne_nil (c := d))
      rw [List.flatMap_cons, hd]
      exact List.nil_lt_cons b _
  | cons c cs ih =>
    cases ds with
    | nil => cases hlist
    | cons d ds =>
      rw [List.flatMap_cons, List.flatMap_cons]
      rw [List.cons_lt_cons_iff] at hlist
      cases hlist with
      | inl hchar => exact (precedes_encodeChar hchar).append_lt _ _
      | inr hrest =>
        rw [hrest.1]
        exact List.append_left_lt (ih ds hrest.2)

end Signpost.Text
