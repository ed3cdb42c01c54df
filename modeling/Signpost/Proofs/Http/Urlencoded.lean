import Signpost.Http.Urlencoded
import Signpost.Proofs.Text.Pieces
import Signpost.Proofs.Text.Utf8

/-!
This module contains the round trip of the urlencoded form: the pairs that are written are the pairs that are
read.
-/

namespace Signpost.Http.Urlencoded

/-- The bytes of characters of ASCII. -/
def asciiBytes (cs : List Char) : Bytes :=
  cs.map fun c => UInt8.ofNat c.toNat

/-- A character in which names and values are written: one of ASCII that delimits nothing. -/
def IsWritten (c : Char) : Prop :=
  c.toNat < 0x80 ∧ c ≠ '&' ∧ c ≠ '='

instance (c : Char) : Decidable (IsWritten c) :=
  inferInstanceAs (Decidable (_ ∧ _ ∧ _))

/-! ## One byte -/

theorem hexValue?_upperHexDigit :
    ∀ n < 16, hexValue? (UInt8.ofNat (upperHexDigit n).toNat) = some (UInt8.ofNat n) := by
  decide

theorem isWritten_upperHexDigit : ∀ n < 16, IsWritten (upperHexDigit n) := by
  decide

theorem plain_ascii : ∀ n < 128, isPlain (UInt8.ofNat n) = true →
    IsWritten (Char.ofNat n) ∧ (Char.ofNat n).toNat = n ∧ UInt8.ofNat n ≠ percent ∧ UInt8.ofNat n ≠ plus := by
  decide

theorem toNat_lt_of_isPlain {b : UInt8} (h : isPlain b = true) : b.toNat < 128 := by
  simp only [isPlain, Bool.or_eq_true, Bool.and_eq_true, decide_eq_true_eq, beq_iff_eq, UInt8.le_iff_toNat_le,
    ← UInt8.toNat_inj] at h
  simp only [UInt8.reduceToNat] at h
  omega

theorem IsWritten.of_isPlain {b : UInt8} (h : isPlain b = true) : IsWritten (Char.ofNat b.toNat) :=
  (plain_ascii b.toNat (toNat_lt_of_isPlain h) (UInt8.ofNat_toNat ▸ h)).1

theorem toNat_ofNat_of_isPlain {b : UInt8} (h : isPlain b = true) : (Char.ofNat b.toNat).toNat = b.toNat :=
  (plain_ascii b.toNat (toNat_lt_of_isPlain h) (UInt8.ofNat_toNat ▸ h)).2.1

theorem ne_of_isPlain {b : UInt8} (h : isPlain b = true) : b ≠ percent ∧ b ≠ plus := by
  have hne := (plain_ascii b.toNat (toNat_lt_of_isPlain h) (UInt8.ofNat_toNat ▸ h)).2.2
  rwa [UInt8.ofNat_toNat] at hne

theorem isWritten_of_mem_encodeByte {b : UInt8} (h : c ∈ encodeByte b) : IsWritten c := by
  have hb := b.toNat_lt
  unfold encodeByte at h
  split at h
  . next hplain =>
    rw [List.mem_singleton] at h
    exact h ▸ .of_isPlain hplain
  . split at h
    . rw [List.mem_singleton] at h
      exact h ▸ by decide
    . simp only [List.mem_cons, List.not_mem_nil, or_false] at h
      rcases h with rfl | rfl | rfl
      . decide
      . exact isWritten_upperHexDigit _ (by omega)
      . exact isWritten_upperHexDigit _ (by omega)

theorem decodeBytes_cons {b : UInt8} (h : b ≠ percent) (rest : Bytes) :
    decodeBytes (b :: rest) = (if b = plus then 0x20 else b) :: decodeBytes rest := by
  match rest with
  | [] => rfl
  | [_] => rfl
  | _ :: _ :: _ => rw [decodeBytes, if_neg h]

/-- What a byte is written as is read as this byte, whatever follows it. -/
theorem decodeBytes_encodeByte (b : UInt8) (rest : Bytes) :
    decodeBytes (asciiBytes (encodeByte b) ++ rest) = b :: decodeBytes rest := by
  have hb := b.toNat_lt
  unfold encodeByte asciiBytes
  split
  . next hplain =>
    obtain ⟨hpercent, hplus⟩ := ne_of_isPlain hplain
    rw [List.map_singleton, toNat_ofNat_of_isPlain hplain, UInt8.ofNat_toNat, List.singleton_append,
      decodeBytes_cons hpercent, if_neg hplus]
  . split
    . next hblank =>
      rw [hblank, List.map_singleton, List.singleton_append, decodeBytes_cons (by decide)]
      rfl
    . have hdigits : UInt8.ofNat (b.toNat / 16) * 16 + UInt8.ofNat (b.toNat % 16) = b := by
        rw [← UInt8.toNat_inj]
        simp
        omega
      rw [List.map_cons, List.map_cons, List.map_singleton, List.cons_append, List.cons_append, List.singleton_append,
        decodeBytes, if_pos (by decide), hexValue?_upperHexDigit _ (by omega), hexValue?_upperHexDigit _ (by omega)]
      exact congrArg (· :: decodeBytes rest) hdigits

/-! ## Names and values -/

theorem isWritten_of_mem_encode {s : String} (h : c ∈ encode s) : IsWritten c := by
  unfold encode at h
  rw [List.mem_flatMap] at h
  obtain ⟨_, _, hc⟩ := h
  exact isWritten_of_mem_encodeByte hc

theorem utf8_encode (s : String) : Text.utf8 (String.ofList (encode s)) = asciiBytes (encode s) := by
  rw [Text.utf8_of_ascii, String.toList_ofList]
  . rfl
  . intro c hc
    rw [String.toList_ofList] at hc
    exact (isWritten_of_mem_encode hc).1

theorem decode_encode (s : String) : decode (Text.utf8 (String.ofList (encode s))) = s := by
  have hbytes : ∀ bs : Bytes, decodeBytes (asciiBytes (bs.flatMap encodeByte)) = bs := by
    intro bs
    induction bs with
    | nil => rfl
    | cons b bs ih =>
      rw [List.flatMap_cons, asciiBytes, List.map_append]
      exact (decodeBytes_encodeByte b _).trans (congrArg (b :: ·) ih)
  rw [utf8_encode, decode, encode, hbytes, Text.ofUtf8Lossy_utf8]

/-- The text of a pair in a form. -/
def pairText (pair : String × String) : String :=
  String.ofList (encode pair.1) ++ String.singleton '=' ++ String.ofList (encode pair.2)

theorem serialize_eq (pairs : List (String × String)) :
    serialize pairs = (String.singleton '&').intercalate (pairs.map pairText) := by
  have htext : ∀ pair : String × String, String.ofList (encode pair.1 ++ '=' :: encode pair.2) = pairText pair := by
    intro pair
    rw [← String.toList_inj]
    simp [pairText]
  unfold serialize
  simp only [htext]
  rfl

theorem utf8_pairText (pair : String × String) :
    Text.utf8 (pairText pair)
      =
    Text.utf8 (String.ofList (encode pair.1)) ++ equals :: Text.utf8 (String.ofList (encode pair.2)) :=
  Text.utf8_append_singleton_append _ _ (by decide)

theorem parsePair_pairText (pair : String × String) : parsePair (Text.utf8 (pairText pair)) = pair := by
  have hequals : equals ∉ Text.utf8 (String.ofList (encode pair.1)) := by
    intro h
    have hmem := Text.mem_of_mem_utf8 (c := '=') (by decide) h
    rw [String.toList_ofList] at hmem
    exact (isWritten_of_mem_encode hmem).2.2 rfl
  unfold parsePair
  rw [utf8_pairText, Text.cutAt_singleton_append hequals]
  dsimp only
  rw [decode_encode, decode_encode]

theorem ampersand_notMem_utf8_pairText (pair : String × String) : ampersand ∉ Text.utf8 (pairText pair) := by
  intro h
  have hmem := Text.mem_of_mem_utf8 (c := '&') (by decide) h
  simp only [pairText, String.toList_append, String.toList_ofList, String.toList_singleton, List.mem_append,
    List.mem_singleton] at hmem
  obtain (hname | hequals) | hvalue := hmem
  . exact (isWritten_of_mem_encode hname).2.1 rfl
  . exact absurd hequals (by decide)
  . exact (isWritten_of_mem_encode hvalue).2.1 rfl

/-! ## Forms -/

/-- What is written is read again. -/
theorem parse_serialize (pairs : List (String × String)) : parse (serialize pairs) = pairs := by
  by_cases hpairs : pairs = []
  . rw [hpairs]
    rfl
  have hpieces : Text.pieces (· == ampersand) (Text.utf8 (serialize pairs)) = pairs.map (Text.utf8 ∘ pairText) := by
    have hsep : Text.utf8 (String.singleton '&') = [ampersand] := by decide
    rw [serialize_eq, Text.utf8_intercalate, hsep, Text.pieces_eq_splitOnP, List.map_map]
    apply List.splitOn_intercalate
    . rw [List.forall_mem_map]
      intro pair _
      rw [Function.comp_apply]
      exact ampersand_notMem_utf8_pairText pair
    . simpa using hpairs
  have hfilter : (pairs.map (Text.utf8 ∘ pairText)).filter (· ≠ []) = pairs.map (Text.utf8 ∘ pairText) := by
    rw [List.filter_eq_self, List.forall_mem_map]
    simp [utf8_pairText]
  unfold parse
  rw [hpieces, hfilter, List.map_map]
  simp [Function.comp_def, parsePair_pairText]

/-! ## Line ends -/

theorem return_notMem_encodeByte : ∀ n < 256, '\r' ∉ encodeByte (UInt8.ofNat n) := by
  decide +kernel

theorem return_notMem_encode (s : String) : '\r' ∉ encode s := by
  unfold encode
  rw [List.mem_flatMap]
  rintro ⟨b, _, hb⟩
  apply return_notMem_encodeByte b.toNat b.toNat_lt
  rwa [UInt8.ofNat_toNat]

/-- A form that is written has no line ends. -/
theorem return_notMem_utf8_serialize (pairs : List (String × String)) : 0x0D ∉ Text.utf8 (serialize pairs) := by
  intro hmem
  have hreturn := Text.mem_of_mem_utf8 (c := '\r') (by decide) hmem
  rw [serialize_eq] at hreturn
  cases Text.mem_intercalate hreturn with
  | inl hsep =>
    revert hsep
    decide
  | inr hpair =>
    obtain ⟨text, htext, hc⟩ := hpair
    obtain ⟨pair, _, rfl⟩ := List.mem_map.1 htext
    simp [pairText, return_notMem_encode] at hc

end Signpost.Http.Urlencoded
