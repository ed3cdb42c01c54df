import Signpost.Text.Utf8

/-!
This module contains the laws of texts as bytes: reading the bytes of a text gives the text back, and a byte of
ASCII stands for nothing but its character.
-/

namespace Signpost.Text

/-! ## Reading one character -/

theorem isTrail_iff {b : UInt8} : isTrail b = true ↔ 0x80 ≤ b.toNat ∧ b.toNat ≤ 0xBF := by
  unfold isTrail
  rw [Bool.and_eq_true, decide_eq_true_eq, decide_eq_true_eq]
  rfl

theorem Lead.of_eq (b : UInt8) :
    Lead.of b
      =
    if b.toNat < 0xC2 then none
    else if b.toNat < 0xE0 then some ⟨1, b.toNat - 0xC0, 0x80, 0xBF⟩
    else if b.toNat = 0xE0 then some ⟨2, 0, 0xA0, 0xBF⟩
    else if b.toNat = 0xED then some ⟨2, 0xD, 0x80, 0x9F⟩
    else if b.toNat < 0xF0 then some ⟨2, b.toNat - 0xE0, 0x80, 0xBF⟩
    else if b.toNat = 0xF0 then some ⟨3, 0, 0x90, 0xBF⟩
    else if b.toNat < 0xF4 then some ⟨3, b.toNat - 0xF0, 0x80, 0xBF⟩
    else if b.toNat = 0xF4 then some ⟨3, 4, 0x80, 0x8F⟩
    else none := by
  unfold Lead.of
  simp only [UInt8.lt_iff_toNat_lt, ← UInt8.toNat_inj]
  rfl

section
variable {b c d e low high : UInt8} {more bits : Nat} {rest : Bytes}

theorem utf8Scan_of_ascii (hb : b.toNat < 0x80) :
    utf8Scan (b :: rest) = some (Char.ofNat b.toNat) :: utf8Scan rest := by
  rw [utf8Scan, if_pos (UInt8.lt_iff_toNat_lt.2 hb)]

theorem utf8Scan_of_lead (hlead : Lead.of b = some ⟨more, bits, low, high⟩) (hlow : low ≤ c) (hhigh : c ≤ high) :
    utf8Scan (b :: c :: rest)
      =
    if more = 1 then some (Char.ofNat (addTrail bits c)) :: utf8Scan rest
    else
      match rest with
      | [] => [none]
      | d :: rest =>
        if !isTrail d then none :: utf8Scan (d :: rest)
        else if more = 2 then some (Char.ofNat (addTrail (addTrail bits c) d)) :: utf8Scan rest
        else
          match rest with
          | [] => [none]
          | e :: rest =>
            if !isTrail e then none :: utf8Scan (e :: rest)
            else some (Char.ofNat (addTrail (addTrail (addTrail bits c) d) e)) :: utf8Scan rest := by
  have hb : ¬b < 0x80 := by
    intro hb
    rw [Lead.of_eq, if_pos (Nat.lt_trans (UInt8.lt_iff_toNat_lt.1 hb) (by decide))] at hlead
    cases hlead
  have hrange : (c < low || high < c) = false := by
    rw [Bool.or_eq_false_iff, decide_eq_false_iff_not, decide_eq_false_iff_not, UInt8.not_lt, UInt8.not_lt]
    exact ⟨hlow, hhigh⟩
  rw [utf8Scan, if_neg hb, hlead]
  simp only [hrange]
  rfl

theorem utf8Scan_of_two (hb : 0xC2 ≤ b.toNat ∧ b.toNat < 0xE0) (hc : isTrail c = true) :
    utf8Scan (b :: c :: rest) = some (Char.ofNat (addTrail (b.toNat - 0xC0) c)) :: utf8Scan rest := by
  have hlead : Lead.of b = some ⟨1, b.toNat - 0xC0, 0x80, 0xBF⟩ := by
    rw [Lead.of_eq, if_neg (by omega), if_pos (by omega)]
  rw [isTrail_iff] at hc
  rw [utf8Scan_of_lead hlead hc.1 hc.2, if_pos rfl]

theorem utf8Scan_of_three (hb : 0xE0 ≤ b.toNat ∧ b.toNat < 0xF0) (hc : isTrail c = true) (hd : isTrail d = true)
    (hlow : b.toNat = 0xE0 → 0xA0 ≤ c.toNat) (hhigh : b.toNat = 0xED → c.toNat ≤ 0x9F) :
    utf8Scan (b :: c :: d :: rest)
      =
    some (Char.ofNat (addTrail (addTrail (b.toNat - 0xE0) c) d)) :: utf8Scan rest := by
  have hlead : ∃ low high, Lead.of b = some ⟨2, b.toNat - 0xE0, low, high⟩ ∧ low ≤ c ∧ c ≤ high := by
    rw [isTrail_iff] at hc
    rw [Lead.of_eq, if_neg (by omega), if_neg (by omega)]
    by_cases hfirst : b.toNat = 0xE0
    . rw [if_pos hfirst, hfirst]
      exact ⟨_, _, rfl, hlow hfirst, hc.2⟩
    . rw [if_neg hfirst]
      by_cases hsurrogate : b.toNat = 0xED
      . rw [if_pos hsurrogate, hsurrogate]
        exact ⟨_, _, rfl, hc.1, hhigh hsurrogate⟩
      . rw [if_neg hsurrogate, if_pos hb.2]
        exact ⟨_, _, rfl, hc⟩
  obtain ⟨low, high, hlead, hbounds⟩ := hlead
  rw [utf8Scan_of_lead hlead hbounds.1 hbounds.2]
  simp [hd]

theorem utf8Scan_of_four (hb : 0xF0 ≤ b.toNat ∧ b.toNat ≤ 0xF4) (hc : isTrail c = true) (hd : isTrail d = true)
    (he : isTrail e = true) (hlow : b.toNat = 0xF0 → 0x90 ≤ c.toNat) (hhigh : b.toNat = 0xF4 → c.toNat ≤ 0x8F) :
    utf8Scan (b :: c :: d :: e :: rest)
      =
    some (Char.ofNat (addTrail (addTrail (addTrail (b.toNat - 0xF0) c) d) e)) :: utf8Scan rest := by
  have hlead : ∃ low high, Lead.of b = some ⟨3, b.toNat - 0xF0, low, high⟩ ∧ low ≤ c ∧ c ≤ high := by
    rw [isTrail_iff] at hc
    rw [Lead.of_eq, if_neg (by omega), if_neg (by omega), if_neg (by omega), if_neg (by omega),
      if_neg (by omega)]
    by_cases hfirst : b.toNat = 0xF0
    . rw [if_pos hfirst, hfirst]
      exact ⟨_, _, rfl, hlow hfirst, hc.2⟩
    . rw [if_neg hfirst]
      by_cases hlast : b.toNat = 0xF4
      . rw [if_neg (by omega), if_pos hlast, hlast]
        exact ⟨_, _, rfl, hc.1, hhigh hlast⟩
      . rw [if_pos (by omega)]
        exact ⟨_, _, rfl, hc⟩
  obtain ⟨low, high, hlead, hbounds⟩ := hlead
  rw [utf8Scan_of_lead hlead hbounds.1 hbounds.2]
  simp [hd, he]

end

theorem toNat_ofNat_of_lt {n : Nat} (h : n < 256) : (UInt8.ofNat n).toNat = n :=
  Nat.mod_eq_of_lt h

theorem isTrail_ofNat (n : Nat) : isTrail (UInt8.ofNat (n % 64 + 128)) = true := by
  rw [isTrail_iff, toNat_ofNat_of_lt (by omega)]
  omega

theorem addTrail_ofNat (bits n : Nat) : addTrail bits (UInt8.ofNat (n % 64 + 128)) = bits * 64 + n % 64 := by
  unfold addTrail
  rw [toNat_ofNat_of_lt (by omega), Nat.add_sub_cancel]

/-- The bytes of a character are read as this character, whatever follows them. -/
theorem utf8Scan_encodeChar (c : Char) (rest : Bytes) :
    utf8Scan (String.utf8EncodeChar c ++ rest) = some c :: utf8Scan rest := by
  have hvalid : c.val.toNat < 0xD800 ∨ (0xDFFF < c.val.toNat ∧ c.val.toNat < 0x110000) := c.valid
  have hc : Char.ofNat c.val.toNat = c := c.ofNat_toNat
  rw [String.utf8EncodeChar.eq_1]
  generalize c.val.toNat = n at hvalid hc ⊢
  -- one case for each number of bytes: the digits of the number to the base 64 add up to it again
  split
  . rw [List.singleton_append]
    have hb : (UInt8.ofNat n).toNat = n := toNat_ofNat_of_lt (by omega)
    rw [utf8Scan_of_ascii (by omega), hb, hc]
  . split
    . rw [List.cons_append, List.cons_append, List.nil_append]
      have hb : (UInt8.ofNat (n / 64 % 32 + 192)).toNat = n / 64 + 192 := by
        rw [toNat_ofNat_of_lt (by omega)]
        omega
      have hnumber : (n / 64 + 192 - 192) * 64 + n % 64 = n := by omega
      rw [utf8Scan_of_two (by omega) (isTrail_ofNat n), hb, addTrail_ofNat, hnumber, hc]
    . split
      . rw [List.cons_append, List.cons_append, List.cons_append, List.nil_append]
        have hb : (UInt8.ofNat (n / 4096 % 16 + 224)).toNat = n / 4096 + 224 := by
          rw [toNat_ofNat_of_lt (by omega)]
          omega
        have hsecond : (UInt8.ofNat (n / 64 % 64 + 128)).toNat = n / 64 % 64 + 128 :=
          toNat_ofNat_of_lt (by omega)
        have hnumber : ((n / 4096 + 224 - 224) * 64 + n / 64 % 64) * 64 + n % 64 = n := by omega
        rw [utf8Scan_of_three (by omega) (isTrail_ofNat _) (isTrail_ofNat _) (by omega) (by omega), hb,
          addTrail_ofNat, addTrail_ofNat, hnumber, hc]
      . rw [List.cons_append, List.cons_append, List.cons_append, List.cons_append, List.nil_append]
        have hb : (UInt8.ofNat (n / 262144 % 8 + 240)).toNat = n / 262144 + 240 := by
          rw [toNat_ofNat_of_lt (by omega)]
          omega
        have hsecond : (UInt8.ofNat (n / 4096 % 64 + 128)).toNat = n / 4096 % 64 + 128 :=
          toNat_ofNat_of_lt (by omega)
        have hnumber : (((n / 262144 + 240 - 240) * 64 + n / 4096 % 64) * 64 + n / 64 % 64) * 64 + n % 64 = n := by
          omega
        rw [utf8Scan_of_four (by omega) (isTrail_ofNat _) (isTrail_ofNat _) (isTrail_ofNat _) (by omega)
          (by omega), hb, addTrail_ofNat, addTrail_ofNat, addTrail_ofNat, hnumber, hc]

/-! ## Texts -/

/-- The bytes of a list of characters. -/
def bytesOf (cs : List Char) : Bytes :=
  cs.flatMap String.utf8EncodeChar

theorem utf8_eq_bytesOf (s : String) : utf8 s = bytesOf s.toList :=
  rfl

theorem bytesOf_cons (c : Char) (cs : List Char) : bytesOf (c :: cs) = String.utf8EncodeChar c ++ bytesOf cs :=
  List.flatMap_cons

theorem bytesOf_append (cs ds : List Char) : bytesOf (cs ++ ds) = bytesOf cs ++ bytesOf ds :=
  List.flatMap_append

/-- A character has at least one byte. -/
theorem length_le_length_bytesOf (cs : List Char) : cs.length ≤ (bytesOf cs).length := by
  induction cs with
  | nil => exact Nat.le_refl _
  | cons c cs ih =>
    rw [bytesOf_cons, List.length_append, String.length_utf8EncodeChar, List.length_cons]
    have := c.utf8Size_pos
    omega

/-- The bytes of characters are read as these characters, whatever follows them. -/
theorem utf8Scan_bytesOf_append (cs : List Char) (rest : Bytes) :
    utf8Scan (bytesOf cs ++ rest) = cs.map some ++ utf8Scan rest := by
  induction cs with
  | nil => rfl
  | cons c cs ih => rw [bytesOf_cons, List.append_assoc, utf8Scan_encodeChar, ih, List.map_cons, List.cons_append]

theorem utf8_append (s t : String) : utf8 (s ++ t) = utf8 s ++ utf8 t := by
  rw [utf8_eq_bytesOf, String.toList_append, bytesOf_append]
  rfl

theorem utf8Scan_utf8 (s : String) : utf8Scan (utf8 s) = s.toList.map some := by
  rw [utf8_eq_bytesOf, ← List.append_nil (bytesOf s.toList), utf8Scan_bytesOf_append]
  exact List.append_nil _

/-- The bytes of a text hold this text. -/
theorem ofUtf8Lossy_utf8 (s : String) : ofUtf8Lossy (utf8 s) = s := by
  unfold ofUtf8Lossy
  rw [utf8Scan_utf8, List.map_map]
  simp [Function.comp_def]

theorem ofUtf8?_utf8 (s : String) : ofUtf8? (utf8 s) = some s := by
  have hall : ∀ cs : List Char, (cs.map some).mapM id = some cs := by
    intro cs
    induction cs with
    | nil => rfl
    | cons c cs ih => simp [ih]
  unfold ofUtf8?
  rw [utf8Scan_utf8, hall]
  simp

/-! ## Bytes of ASCII -/

theorem encodeChar_of_ascii {c : Char} (h : c.toNat < 0x80) :
    String.utf8EncodeChar c = [UInt8.ofNat c.toNat] := by
  have hle : c.val.toNat ≤ 127 := Nat.le_of_lt_succ h
  rw [String.utf8EncodeChar.eq_1, if_pos hle]
  rfl

/-- No byte of a character beyond ASCII is one of ASCII. -/
theorem le_toNat_of_mem_encodeChar {c : Char} {b : UInt8} (hc : 0x80 ≤ c.toNat)
    (h : b ∈ String.utf8EncodeChar c) : 0x80 ≤ b.toNat := by
  have hgt : ¬c.val.toNat ≤ 127 := Nat.not_le_of_lt hc
  have hhigh : ∀ n, n < 256 → 0x80 ≤ n → 0x80 ≤ (UInt8.ofNat n).toNat := by
    intro n hlt hle
    rwa [toNat_ofNat_of_lt hlt]
  rw [String.utf8EncodeChar.eq_1, if_neg hgt] at h
  generalize c.val.toNat = n at h
  split at h
  . simp only [List.mem_cons, List.not_mem_nil, or_false] at h
    rcases h with rfl | rfl <;> apply hhigh <;> omega
  . split at h
    . simp only [List.mem_cons, List.not_mem_nil, or_false] at h
      rcases h with rfl | rfl | rfl <;> apply hhigh <;> omega
    . simp only [List.mem_cons, List.not_mem_nil, or_false] at h
      rcases h with rfl | rfl | rfl | rfl <;> apply hhigh <;> omega

/-- A byte of ASCII is in the bytes of a text only if its character is in the text. -/
theorem mem_of_mem_utf8 {s : String} {c : Char} (hc : c.toNat < 0x80) (h : UInt8.ofNat c.toNat ∈ utf8 s) :
    c ∈ s.toList := by
  unfold utf8 at h
  rw [List.mem_flatMap] at h
  obtain ⟨d, hd, hmem⟩ := h
  have hbyte : (UInt8.ofNat c.toNat).toNat = c.toNat := toNat_ofNat_of_lt (by omega)
  have hascii : d.toNat < 0x80 := by
    apply Nat.lt_of_not_le
    intro hle
    have := le_toNat_of_mem_encodeChar hle hmem
    omega
  rw [encodeChar_of_ascii hascii, List.mem_singleton] at hmem
  have hnumber : c.toNat = d.toNat := by
    rw [← hbyte, hmem, toNat_ofNat_of_lt (by omega)]
  rw [← c.ofNat_toNat, hnumber, d.ofNat_toNat]
  exact hd

/-- A text of ASCII has one byte for each character. -/
theorem utf8_of_ascii {s : String} (h : ∀ c ∈ s.toList, c.toNat < 0x80) :
    utf8 s = s.toList.map fun c => UInt8.ofNat c.toNat := by
  unfold utf8
  generalize s.toList = cs at h ⊢
  induction cs with
  | nil => rfl
  | cons c cs ih =>
    rw [List.forall_mem_cons] at h
    rw [List.flatMap_cons, encodeChar_of_ascii h.1, ih h.2]
    rfl

theorem utf8_append_singleton_append (s t : String) {c : Char} (hc : c.toNat < 0x80) :
    utf8 (s ++ String.singleton c ++ t) = utf8 s ++ UInt8.ofNat c.toNat :: utf8 t := by
  have hmark : utf8 (String.singleton c) = [UInt8.ofNat c.toNat] := by
    rw [utf8_of_ascii]
    . simp
    . simpa using hc
  rw [utf8_append, utf8_append, hmark, List.append_assoc, List.singleton_append]

theorem utf8_intercalate (sep : String) (texts : List String) :
    utf8 (sep.intercalate texts) = (utf8 sep).intercalate (texts.map utf8) := by
  induction texts with
  | nil => rfl
  | cons s texts ih =>
    cases texts with
    | nil => simp
    | cons next texts =>
      rw [String.intercalate_cons_cons, utf8_append, utf8_append, ih]
      simp [List.intercalate]

/-- More texts make the line longer. -/
theorem utf8_intercalate_cons_eq_iff {sep s : String} {texts : List String} (hsep : utf8 sep ≠ []) :
    utf8 (sep.intercalate (s :: texts)) = utf8 s ↔ texts = [] := by
  cases texts with
  | nil => simp
  | cons next texts =>
    rw [String.intercalate_cons_cons, utf8_append, utf8_append]
    simp [hsep]

end Signpost.Text
