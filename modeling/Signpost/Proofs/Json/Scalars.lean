import Signpost.Json.Printer
import Signpost.Json.Reader
import Signpost.Proofs.Text.Utf8

/-!
This module contains what readers take of the bytes in front of them, and from that the reading of strings and
integers from their texts.
-/

namespace Signpost.Json.Read

open Text (bytesOf bytesOf_cons)

/-- In front of `before` the reader gives back `a` and leaves `after`, whatever line and column it has come to. -/
def Takes (read : Read α) (before : Bytes) (a : α) (after : Bytes) : Prop :=
  ∀ line column, ∃ line' column', read ⟨line, column, before⟩ = .ok (a, ⟨line', column', after⟩)

section
variable {before between after rest : Bytes} {b : UInt8}

theorem takes_pure (a : α) : Takes (pure a) before a before :=
  fun line column => ⟨line, column, rfl⟩

theorem Takes.bind {read : Read α} {next : α → Read β} {a : α} {c : β} (hread : read.Takes before a between)
    (hnext : (next a).Takes between c after) : (read >>= next).Takes before c after := by
  intro line column
  obtain ⟨line₁, column₁, h⟩ := hread line column
  obtain ⟨line₂, column₂, h'⟩ := hnext line₁ column₁
  refine ⟨line₂, column₂, ?_⟩
  change (read ⟨line, column, before⟩ >>= fun (a, c) => next a c) = _
  rw [h]
  exact h'

theorem takes_get_bind {next : Cursor → Read α} {a : α} (h : ∀ start, (next start).Takes before a after) :
    (get >>= next).Takes before a after :=
  fun line column => h _ line column

theorem takes_peek : peek.Takes before before.head? before :=
  fun line column => ⟨line, column, rfl⟩

theorem takes_left : left.Takes before before.length before :=
  fun line column => ⟨line, column, rfl⟩

theorem exists_next (line column : Nat) :
    ∃ line' column', Cursor.next ⟨line, column, b :: rest⟩ = ⟨line', column', rest⟩ := by
  unfold Cursor.next
  dsimp only
  split
  . exact ⟨_, _, rfl⟩
  . exact ⟨_, _, rfl⟩

theorem takes_eat : eat.Takes (b :: rest) () rest := by
  intro line column
  obtain ⟨line', column', h⟩ := exists_next line column
  refine ⟨line', column', ?_⟩
  unfold eat
  rw [h]

theorem takes_next : next.Takes (b :: rest) (some b) rest := by
  intro line column
  obtain ⟨line', column', h⟩ := exists_next line column
  refine ⟨line', column', ?_⟩
  unfold next
  rw [h]
  rfl

theorem takes_nextIs (p : UInt8 → Bool) : (nextIs p).Takes before (before.head?.any p) before :=
  takes_peek.bind (takes_pure _)

theorem takes_peekPastBlanks (h : isSpace b = false) : peekPastBlanks.Takes (b :: rest) (some b) (b :: rest) := by
  have hline : b ≠ 0x0A := by
    rintro rfl
    cases h
  intro line column
  refine ⟨line, column, ?_⟩
  unfold peekPastBlanks
  simp [skipBlanksFrom, h, hline]

theorem takes_peekPastBlanks_nil : peekPastBlanks.Takes [] none [] :=
  fun line column => ⟨line, column, rfl⟩

theorem takes_peekValue (h : isSpace b = false) : peekValue.Takes (b :: rest) b (b :: rest) :=
  (takes_peekPastBlanks h).bind (takes_pure b)

theorem takes_finish : finish.Takes [] () [] :=
  takes_peekPastBlanks_nil.bind (takes_pure ())

/-- A reader that takes all bytes of a document reads the document. -/
theorem Takes.document_eq {read : Read α} {bytes : Bytes} {a : α} (h : read.Takes bytes a []) :
    document read bytes = .ok a := by
  have hwhole : (read <* finish).Takes bytes a [] := by
    rw [seqLeft_eq_bind]
    exact h.bind (takes_finish.bind (takes_pure a))
  obtain ⟨line, column, hread⟩ := hwhole 1 0
  unfold document StateT.run'
  change (·.1) <$> (read <* finish) ⟨1, 0, bytes⟩ = _
  rw [hread]
  rfl

theorem takes_word (letters : Bytes) : (word letters).Takes (letters ++ rest) () rest := by
  induction letters with
  | nil => exact takes_pure ()
  | cons letter letters ih =>
    rw [word]
    refine takes_next.bind ?_
    dsimp only
    rw [if_pos rfl]
    exact ih

end

/-! ## Strings -/

theorem takes_stringBytes_of_plain {bytes before text after : Bytes} {fuel : Nat}
    (h : ∀ b ∈ bytes, b ≠ quoteByte ∧ b ≠ backslash ∧ ¬b < 0x20)
    (hrest : (stringBytes.go fuel).Takes before text after) :
    (stringBytes.go (fuel + bytes.length)).Takes (bytes ++ before) (bytes ++ text) after := by
  induction bytes with
  | nil => exact hrest
  | cons b bytes ih =>
    rw [List.forall_mem_cons] at h
    obtain ⟨⟨hquote, hback, hcontrol⟩, hbytes⟩ := h
    rw [List.length_cons, ← Nat.add_assoc, stringBytes.go]
    refine takes_next.bind ?_
    dsimp only
    rw [if_neg hquote, if_neg hback, if_neg hcontrol]
    exact (ih hbytes).bind (takes_pure _)

/-- An escape stands for its character. -/
theorem takes_stringBytes_of_escape {bytes before text after : Bytes} {c : Char} {fuel : Nat}
    (hescape : escape.Takes (bytes ++ before) c before) (hrest : (stringBytes.go fuel).Takes before text after) :
    (stringBytes.go (fuel + 1)).Takes (backslash :: bytes ++ before) (String.utf8EncodeChar c ++ text) after := by
  rw [stringBytes.go]
  refine takes_next.bind ?_
  dsimp only
  rw [if_neg (by decide), if_pos rfl]
  exact hescape.bind (hrest.bind (takes_pure _))

theorem takes_escape_of_shortEscape? {b : UInt8} {c : Char} {rest : Bytes} (h : shortEscape? b = some c)
    (hb : b ≠ 0x75) : escape.Takes ([b] ++ rest) c rest := by
  unfold escape
  refine takes_next.bind ?_
  dsimp only
  rw [if_neg hb, h]
  exact takes_pure c

theorem takes_hexEscape {a b c d : UInt8} {rest : Bytes} {i j k l : Nat} (ha : hexDigit? a = some i)
    (hb : hexDigit? b = some j) (hc : hexDigit? c = some k) (hd : hexDigit? d = some l) :
    hexEscape.Takes (a :: b :: c :: d :: rest) (((i * 16 + j) * 16 + k) * 16 + l) rest := by
  unfold hexEscape
  refine takes_left.bind ?_
  rw [if_neg (by simp)]
  refine takes_next.bind (takes_next.bind (takes_next.bind (takes_next.bind ?_)))
  simp only [Option.bind_some, ha, hb, hc, hd]
  exact takes_pure _

/-- The two last digits of the number of a control character. -/
theorem hexDigit?_control : ∀ n < 0x20, (bytesOf ((if n < 0x10 then ['0'] else []) ++ Nat.toDigits 16 n)).map hexDigit?
    = [some (n / 16), some (n % 16)] := by
  decide +kernel

theorem takes_escape_control {c : Char} (h : c.toNat < 0x20) {rest : Bytes} :
    escape.Takes (bytesOf ('u' :: '0' :: '0' :: ((if c.toNat < 0x10 then ['0'] else []) ++ Nat.toDigits 16 c.toNat))
      ++ rest) c rest := by
  obtain ⟨high, more, hbytes, hhigh, hmore⟩ := List.map_eq_cons_iff.1 (hexDigit?_control c.toNat h)
  obtain ⟨low, rfl, hlow⟩ := List.map_eq_singleton_iff.1 hmore
  rw [bytesOf_cons, bytesOf_cons, bytesOf_cons, hbytes]
  unfold escape
  refine takes_next.bind ?_
  dsimp only
  rw [if_pos (by decide)]
  have hzero : hexDigit? 0x30 = some 0 := by decide
  have hhex : hexEscape.Takes (0x30 :: 0x30 :: high :: low :: rest) c.toNat rest := by
    have hnumber : ((0 * 16 + 0) * 16 + c.toNat / 16) * 16 + c.toNat % 16 = c.toNat := by omega
    exact hnumber ▸ takes_hexEscape hzero hzero hhigh hlow
  unfold unicodeEscape
  refine hhex.bind ?_
  rw [if_neg (by omega), if_pos (by omega), c.ofNat_toNat]
  exact takes_pure c

theorem plain_of_mem_encodeChar {c : Char} (hquote : c ≠ '"') (hback : c ≠ '\\') (hcontrol : ¬c.toNat < 0x20)
    {b : UInt8} (hb : b ∈ String.utf8EncodeChar c) : b ≠ quoteByte ∧ b ≠ backslash ∧ ¬b < 0x20 := by
  by_cases hascii : c.toNat < 0x80
  . rw [Text.encodeChar_of_ascii hascii, List.mem_singleton] at hb
    have hnumber : b.toNat = c.toNat := by rw [hb, Text.toNat_ofNat_of_lt (by omega)]
    have hne : ∀ d : Char, c ≠ d → b.toNat ≠ d.toNat := by
      intro d hd heq
      apply hd
      rw [← c.ofNat_toNat, ← hnumber, heq, d.ofNat_toNat]
    refine ⟨?_, ?_, ?_⟩
    . intro heq
      exact hne _ hquote (congrArg UInt8.toNat heq)
    . intro heq
      exact hne _ hback (congrArg UInt8.toNat heq)
    . rw [UInt8.lt_iff_toNat_lt, hnumber]
      exact hcontrol
  . have hle := Text.le_toNat_of_mem_encodeChar (Nat.le_of_not_lt hascii) hb
    refine ⟨?_, ?_, ?_⟩
    . rintro rfl
      exact absurd hle (by decide)
    . rintro rfl
      exact absurd hle (by decide)
    . rw [UInt8.lt_iff_toNat_lt]
      exact Nat.not_lt_of_le (Nat.le_trans (by decide) hle)

/-- A character that has no escape is its own text. -/
theorem escapeChar_of_plain {c : Char} (hquote : c ≠ '"') (hback : c ≠ '\\') (hcontrol : ¬c.toNat < 0x20) :
    escapeChar c = [c] := by
  have hne : ∀ d : Char, d.toNat < 0x20 → c ≠ d := by
    rintro d hd rfl
    exact hcontrol hd
  unfold escapeChar
  rw [if_neg hquote, if_neg hback, if_neg (hne _ (by decide)), if_neg (hne _ (by decide)), if_neg (hne _ (by decide)),
    if_neg (hne _ (by decide)), if_neg (hne _ (by decide)), if_neg hcontrol]

/-- A character is read from its text in a string. -/
theorem takes_stringBytes_of_escapeChar (c : Char) {before text after : Bytes}
    (h : ∀ fuel, before.length < fuel → (stringBytes.go fuel).Takes before text after) (fuel : Nat)
    (hfuel : (bytesOf (escapeChar c) ++ before).length < fuel) :
    (stringBytes.go fuel).Takes (bytesOf (escapeChar c) ++ before) (String.utf8EncodeChar c ++ text) after := by
  have hescape : ∀ letters, escapeChar c = '\\' :: letters → escape.Takes (bytesOf letters ++ before) c before →
      (stringBytes.go fuel).Takes (bytesOf (escapeChar c) ++ before) (String.utf8EncodeChar c ++ text) after := by
    intro letters heq hletters
    rw [heq, bytesOf_cons] at hfuel ⊢
    change (backslash :: bytesOf letters ++ before).length < fuel at hfuel
    rw [List.cons_append, List.length_cons, List.length_append] at hfuel
    obtain ⟨fuel, rfl⟩ := Nat.exists_eq_succ_of_ne_zero (Nat.ne_zero_of_lt hfuel)
    exact takes_stringBytes_of_escape hletters (h fuel (by omega))
  have hshort : ∀ letter : Char, escapeChar c = ['\\', letter] → letter.toNat < 0x80 →
      shortEscape? (UInt8.ofNat letter.toNat) = some c → UInt8.ofNat letter.toNat ≠ 0x75 →
      (stringBytes.go fuel).Takes (bytesOf (escapeChar c) ++ before) (String.utf8EncodeChar c ++ text) after := by
    intro letter heq hascii hletter hne
    apply hescape _ heq
    rw [bytesOf_cons, Text.encodeChar_of_ascii hascii]
    exact takes_escape_of_shortEscape? hletter hne
  by_cases hquote : c = '"'
  . exact hshort '"' (by rw [hquote]; rfl) (by decide) (by rw [hquote]; rfl) (by decide)
  by_cases hback : c = '\\'
  . exact hshort '\\' (by rw [hback]; rfl) (by decide) (by rw [hback]; rfl) (by decide)
  by_cases hbackspace : c = '\x08'
  . exact hshort 'b' (by rw [hbackspace]; rfl) (by decide) (by rw [hbackspace]; rfl) (by decide)
  by_cases htab : c = '\t'
  . exact hshort 't' (by rw [htab]; rfl) (by decide) (by rw [htab]; rfl) (by decide)
  by_cases hline : c = '\n'
  . exact hshort 'n' (by rw [hline]; rfl) (by decide) (by rw [hline]; rfl) (by decide)
  by_cases hfeed : c = '\x0c'
  . exact hshort 'f' (by rw [hfeed]; rfl) (by decide) (by rw [hfeed]; rfl) (by decide)
  by_cases hreturn : c = '\r'
  . exact hshort 'r' (by rw [hreturn]; rfl) (by decide) (by rw [hreturn]; rfl) (by decide)
  by_cases hcontrol : c.toNat < 0x20
  . refine hescape _ ?_ (takes_escape_control hcontrol)
    simp only [escapeChar, hquote, hback, hbackspace, htab, hline, hfeed, hreturn, hcontrol, if_true, if_false]
    rfl
  . rw [escapeChar_of_plain hquote hback hcontrol, bytesOf_cons] at hfuel ⊢
    change (String.utf8EncodeChar c ++ [] ++ before).length < fuel at hfuel
    change (stringBytes.go fuel).Takes (String.utf8EncodeChar c ++ [] ++ before) _ _
    rw [List.append_nil] at hfuel ⊢
    rw [List.length_append] at hfuel
    obtain ⟨more, rfl⟩ := Nat.exists_eq_add_of_lt hfuel
    have hsum : (String.utf8EncodeChar c).length + before.length + more + 1
        = before.length + more + 1 + (String.utf8EncodeChar c).length := by omega
    rw [hsum]
    apply takes_stringBytes_of_plain
    . intro b hb
      exact plain_of_mem_encodeChar hquote hback hcontrol hb
    . exact h _ (by omega)

theorem takes_stringBytes (cs : List Char) (rest : Bytes) :
    stringBytes.Takes (bytesOf (cs.flatMap escapeChar) ++ quoteByte :: rest) (bytesOf cs) rest := by
  have hgo : ∀ fuel, (bytesOf (cs.flatMap escapeChar) ++ quoteByte :: rest).length < fuel →
      (stringBytes.go fuel).Takes (bytesOf (cs.flatMap escapeChar) ++ quoteByte :: rest) (bytesOf cs) rest := by
    induction cs with
    | nil =>
      intro fuel hfuel
      obtain ⟨fuel, rfl⟩ := Nat.exists_eq_succ_of_ne_zero (Nat.ne_zero_of_lt hfuel)
      rw [stringBytes.go]
      refine takes_next.bind ?_
      exact takes_pure []
    | cons c cs ih =>
      rw [List.flatMap_cons, Text.bytesOf_append, bytesOf_cons, List.append_assoc]
      exact takes_stringBytes_of_escapeChar c ih
  unfold stringBytes
  exact takes_left.bind (hgo _ (Nat.lt_succ_self _))

/-- A string is read from its text. -/
theorem takes_string (s : String) (rest : Bytes) :
    string.Takes (bytesOf (s.toList.flatMap escapeChar) ++ quoteByte :: rest) s rest := by
  unfold string
  refine takes_get_bind fun start => (takes_stringBytes s.toList rest).bind ?_
  rw [← Text.utf8_eq_bytesOf, Text.ofUtf8?_utf8]
  exact takes_pure s

/-! ## Integers -/

/-- What follows a number does not go on with it. -/
def EndsNumber (rest : Bytes) : Prop :=
  ∀ b ∈ rest.head?, isDigit b = false ∧ isPoint b = false ∧ isExponentMark b = false

theorem EndsNumber.any_eq {rest : Bytes} (h : EndsNumber rest) :
    rest.head?.any isDigit = false ∧ rest.head?.any isPoint = false ∧ rest.head?.any isExponentMark = false := by
  cases hrest : rest.head? with
  | none => exact ⟨rfl, rfl, rfl⟩
  | some b => exact h b hrest

theorem exists_encodeChar_of_isDigit {c : Char} (h : c.isDigit = true) :
    ∃ b, String.utf8EncodeChar c = [b] ∧ isDigit b = true ∧ b.toNat = c.toNat := by
  obtain ⟨hlow, hhigh⟩ := Char.isDigit_iff_toNat.1 h
  have hlow' : 48 ≤ c.toNat := hlow
  have hhigh' : c.toNat ≤ 57 := hhigh
  have hb : (UInt8.ofNat c.toNat).toNat = c.toNat := Text.toNat_ofNat_of_lt (by omega)
  refine ⟨UInt8.ofNat c.toNat, Text.encodeChar_of_ascii (by omega), ?_, hb⟩
  unfold isDigit
  rw [Bool.and_eq_true, decide_eq_true_iff, decide_eq_true_iff, UInt8.le_iff_toNat_le, UInt8.le_iff_toNat_le, hb]
  exact ⟨hlow, hhigh⟩

theorem le_ofDigitChars (digits : List Char) (start : Nat) : start ≤ Nat.ofDigitChars 10 digits start := by
  induction digits generalizing start with
  | nil => exact Nat.le_refl _
  | cons c digits ih =>
    rw [Nat.ofDigitChars_cons]
    exact Nat.le_trans (by omega) (ih _)

/-- Digits are read into a number that stays below the limit. -/
theorem takes_digitsBelow {limit start : Nat} {digits : List Char} {rest : Bytes}
    (hdigits : ∀ c ∈ digits, c.isDigit = true) (hlimit : Nat.ofDigitChars 10 digits start < limit)
    (hrest : rest.head?.any isDigit = false) :
    (digitsBelow limit start).Takes (bytesOf digits ++ rest) (Nat.ofDigitChars 10 digits start, digits.length)
      rest := by
  have hgo : ∀ fuel, digits.length ≤ fuel → (digitsBelow.go limit fuel start).Takes (bytesOf digits ++ rest)
      (Nat.ofDigitChars 10 digits start, digits.length) rest := by
    induction digits generalizing start with
    | nil =>
      intro fuel _
      cases fuel with
      | zero => exact takes_pure _
      | succ fuel =>
        change Takes _ rest _ rest
        rw [digitsBelow.go]
        refine takes_peek.bind ?_
        cases rest with
        | nil => exact takes_pure _
        | cons b rest =>
          rw [List.head?_cons, Option.any_some] at hrest
          rw [List.head?_cons]
          dsimp only
          rw [if_neg (by simp [hrest])]
          exact takes_pure _
    | cons c digits ih =>
      intro fuel hfuel
      rw [List.length_cons] at hfuel
      obtain ⟨fuel, rfl⟩ := Nat.exists_eq_succ_of_ne_zero (Nat.ne_zero_of_lt hfuel)
      rw [List.forall_mem_cons] at hdigits
      obtain ⟨b, hb, hdigit, hnumber⟩ := exists_encodeChar_of_isDigit hdigits.1
      rw [Nat.ofDigitChars_cons] at hlimit ⊢
      have hvalue : start * 10 + digit b = 10 * start + (c.toNat - '0'.toNat) := by
        unfold digit
        rw [hnumber, Nat.mul_comm]
        rfl
      have hbelow : start * 10 + digit b < limit := by
        rw [hvalue]
        exact Nat.lt_of_le_of_lt (le_ofDigitChars digits _) hlimit
      rw [bytesOf_cons, hb, digitsBelow.go]
      refine takes_peek.bind ?_
      dsimp only [List.singleton_append, List.cons_append, List.head?_cons]
      rw [if_pos ⟨hdigit, hbelow⟩, hvalue]
      refine takes_eat.bind ?_
      exact (ih hdigits.2 hlimit fuel (by omega)).bind (takes_pure _)
  have hlength : digits.length ≤ (bytesOf digits ++ rest).length := by
    rw [List.length_append]
    exact Nat.le_add_right_of_le (Text.length_le_length_bytesOf digits)
  unfold digitsBelow
  exact takes_left.bind (hgo _ hlength)

theorem takes_integerOr {negative : Bool} {n : Nat} {rest : Bytes} (hrest : EndsNumber rest)
    (h : negative = true → n ≠ 0 ∧ n ≤ Nat.pow 2 63) :
    (integerOr negative n).Takes rest (.int (if negative then -n else n)) rest := by
  obtain ⟨_, hpoint, hmark⟩ := hrest.any_eq
  unfold integerOr
  refine (takes_nextIs isPoint).bind ?_
  rw [hpoint]
  refine (takes_nextIs isExponentMark).bind ?_
  rw [hmark]
  cases negative with
  | false => exact takes_pure _
  | true =>
    obtain ⟨hzero, hlow⟩ := h rfl
    have hint : ¬(n = 0 ∨ Nat.pow 2 63 < n) := by
      rintro (heq | hlt)
      . exact hzero heq
      . exact Nat.not_lt_of_le hlow hlt
    simp only [Bool.not_true, Bool.false_eq_true, if_false, if_neg hint]
    exact takes_pure _

/-- The digits of a number do not begin with a zero, unless it is zero. -/
theorem head?_toDigits {n : Nat} (h : n ≠ 0) : (Nat.toDigits 10 n).head? ≠ some '0' := by
  induction n using Nat.strongRecOn with
  | ind n ih =>
    rw [Nat.toDigits_eq_if (by decide)]
    split
    . next hlt =>
      have hdigit : ∀ n < 10, n ≠ 0 → [n.digitChar].head? ≠ some '0' := by decide
      exact hdigit n hlt h
    . next hle =>
      rw [List.head?_append, Option.or_of_isSome (by simp [List.isSome_head?, Nat.toDigits_ne_nil])]
      exact ih (n / 10) (by omega) (by omega)

/-- An integer is read from its digits. -/
theorem takes_number {negative : Bool} {n : Nat} {rest : Bytes} (hrest : EndsNumber rest) (hn : n < Nat.pow 2 64)
    (h : negative = true → n ≠ 0 ∧ n ≤ Nat.pow 2 63) :
    (number negative).Takes (bytesOf (Nat.toDigits 10 n) ++ rest) (.int (if negative then -n else n)) rest := by
  have hend := hrest.any_eq.1
  unfold number
  by_cases hzero : n = 0
  . subst hzero
    change Takes _ (0x30 :: rest) _ rest
    refine takes_next.bind ?_
    dsimp only
    rw [if_pos rfl]
    refine (takes_nextIs isDigit).bind ?_
    rw [hend]
    exact takes_integerOr hrest h
  . have hall : ∀ c ∈ Nat.toDigits 10 n, c.isDigit = true :=
      fun c => Nat.isDigit_of_mem_toDigits (by decide) (by decide)
    have hvalue : Nat.ofDigitChars 10 (Nat.toDigits 10 n) 0 = n := Nat.ofDigitChars_ten_toDigits
    have hfirst : (Nat.toDigits 10 n).head? ≠ some '0' := head?_toDigits hzero
    cases hdigits : Nat.toDigits 10 n with
    | nil => exact absurd hdigits Nat.toDigits_ne_nil
    | cons c digits =>
      rw [hdigits, List.forall_mem_cons] at hall
      obtain ⟨b, hb, hdigit, hnumber⟩ := exists_encodeChar_of_isDigit hall.1
      have hstart : digit b = c.toNat - '0'.toNat := congrArg (· - 0x30) hnumber
      rw [hdigits, Nat.ofDigitChars_cons, Nat.mul_zero, Nat.zero_add, ← hstart] at hvalue
      have hne : b ≠ 0x30 := by
        rintro rfl
        apply hfirst
        rw [hdigits, List.head?_cons, ← c.ofNat_toNat, ← hnumber]
        rfl
      rw [bytesOf_cons, hb]
      refine takes_next.bind ?_
      dsimp only
      rw [if_neg hne, hdigit, if_neg (by decide)]
      refine (takes_digitsBelow hall.2 (hvalue.symm ▸ hn) hend).bind ?_
      rw [hvalue]
      refine (takes_nextIs isDigit).bind ?_
      rw [hend]
      exact takes_integerOr hrest h

end Signpost.Json.Read
