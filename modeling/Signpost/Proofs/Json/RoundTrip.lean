import Signpost.Proofs.Json.Fields
import Signpost.Proofs.Json.Scalars
import Signpost.Proofs.Text.Pieces

/-!
This module contains that JSON values are read back from their compact text, which has no blanks but those in their
strings.
-/

namespace Signpost.Json

open Read
open Text (utf8 bytesOf bytesOf_cons bytesOf_append)

/--
A value that can be read back: its numbers are integers of 64 bits, its objects have their fields in the order of their
names, and at most `depth` brackets are open at once. Floats are read with a rounding of their own.
-/
inductive Readable : (depth : Nat) → Json → Prop
  | null : Readable depth .null
  | bool (b : Bool) : Readable depth (.bool b)
  | int (i : Int) (low : -Int.pow 2 63 ≤ i) (high : i < Int.pow 2 64) : Readable depth (.number (.int i))
  | text (s : String) : Readable depth (.text s)
  | array {items : List Json} (all : ∀ item ∈ items, Readable depth item) : Readable (depth + 1) (.array items)
  | object {fields : List (String × Json)} (sorted : (fields.map (·.1)).Pairwise (· < ·))
    (all : ∀ field ∈ fields, Readable depth field.2) : Readable (depth + 1) (.object fields)

/-! ## The bytes of compact texts -/

theorem utf8_quote (s : String) :
    utf8 (quote s) = quoteByte :: bytesOf (s.toList.flatMap escapeChar) ++ [quoteByte] := by
  unfold quote
  rw [Text.utf8_eq_bytesOf, String.toList_ofList, List.cons_append, bytesOf_cons, bytesOf_append]
  rfl

theorem utf8_toString_natCast (n : Nat) : utf8 (toString (n : Int)) = bytesOf (Nat.toDigits 10 n) := by
  rw [Text.utf8_eq_bytesOf, Int.toString_eq_repr]
  change bytesOf (Nat.repr n).toList = _
  rw [Nat.repr_eq_ofList_toDigits, String.toList_ofList]

theorem utf8_toString_negSucc (n : Nat) :
    utf8 (toString (Int.negSucc n)) = 0x2D :: bytesOf (Nat.toDigits 10 (n + 1)) := by
  rw [Int.toString_eq_repr]
  change utf8 ("-" ++ Nat.repr (n + 1)) = _
  have hdigits : utf8 (Nat.repr (n + 1)) = bytesOf (Nat.toDigits 10 (n + 1)) := utf8_toString_natCast (n + 1)
  rw [Text.utf8_append, hdigits]
  rfl

theorem compactItems_eq (items : List Json) : compactItems items = items.map compact := by
  induction items with
  | nil => rfl
  | cons item items ih => rw [compactItems, ih, List.map_cons]

theorem compactFields_eq (fields : List (String × Json)) :
    compactFields fields = fields.map fun field => quote field.1 ++ ":" ++ field.2.compact := by
  induction fields with
  | nil => rfl
  | cons field fields ih => rw [compactFields, ih, List.map_cons]

/-- A field of an object in its text. -/
def fieldBytes (field : String × Json) : Bytes :=
  utf8 (quote field.1) ++ 0x3A :: utf8 field.2.compact

theorem utf8_compact_array (items : List Json) :
    utf8 (Json.array items).compact
      =
    openList :: ([comma].intercalate (items.map fun item => utf8 item.compact) ++ [closeList]) := by
  rw [compact, compactItems_eq, Text.utf8_append, Text.utf8_append, Text.utf8_intercalate, List.map_map]
  rfl

theorem utf8_compact_object (fields : List (String × Json)) :
    utf8 (Json.object fields).compact
      =
    openObject :: ([comma].intercalate (fields.map fieldBytes) ++ [closeObject]) := by
  have hfield : ∀ field : String × Json, utf8 (quote field.1 ++ ":" ++ field.2.compact) = fieldBytes field := by
    intro field
    rw [Text.utf8_append, Text.utf8_append, List.append_assoc]
    rfl
  rw [compact, compactFields_eq, Text.utf8_append, Text.utf8_append, Text.utf8_intercalate, List.map_map]
  simp only [Function.comp_def, hfield]
  rfl

/-! ## Items between brackets -/

/-- After the first of them, every item comes behind a comma. -/
theorem intercalate_comma_cons (first : Bytes) (items : List Bytes) :
    [comma].intercalate (first :: items) = first ++ items.flatMap (comma :: ·) := by
  induction items generalizing first with
  | nil => simp
  | cons next items ih =>
    rw [List.intercalate_cons_cons, ih, List.flatMap_cons]
    simp

theorem length_le_length_flatMap_comma (items : List Bytes) : items.length ≤ (items.flatMap (comma :: ·)).length := by
  induction items with
  | nil => exact Nat.le_refl _
  | cons item items ih =>
    rw [List.flatMap_cons, List.length_append, List.length_cons, List.length_cons]
    omega

/-- How the items of a list or the fields of an object are read up to the bracket that closes it. -/
structure Listed (more : (first : Bool) → Read Bool) (item : Read α) (closing : UInt8) (text : α → Bytes)
    (items : List α) : Prop where
  notNumber : EndsNumber [closing]
  stop : ∀ first rest, (more first).Takes (closing :: rest) false (closing :: rest)
  first : ∀ a ∈ items, ∀ rest, (more true).Takes (text a ++ rest) true (text a ++ rest)
  next : ∀ a ∈ items, ∀ rest, (more false).Takes (comma :: (text a ++ rest)) true (text a ++ rest)
  item : ∀ a ∈ items, ∀ rest, EndsNumber rest → item.Takes (text a ++ rest) a rest

section
variable {more : (first : Bool) → Read Bool} {item : Read α} {closing : UInt8} {text : α → Bytes} {a : α}
  {items : List α}

theorem Listed.tail (h : Listed more item closing text (a :: items)) : Listed more item closing text items where
  notNumber := h.notNumber
  stop := h.stop
  first b hb := h.first b (List.mem_cons_of_mem _ hb)
  next b hb := h.next b (List.mem_cons_of_mem _ hb)
  item b hb := h.item b (List.mem_cons_of_mem _ hb)

/-- What follows an item is a comma or the closing bracket. -/
theorem Listed.endsNumber (h : Listed more item closing text items) (rest : Bytes) :
    EndsNumber ((items.map text).flatMap (comma :: ·) ++ closing :: rest) := by
  cases items with
  | nil => exact h.notNumber
  | cons a items =>
    rintro b ⟨⟩
    decide

theorem Listed.takes_go (h : Listed more item closing text items) (rest : Bytes) (fuel : Nat)
    (hfuel : items.length < fuel) :
    (collect.go more item fuel false).Takes ((items.map text).flatMap (comma :: ·) ++ closing :: rest) items
      (closing :: rest) := by
  induction items generalizing fuel with
  | nil =>
    obtain ⟨fuel, rfl⟩ := Nat.exists_eq_succ_of_ne_zero (Nat.ne_zero_of_lt hfuel)
    rw [collect.go]
    exact (h.stop false rest).bind (takes_pure _)
  | cons a items ih =>
    rw [List.length_cons] at hfuel
    obtain ⟨fuel, rfl⟩ := Nat.exists_eq_succ_of_ne_zero (Nat.ne_zero_of_lt hfuel)
    rw [collect.go, List.map_cons, List.flatMap_cons, List.cons_append, List.cons_append, List.append_assoc]
    refine (h.next a List.mem_cons_self _).bind ?_
    refine (h.item a List.mem_cons_self _ (h.tail.endsNumber rest)).bind ?_
    exact (ih h.tail fuel (by omega)).bind (takes_pure _)

theorem Listed.takes_collect (h : Listed more item closing text items) (rest : Bytes) :
    (collect more item).Takes ([comma].intercalate (items.map text) ++ closing :: rest) items (closing :: rest) := by
  unfold collect
  refine takes_left.bind ?_
  rw [collect.go]
  cases items with
  | nil => exact (h.stop true rest).bind (takes_pure _)
  | cons a items =>
    rw [List.map_cons, intercalate_comma_cons, List.append_assoc]
    refine (h.first a List.mem_cons_self _).bind ?_
    refine (h.item a List.mem_cons_self _ (h.tail.endsNumber rest)).bind ?_
    have hcommas := length_le_length_flatMap_comma (items.map text)
    rw [List.length_map] at hcommas
    have hfuel : items.length
        < (text a ++ ((items.map text).flatMap (comma :: ·) ++ closing :: rest)).length := by
      simp only [List.length_append, List.length_cons]
      omega
    exact (h.tail.takes_go rest _ hfuel).bind (takes_pure _)

end

/-! ## Values -/

/-- A text begins with a byte that is no blank and closes no list. -/
def Begins (bytes : Bytes) : Prop :=
  ∃ b rest, bytes = b :: rest ∧ isSpace b = false ∧ b ≠ closeList

theorem ne_of_isDigit {b c : UInt8} (hb : Read.isDigit b = true) (hc : Read.isDigit c = false) : b ≠ c := by
  rintro rfl
  cases hb.symm.trans hc

theorem isSpace_of_isDigit {b : UInt8} (h : Read.isDigit b = true) : isSpace b = false := by
  have hblank : ∀ c, Read.isDigit c = false → (b == c) = false := by
    intro c hc
    rw [beq_eq_false_iff_ne]
    exact ne_of_isDigit h hc
  unfold isSpace
  rw [hblank 0x20 (by decide), hblank 0x0A (by decide), hblank 0x09 (by decide), hblank 0x0D (by decide)]
  rfl

theorem exists_utf8_natCast (n : Nat) :
    ∃ b rest, utf8 (toString (n : Int)) = b :: rest ∧ Read.isDigit b = true := by
  rw [utf8_toString_natCast]
  cases hdigits : Nat.toDigits 10 n with
  | nil => exact absurd hdigits Nat.toDigits_ne_nil
  | cons c digits =>
    have hc : c.isDigit = true :=
      Nat.isDigit_of_mem_toDigits (by decide) (by decide) (hdigits ▸ List.mem_cons_self)
    obtain ⟨b, hb, hdigit, _⟩ := exists_encodeChar_of_isDigit hc
    exact ⟨b, bytesOf digits, by rw [bytesOf_cons, hb]; rfl, hdigit⟩

theorem Readable.begins {depth : Nat} {v : Json} (h : Readable depth v) : Begins (utf8 v.compact) := by
  cases h with
  | null => exact ⟨_, _, rfl, by decide, by decide⟩
  | bool b => cases b <;> exact ⟨_, _, rfl, by decide, by decide⟩
  | int i low high =>
    cases i with
    | negSucc n => exact ⟨_, _, utf8_toString_negSucc n, by decide, by decide⟩
    | ofNat n =>
      obtain ⟨b, rest, hbytes, hdigit⟩ := exists_utf8_natCast n
      exact ⟨b, rest, hbytes, isSpace_of_isDigit hdigit, ne_of_isDigit hdigit (by decide)⟩
  | text s => exact ⟨_, _, utf8_quote s, by decide, by decide⟩
  | array all => exact ⟨_, _, utf8_compact_array _, by decide, by decide⟩
  | object sorted all => exact ⟨_, _, utf8_compact_object _, by decide, by decide⟩

theorem takes_moreItems_first {bytes : Bytes} (h : Begins bytes) (rest : Bytes) :
    (moreItems true).Takes (bytes ++ rest) true (bytes ++ rest) := by
  obtain ⟨b, more, rfl, hspace, hclose⟩ := h
  unfold moreItems
  refine (takes_peekPastBlanks hspace).bind ?_
  dsimp only
  rw [if_neg hclose]
  exact takes_pure true

theorem takes_moreItems_next {bytes : Bytes} (h : Begins bytes) (rest : Bytes) :
    (moreItems false).Takes (comma :: (bytes ++ rest)) true (bytes ++ rest) := by
  obtain ⟨b, more, rfl, hspace, hclose⟩ := h
  unfold moreItems
  refine (takes_peekPastBlanks (by decide)).bind ?_
  dsimp only
  rw [if_neg (by decide)]
  refine takes_eat.bind ?_
  refine (takes_peekPastBlanks hspace).bind ?_
  dsimp only
  rw [if_neg hclose]
  exact takes_pure true

theorem takes_moreItems_stop (first : Bool) (rest : Bytes) :
    (moreItems first).Takes (closeList :: rest) false (closeList :: rest) := by
  unfold moreItems
  refine (takes_peekPastBlanks (by decide)).bind ?_
  exact takes_pure false

theorem exists_fieldBytes (field : String × Json) : ∃ more, fieldBytes field = quoteByte :: more := by
  unfold fieldBytes
  rw [utf8_quote]
  exact ⟨_, rfl⟩

theorem takes_moreFields_first (field : String × Json) (rest : Bytes) :
    (moreFields true).Takes (fieldBytes field ++ rest) true (fieldBytes field ++ rest) := by
  obtain ⟨more, hbytes⟩ := exists_fieldBytes field
  rw [hbytes]
  unfold moreFields
  refine (takes_peekPastBlanks (by decide)).bind ?_
  exact takes_pure true

theorem takes_moreFields_next (field : String × Json) (rest : Bytes) :
    (moreFields false).Takes (comma :: (fieldBytes field ++ rest)) true (fieldBytes field ++ rest) := by
  obtain ⟨more, hbytes⟩ := exists_fieldBytes field
  rw [hbytes]
  unfold moreFields
  refine (takes_peekPastBlanks (by decide)).bind ?_
  refine takes_eat.bind ?_
  refine (takes_peekPastBlanks (by decide)).bind ?_
  exact takes_pure true

theorem takes_moreFields_stop (first : Bool) (rest : Bytes) :
    (moreFields first).Takes (closeObject :: rest) false (closeObject :: rest) := by
  unfold moreFields
  refine (takes_peekPastBlanks (by decide)).bind ?_
  exact takes_pure false

theorem takes_colon (rest : Bytes) : colon.Takes (0x3A :: rest) () rest := by
  unfold colon
  refine (takes_peekPastBlanks (by decide)).bind ?_
  exact takes_eat

theorem takes_endList (rest : Bytes) : endList.Takes (closeList :: rest) () rest := by
  unfold endList
  refine (takes_peekPastBlanks (by decide)).bind ?_
  exact takes_eat

theorem takes_endObject (rest : Bytes) : endObject.Takes (closeObject :: rest) () rest := by
  unfold endObject
  refine (takes_peekPastBlanks (by decide)).bind ?_
  exact takes_eat

theorem takes_value_of_scalar? {before after : Bytes} {v : Json} (h : scalar?.Takes before (some v) after)
    (depth : Nat) : (value depth).Takes before v after := by
  cases depth with
  | zero =>
    rw [value]
    exact h.bind (takes_pure v)
  | succ depth =>
    rw [value]
    exact h.bind (takes_pure v)

theorem takes_scalar?_null (rest : Bytes) :
    scalar?.Takes (0x6E :: ([0x75, 0x6C, 0x6C] ++ rest)) (some .null) rest := by
  unfold scalar?
  refine (takes_peekValue (by decide)).bind ?_
  refine takes_eat.bind ?_
  exact (takes_word _).bind (takes_pure _)

theorem takes_scalar?_true (rest : Bytes) :
    scalar?.Takes (0x74 :: ([0x72, 0x75, 0x65] ++ rest)) (some (.bool true)) rest := by
  unfold scalar?
  refine (takes_peekValue (by decide)).bind ?_
  refine takes_eat.bind ?_
  exact (takes_word _).bind (takes_pure _)

theorem takes_scalar?_false (rest : Bytes) :
    scalar?.Takes (0x66 :: ([0x61, 0x6C, 0x73, 0x65] ++ rest)) (some (.bool false)) rest := by
  unfold scalar?
  refine (takes_peekValue (by decide)).bind ?_
  refine takes_eat.bind ?_
  exact (takes_word _).bind (takes_pure _)

theorem takes_scalar?_text (s : String) (rest : Bytes) :
    scalar?.Takes (utf8 (quote s) ++ rest) (some (.text s)) rest := by
  rw [utf8_quote, List.append_assoc, List.cons_append]
  unfold scalar?
  refine (takes_peekValue (by decide)).bind ?_
  refine takes_eat.bind ?_
  exact (takes_string s rest).bind (takes_pure _)

theorem takes_scalar?_negSucc {n : Nat} (hn : n < Nat.pow 2 63) {rest : Bytes} (hrest : EndsNumber rest) :
    scalar?.Takes (utf8 (toString (Int.negSucc n)) ++ rest) (some (.number (.int (.negSucc n)))) rest := by
  have hnumber : (Read.number true).Takes (bytesOf (Nat.toDigits 10 (n + 1)) ++ rest) (.int (.negSucc n)) rest :=
    takes_number hrest (Nat.lt_of_le_of_lt hn (by decide)) fun _ => ⟨by omega, hn⟩
  rw [utf8_toString_negSucc]
  unfold scalar?
  refine (takes_peekValue (by decide)).bind ?_
  refine takes_eat.bind ?_
  exact hnumber.bind (takes_pure _)

theorem takes_scalar?_natCast {n : Nat} (hn : n < Nat.pow 2 64) {rest : Bytes} (hrest : EndsNumber rest) :
    scalar?.Takes (utf8 (toString (n : Int)) ++ rest) (some (.number (.int n))) rest := by
  have hnumber : (Read.number false).Takes (utf8 (toString (n : Int)) ++ rest) (.int n) rest := by
    rw [utf8_toString_natCast]
    exact takes_number hrest hn nofun
  obtain ⟨b, more, hbytes, hdigit⟩ := exists_utf8_natCast n
  rw [hbytes] at hnumber ⊢
  unfold scalar?
  refine (takes_peekValue (isSpace_of_isDigit hdigit)).bind ?_
  rw [if_neg (ne_of_isDigit hdigit (by decide)), if_neg (ne_of_isDigit hdigit (by decide)),
    if_neg (ne_of_isDigit hdigit (by decide)), if_neg (ne_of_isDigit hdigit (by decide)), if_pos hdigit]
  exact hnumber.bind (takes_pure _)

/-- A bracket is left to the reader of values. -/
theorem takes_scalar?_bracket {b : UInt8} (h : b = openList ∨ b = openObject) (rest : Bytes) :
    scalar?.Takes (b :: rest) none (b :: rest) := by
  unfold scalar?
  cases h with
  | inl heq =>
    rw [heq]
    exact (takes_peekValue (by decide)).bind (takes_pure none)
  | inr heq =>
    rw [heq]
    exact (takes_peekValue (by decide)).bind (takes_pure none)

/-- A name is read from its quotes. -/
theorem takes_field {read : Read Json} {name : String} {v : Json} {bytes rest : Bytes}
    (h : read.Takes (bytes ++ rest) v rest) :
    (field read).Takes (utf8 (quote name) ++ 0x3A :: bytes ++ rest) (name, v) rest := by
  rw [utf8_quote, List.append_assoc, List.append_assoc, List.cons_append]
  unfold field fieldName
  refine (takes_eat.bind (takes_string name _)).bind ?_
  exact (takes_colon _).bind (h.bind (takes_pure _))

/-- A value is read from its text, up to what follows it. -/
theorem Readable.takes_value {depth : Nat} {v : Json} (h : Readable depth v) {rest : Bytes} (hrest : EndsNumber rest) :
    (value depth).Takes (utf8 v.compact ++ rest) v rest := by
  induction h generalizing rest with
  | null => exact takes_value_of_scalar? (takes_scalar?_null rest) _
  | bool b =>
    cases b with
    | true => exact takes_value_of_scalar? (takes_scalar?_true rest) _
    | false => exact takes_value_of_scalar? (takes_scalar?_false rest) _
  | int i low high =>
    apply takes_value_of_scalar?
    cases i with
    | ofNat n => exact takes_scalar?_natCast (Int.ofNat_lt.1 high) hrest
    | negSucc n =>
      have hpow : Int.pow 2 63 = Nat.pow 2 63 := rfl
      rw [hpow] at low
      exact takes_scalar?_negSucc (by omega) hrest
  | text s => exact takes_value_of_scalar? (takes_scalar?_text s rest) _
  | @array depth items all ih =>
    have hlisted : Listed moreItems (value depth) closeList (fun item : Json => utf8 item.compact) items :=
      { notNumber := by
          rintro b ⟨⟩
          decide
        stop := takes_moreItems_stop
        first := fun item hitem rest => takes_moreItems_first (all item hitem).begins rest
        next := fun item hitem rest => takes_moreItems_next (all item hitem).begins rest
        item := fun item hitem rest hrest => ih item hitem hrest }
    rw [utf8_compact_array, List.cons_append, List.append_assoc, value]
    refine (takes_scalar?_bracket (.inl rfl) _).bind ?_
    refine takes_next.bind ?_
    refine (hlisted.takes_collect rest).bind ?_
    exact (takes_endList rest).bind (takes_pure _)
  | @object depth fields sorted all ih =>
    have hlisted : Listed moreFields (field (value depth)) closeObject fieldBytes fields :=
      { notNumber := by
          rintro b ⟨⟩
          decide
        stop := takes_moreFields_stop
        first := fun field _ rest => takes_moreFields_first field rest
        next := fun field _ rest => takes_moreFields_next field rest
        item := fun field hfield rest hrest => takes_field (ih field hfield hrest) }
    rw [utf8_compact_object, List.cons_append, List.append_assoc, value]
    refine (takes_scalar?_bracket (.inr rfl) _).bind ?_
    refine takes_next.bind ?_
    refine (hlisted.takes_collect rest).bind ?_
    refine (takes_endObject rest).bind ?_
    rw [ofFields, sortFields_of_sorted sorted]
    exact takes_pure _

/-- A value is read back from its compact text. -/
theorem ofText?_compact {v : Json} (h : Readable maxDepth v) : ofText? v.compact = .ok v := by
  have hend : EndsNumber [] := nofun
  have hvalue := h.takes_value hend
  rw [List.append_nil] at hvalue
  exact hvalue.document_eq

/-! ## Blanks -/

/-- A text stands in a value, by itself or as the name of a field. -/
inductive HasText (s : String) : Json → Prop
  | text : HasText s (.text s)
  | item {v : Json} {items : List Json} (mem : v ∈ items) (has : HasText s v) : HasText s (.array items)
  | name {v : Json} {fields : List (String × Json)} (mem : (s, v) ∈ fields) : HasText s (.object fields)
  | field {v : Json} {name : String} {fields : List (String × Json)} (mem : (name, v) ∈ fields) (has : HasText s v) :
    HasText s (.object fields)

/-- The characters that the reader passes over between the parts of a JSON text. -/
def IsBlank (c : Char) : Prop :=
  c = ' ' ∨ c = '\n' ∨ c = '\t' ∨ c = '\r'

instance (c : Char) : Decidable (IsBlank c) :=
  inferInstanceAs (Decidable (_ ∨ _))

/-- No character is blank. -/
def Solid (cs : List Char) : Prop :=
  ∀ c ∈ cs, ¬IsBlank c

instance (cs : List Char) : Decidable (Solid cs) :=
  List.decidableBAll (fun c => ¬IsBlank c) cs

namespace IsBlank

variable {c : Char}

theorem notMem {cs : List Char} (h : IsBlank c) (hsolid : Solid cs) : c ∉ cs :=
  fun hmem => hsolid c hmem h

theorem not_isDigit (h : IsBlank c) : c.isDigit = false := by
  obtain rfl | rfl | rfl | rfl := h <;> rfl

/-- An escape has no blanks. So a blank in the text of a character is the character. -/
theorem eq_of_mem_escapeChar {d : Char} (hblank : IsBlank c) (h : c ∈ escapeChar d) : c = d := by
  have hcontrols : ∀ n < 0x20, Solid (escapeChar (Char.ofNat n)) := by decide +kernel
  by_cases hcontrol : d.toNat < 0x20
  . rw [← d.ofNat_toNat] at h
    exact absurd h (hblank.notMem (hcontrols _ hcontrol))
  by_cases hquote : d = '"'
  . rw [hquote] at h
    exact absurd h (hblank.notMem (by decide))
  by_cases hback : d = '\\'
  . rw [hback] at h
    exact absurd h (hblank.notMem (by decide))
  . rw [escapeChar_of_plain hquote hback hcontrol, List.mem_singleton] at h
    exact h

theorem mem_of_mem_quote {s : String} (hblank : IsBlank c) (h : c ∈ (quote s).toList) : c ∈ s.toList := by
  have hquote : c ≠ '"' := by
    rintro rfl
    exact absurd hblank (by decide)
  unfold quote at h
  rw [String.toList_ofList, List.cons_append, List.mem_cons, List.mem_append, List.mem_singleton] at h
  obtain heq | hmem | heq := h
  . exact absurd heq hquote
  . obtain ⟨d, hd, hc⟩ := List.mem_flatMap.1 hmem
    rwa [hblank.eq_of_mem_escapeChar hc]
  . exact absurd heq hquote

theorem notMem_toString (hblank : IsBlank c) (i : Int) : c ∉ (toString i).toList := by
  have hdigits : ∀ n, c ∉ (Nat.repr n).toList := by
    intro n h
    rw [Nat.repr_eq_ofList_toDigits, String.toList_ofList] at h
    cases hblank.not_isDigit.symm.trans (Nat.isDigit_of_mem_toDigits (by decide) (by decide) h)
  intro h
  rw [Int.toString_eq_repr] at h
  cases i with
  | ofNat n => exact hdigits n h
  | negSucc n =>
    change c ∈ ("-" ++ Nat.repr (n + 1)).toList at h
    rw [String.toList_append, List.mem_append] at h
    cases h with
    | inl hsign =>
      rw [List.mem_singleton.1 hsign] at hblank
      exact absurd hblank (by decide)
    | inr hdigit => exact hdigits _ hdigit

theorem exists_of_mem_intercalate {opening closing : String} {texts : List String} (hblank : IsBlank c)
    (hopening : Solid opening.toList) (hclosing : Solid closing.toList)
    (h : c ∈ (opening ++ ",".intercalate texts ++ closing).toList) : ∃ text ∈ texts, c ∈ text.toList := by
  have hcomma : Solid ",".toList := by decide
  rw [String.toList_append, String.toList_append, List.mem_append, List.mem_append] at h
  obtain (hopen | hmem) | hclose := h
  . exact absurd hopen (hblank.notMem hopening)
  . exact (Text.mem_intercalate hmem).resolve_left (hblank.notMem hcomma)
  . exact absurd hclose (hblank.notMem hclosing)

end IsBlank

/-- All blanks in the compact text of a value are in its texts. -/
theorem Readable.exists_of_isBlank {depth : Nat} {v : Json} (h : Readable depth v) {c : Char} (hblank : IsBlank c)
    (hc : c ∈ v.compact.toList) : ∃ s, HasText s v ∧ c ∈ s.toList := by
  induction h with
  | null => exact absurd hc (hblank.notMem (by decide))
  | bool b => exact absurd hc (hblank.notMem (by cases b <;> decide))
  | int i low high => exact absurd hc (hblank.notMem_toString i)
  | text s => exact ⟨s, .text, hblank.mem_of_mem_quote hc⟩
  | @array depth items all ih =>
    rw [compact, compactItems_eq] at hc
    obtain ⟨text, htext, hc⟩ := hblank.exists_of_mem_intercalate (by decide) (by decide) hc
    obtain ⟨item, hitem, rfl⟩ := List.mem_map.1 htext
    obtain ⟨s, hs, hmem⟩ := ih item hitem hc
    exact ⟨s, .item hitem hs, hmem⟩
  | @object depth fields sorted all ih =>
    rw [compact, compactFields_eq] at hc
    obtain ⟨text, htext, hc⟩ := hblank.exists_of_mem_intercalate (by decide) (by decide) hc
    obtain ⟨field, hfield, rfl⟩ := List.mem_map.1 htext
    rw [String.toList_append, String.toList_append, List.mem_append, List.mem_append] at hc
    obtain (hname | hcolon) | hvalue := hc
    . exact ⟨field.1, .name hfield, hblank.mem_of_mem_quote hname⟩
    . exact absurd hcolon (hblank.notMem (by decide))
    . obtain ⟨s, hs, hmem⟩ := ih field hfield hvalue
      exact ⟨s, .field hfield hs, hmem⟩

end Signpost.Json
