import Mathlib.Data.List.TakeWhile
import Signpost.Proofs.Route.Reach
import Signpost.Route.Name

/-!
This module contains the theory of the keys that are derived from names. The verb word of a name ends at the
first character that is no small letter, the first segment of its key at the first capital, marker or slash.
What stands between the two clings to the verb, and no request has such a verb.
-/

namespace Signpost.Route

namespace Name

/-- Whether a character begins a new part of a name: a capital or the usual marker. -/
def isBreak (c : Char) : Bool :=
  isUpper c || c == '_'

/-- The front of a text that belongs to the word before it. -/
def clinging (after : String) : String :=
  String.ofList (after.toList.takeWhile fun c => !isBreak c)

/-- The text from the first character that begins a new part. -/
def onward (after : String) : String :=
  String.ofList (after.toList.dropWhile fun c => !isBreak c)

/-- Whether a character after the verb word ends the first segment: it begins a new part, or it is a slash. -/
def separates (c : Char) : Bool :=
  isBreak c || c == '/'

/-! ## Words in camel case -/

theorem toNat_of_isUpper {c : Char} (h : isUpper c = true) : 65 ≤ c.toNat ∧ c.toNat ≤ 90 := by
  unfold isUpper at h
  rw [Bool.and_eq_true, decide_eq_true_eq, decide_eq_true_eq] at h
  exact ⟨UInt32.le_iff_toNat_le.1 h.1, UInt32.le_iff_toNat_le.1 h.2⟩

theorem toNat_of_isLower {c : Char} (h : isLower c = true) : 97 ≤ c.toNat ∧ c.toNat ≤ 122 := by
  unfold isLower at h
  rw [Bool.and_eq_true, decide_eq_true_eq, decide_eq_true_eq] at h
  exact ⟨UInt32.le_iff_toNat_le.1 h.1, UInt32.le_iff_toNat_le.1 h.2⟩

theorem isBreak_iff {c : Char} : isBreak c = true ↔ isUpper c = true ∨ c = '_' := by
  unfold isBreak
  rw [Bool.or_eq_true, beq_iff_eq]

theorem isBreak_of_isLower {c : Char} (h : isLower c = true) : isBreak c = false := by
  have hlower := toNat_of_isLower h
  rw [← Bool.not_eq_true, isBreak_iff]
  rintro (hupper | rfl)
  . have hupper := toNat_of_isUpper hupper
    omega
  . exact absurd hlower (by decide)

/-- What the numbers of the capitals show holds of every capital. -/
theorem of_isUpper {p : Char → Prop} (h : ∀ n < 91, 65 ≤ n → p (Char.ofNat n)) {c : Char} (hc : isUpper c = true) :
    p c := by
  obtain ⟨hlow, hhigh⟩ := toNat_of_isUpper hc
  rw [← Char.ofNat_toNat c]
  exact h c.toNat (by omega) hlow

/-- What the numbers of the small letters show holds of every small letter. -/
theorem of_isLower {p : Char → Prop} (h : ∀ n < 123, 97 ≤ n → p (Char.ofNat n)) {c : Char} (hc : isLower c = true) :
    p c := by
  obtain ⟨hlow, hhigh⟩ := toNat_of_isLower hc
  rw [← Char.ofNat_toNat c]
  exact h c.toNat (by omega) hlow

theorem isUpper_of_isBreak {c : Char} (h : isBreak c = false) : isUpper c = false ∧ c ≠ '_' := by
  rwa [← Bool.not_eq_true, isBreak_iff, not_or, Bool.not_eq_true] at h

theorem isLower_of_isBreak {c : Char} (h : isBreak c = true) : isLower c = false := by
  rw [← Bool.not_eq_true]
  intro hlower
  rw [isBreak_of_isLower hlower] at h
  cases h

theorem letters_of_isUpper {c : Char} (h : isUpper c = true) :
    Text.lowercase c = [c.toLower] ∧ c.toUpper.toLower = c.toLower ∧ c ≠ '_' ∧ c.toLower ≠ '_' := by
  have hhigh := (toNat_of_isUpper h).2
  refine ⟨Text.lowercase_of_ascii (by omega), ?_⟩
  exact of_isUpper (p := fun c => c.toUpper.toLower = c.toLower ∧ c ≠ '_' ∧ c.toLower ≠ '_') (by decide +kernel) h

theorem letters_of_isLower {c : Char} (h : isLower c = true) : c.toLower = c ∧ c.toUpper.toLower = c :=
  of_isLower (p := fun c => c.toLower = c ∧ c.toUpper.toLower = c) (by decide +kernel) h

theorem exists_of_leadingWord? {name word : List Char} (h : leadingWord? name = some word) :
    ∃ c small d after, word = c :: small ∧ name = c :: small ++ d :: after ∧ isUpper c = true ∧
      (∀ l ∈ small, isLower l = true) ∧ isLower d = false := by
  cases name with
  | nil => cases h
  | cons c cs =>
    rw [leadingWord?] at h
    split at h
    . next hc =>
      cases h
      have hmore : cs.dropWhile isLower ≠ [] := by
        rw [ne_eq, List.dropWhile_eq_nil_iff]
        intro hall
        obtain ⟨d, hd, hlower⟩ := List.any_eq_true.1 hc.2
        simp [hall d hd] at hlower
      obtain ⟨d, after, hafter⟩ := List.exists_cons_of_ne_nil hmore
      have hd := List.head?_dropWhile_not isLower cs
      rw [hafter] at hd
      refine ⟨c, cs.takeWhile isLower, d, after, rfl, ?_, hc.1, List.all_eq_true.1 List.all_takeWhile, hd⟩
      rw [← hafter, List.cons_append, List.takeWhile_append_dropWhile]
    . cases h

theorem camelTail_append {letters : List Char} (h : ∀ d ∈ letters, isUpper d = false) (rest : List Char) :
    camelTail (letters ++ rest) = (letters ++ (camelTail rest).1, (camelTail rest).2) := by
  induction letters with
  | nil => rfl
  | cons d letters ih =>
    rw [List.forall_mem_cons] at h
    rw [List.cons_append, camelTail, ih h.2]
    simp [h.1]

/-- Where a capital stands no letters are left to the word before it. -/
theorem camelTail_of_isUpper {rest : List Char} (h : ∀ d ∈ rest.head?, isUpper d = true) :
    camelTail rest = ([], if rest = [] then [] else camelWords rest) := by
  cases rest with
  | nil => rfl
  | cons d rest =>
    have hd : isUpper d = true := h d rfl
    rw [camelTail, camelWords]
    simp [hd]

theorem wordsBetween_append {c : Char} {letters rest : List Char} (hletters : ∀ d ∈ letters, isUpper d = false)
    (hrest : ∀ d ∈ rest.head?, isUpper d = true) :
    wordsBetween (c :: letters ++ rest) = .word (c :: letters) :: wordsBetween rest := by
  unfold wordsBetween
  rw [List.cons_append, if_neg (List.cons_ne_nil _ _), camelWords, camelTail_append hletters,
    camelTail_of_isUpper hrest]
  dsimp only
  rw [List.append_nil, List.map_cons]
  by_cases hnil : rest = []
  . rw [if_pos hnil, if_pos hnil, List.map_nil]
  . rw [if_neg hnil, if_neg hnil]

/-! ## Parts around the marker -/

theorem partsAround_of_cutAt {marker name before rest : List Char} (h : marker ≠ [])
    (hcut : Text.cutAt marker name = some (before, rest)) :
    partsAround marker h name = wordsBetween before ++ .marker :: partsAround marker h rest := by
  rw [partsAround]
  split
  . next hcut' =>
    rw [hcut] at hcut'
    cases hcut'
    rfl
  . next hcut' =>
    rw [hcut] at hcut'
    cases hcut'

theorem partsAround_of_cutAt_eq_none {marker name : List Char} (h : marker ≠ [])
    (hcut : Text.cutAt marker name = none) : partsAround marker h name = wordsBetween name := by
  rw [partsAround]
  split
  . next hcut' =>
    rw [hcut] at hcut'
    cases hcut'
  . rfl

theorem partsAround_of_mem {m : Char} (h : [m] ≠ []) {before : List Char} (hbefore : m ∉ before) (rest : List Char) :
    partsAround [m] h (before ++ m :: rest) = wordsBetween before ++ .marker :: partsAround [m] h rest := by
  apply partsAround_of_cutAt
  exact Text.cutAt_singleton_append hbefore rest

theorem partsAround_of_notMem {m : Char} (h : [m] ≠ []) {name : List Char} (hname : m ∉ name) :
    partsAround [m] h name = wordsBetween name := by
  apply partsAround_of_cutAt_eq_none
  exact Text.cutAt_singleton_of_notMem hname

/-- A word ends where a capital or the marker stands, and the rest is taken apart on its own. -/
theorem partsAround_append {m c : Char} (h : [m] ≠ []) {letters rest : List Char} (hc : c ≠ m)
    (hletters : ∀ d ∈ letters, isUpper d = false ∧ d ≠ m) (hrest : ∀ d ∈ rest.head?, isUpper d = true ∨ d = m) :
    partsAround [m] h (c :: letters ++ rest) = .word (c :: letters) :: partsAround [m] h rest := by
  have hupper : ∀ d ∈ letters, isUpper d = false := fun d hd => (hletters d hd).1
  have hword : m ∉ c :: letters := by
    rw [List.mem_cons, not_or]
    exact ⟨hc.symm, fun hmem => (hletters m hmem).2 rfl⟩
  -- the word has no marker, so the first one is where the rest has it, and the capitals cut what is before
  by_cases hmem : m ∈ rest
  . obtain ⟨before, more, rfl, hbefore⟩ := List.eq_append_cons_of_mem hmem
    have hhead : ∀ d ∈ before.head?, isUpper d = true := by
      intro d hd
      have hd' : d ∈ (before ++ m :: more).head? := by
        rw [List.head?_append, hd]
        rfl
      cases hrest d hd' with
      | inl hupper => exact hupper
      | inr heq => exact absurd (List.mem_of_mem_head? hd) (heq ▸ hbefore)
    have hfront : m ∉ c :: letters ++ before := by
      rw [List.mem_append, not_or]
      exact ⟨hword, hbefore⟩
    rw [← List.append_assoc, partsAround_of_mem h hfront, partsAround_of_mem h hbefore,
      wordsBetween_append hupper hhead]
    rfl
  . have hhead : ∀ d ∈ rest.head?, isUpper d = true := by
      intro d hd
      cases hrest d hd with
      | inl hupper => exact hupper
      | inr heq => exact absurd (List.mem_of_mem_head? hd) (heq ▸ hmem)
    have hall : m ∉ c :: letters ++ rest := by
      rw [List.mem_append, not_or]
      exact ⟨hword, hmem⟩
    rw [partsAround_of_notMem h hall, partsAround_of_notMem h hmem, wordsBetween_append hupper hhead]

theorem parts_defaultMarker (text : String) :
    parts Naming.defaultMarker text = partsAround ['_'] (List.cons_ne_nil _ _) text.toList := by
  unfold parts
  rw [dif_neg (by decide)]
  rfl

theorem ofList_ne_defaultMarker {c : Char} (h : c ≠ '_') (letters : List Char) :
    String.ofList (c :: letters) ≠ Naming.defaultMarker := by
  intro heq
  have hhead := congrArg (fun s : String => s.toList.head?) heq
  rw [String.toList_ofList] at hhead
  exact h (Option.some.inj hhead)

end Name

namespace Naming

open Name (isUpper isLower isBreak isBreak_iff clinging onward)

/-- The naming that is used if nothing else is asked for. -/
def usual : Naming :=
  ⟨defaultMarker, Table.defaultWildcard⟩

/-- The segments that a text becomes. -/
def pieces (naming : Naming) (text : String) : List String :=
  (Name.split naming.marker text).map fun s => if s = naming.marker then naming.wildcard else s

/-- A name is accepted if it has a verb word and the verb is supported. Then its key is joined from its segments. -/
theorem key_eq_ok_iff {naming : Naming} {name key : String} :
    naming.key name = .ok key ↔
      ∃ verb, verbWord? name = some verb ∧ verb.toUpper ∈ verbs ∧ key = joinPath (naming.pieces name) := by
  unfold Naming.key
  cases verbWord? name with
  | none => simp
  | some verb =>
    by_cases hmem : verb.toUpper ∈ verbs
    . simp [hmem, pieces, eq_comm]
    . simp [hmem]

/-- The first word of a text goes on through what clings to it. -/
theorem pieces_word_append {c first : Char} {letters : List Char} (hc : c ≠ '_')
    (hlower : Text.lowercase c = [first]) (hfirst : first ≠ '_') (hletters : ∀ d ∈ letters, isBreak d = false)
    (after : String) :
    usual.pieces (String.ofList (c :: letters) ++ after)
      =
    (String.ofList (first :: letters) ++ clinging after) :: usual.pieces (onward after) := by
  have hparts : ∀ text, Name.parts usual.marker text = Name.partsAround ['_'] _ text.toList :=
    Name.parts_defaultMarker
  have htext : (String.ofList (c :: letters) ++ after).toList
      = c :: (letters ++ (clinging after).toList) ++ (onward after).toList := by
    simp [clinging, onward, List.takeWhile_append_dropWhile]
  have hword : ∀ d ∈ letters ++ (clinging after).toList, isUpper d = false ∧ d ≠ '_' := by
    intro d hd
    have hbreak : isBreak d = false := by
      cases List.mem_append.1 hd with
      | inl hletter => exact hletters d hletter
      | inr hcling =>
        rw [clinging, String.toList_ofList] at hcling
        simpa using List.all_eq_true.1 List.all_takeWhile d hcling
    exact Name.isUpper_of_isBreak hbreak
  have hrest : ∀ d ∈ (onward after).toList.head?, isUpper d = true ∨ d = '_' := by
    intro d hd
    have hbreak := List.head?_dropWhile_not (fun c => !isBreak c) after.toList
    rw [onward, String.toList_ofList, Option.mem_def] at hd
    rw [hd] at hbreak
    rw [← isBreak_iff]
    simpa using hbreak
  have hsegment : Name.NamePart.segment usual.marker (.word (c :: (letters ++ (clinging after).toList)))
      = String.ofList (first :: letters) ++ clinging after := by
    apply String.toList_injective
    simp [Name.NamePart.segment, Name.lowerFirst, hlower]
  -- a word that were the marker would become the wildcard
  have hne : String.ofList (first :: letters) ++ clinging after ≠ usual.marker := by
    have hword : String.ofList (first :: letters) ++ clinging after
        = String.ofList (first :: (letters ++ (clinging after).toList)) := by
      apply String.toList_injective
      simp
    rw [hword]
    exact Name.ofList_ne_defaultMarker hfirst _
  unfold pieces Name.split
  rw [hparts, hparts, htext, Name.partsAround_append _ hc hword hrest, List.map_cons, List.map_cons]
  simp only [hsegment, if_neg hne]

/-! ## The first segment of the key -/

section
variable {c : Char} {small : List Char}

theorem toLower_verbWord (hsmall : ∀ d ∈ small, isLower d = true) :
    (String.ofList (c :: small)).toLower = String.ofList (c.toLower :: small) := by
  have hmap : small.map Char.toLower = small.map id :=
    List.map_congr_left fun d hd => (Name.letters_of_isLower (hsmall d hd)).1
  apply String.toList_injective
  unfold String.toLower
  rw [String.toList_map, String.toList_ofList, String.toList_ofList, List.map_cons, hmap, List.map_id]

theorem toLower_toUpper_verbWord (hc : isUpper c = true) (hsmall : ∀ d ∈ small, isLower d = true) :
    (String.ofList (c :: small)).toUpper.toLower = (String.ofList (c :: small)).toLower := by
  apply String.toList_injective
  unfold String.toLower String.toUpper
  rw [String.map_map, String.toList_map, String.toList_map, String.toList_ofList]
  apply List.map_congr_left
  rw [List.forall_mem_cons]
  refine ⟨(Name.letters_of_isUpper hc).2.1, ?_⟩
  intro d hd
  obtain ⟨hsame, hupper⟩ := Name.letters_of_isLower (hsmall d hd)
  exact hupper.trans hsame.symm

end

theorem exists_of_verbWord? {name verb : String} (h : verbWord? name = some verb) :
    ∃ (after : String) (c : Char), name = verb ++ after ∧ after.toList.head? = some c ∧ isLower c = false ∧
      verb.toUpper.toLower = verb.toLower ∧
      usual.pieces name = (verb.toLower ++ clinging after) :: usual.pieces (onward after) := by
  unfold verbWord? at h
  rw [Option.map_eq_some_iff] at h
  obtain ⟨word, hword, rfl⟩ := h
  obtain ⟨c, small, d, after, rfl, hname, hc, hsmall, hd⟩ := Name.exists_of_leadingWord? hword
  obtain ⟨hlower, -, hne, hlowerNe⟩ := Name.letters_of_isUpper hc
  have hsplit : name = String.ofList (c :: small) ++ String.ofList (d :: after) := by
    rw [← String.ofList_append, ← hname, String.ofList_toList]
  refine ⟨String.ofList (d :: after), d, hsplit, by simp, hd, toLower_toUpper_verbWord hc hsmall, ?_⟩
  rw [hsplit, toLower_verbWord hsmall]
  exact pieces_word_append hne hlower hlowerNe (fun l hl => Name.isBreak_of_isLower (hsmall l hl)) _

/-- The key of an accepted name is joined from its verb word with what clings to it, and from the rest. -/
theorem exists_of_key {name key : String} (h : usual.key name = .ok key) :
    ∃ (verb after : String) (c : Char), verbWord? name = some verb ∧ name = verb ++ after ∧
      after.toList.head? = some c ∧ isLower c = false ∧ verb.toUpper.toLower = verb.toLower ∧ verb.toUpper ∈ verbs ∧
      key = joinPath ((verb.toLower ++ clinging after) :: usual.pieces (onward after)) := by
  obtain ⟨verb, hverb, hmem, rfl⟩ := key_eq_ok_iff.1 h
  obtain ⟨after, c, hname, hhead, hc, hlower, hpieces⟩ := exists_of_verbWord? hverb
  exact ⟨verb, after, c, hverb, hname, hhead, hc, hlower, hmem, congrArg joinPath hpieces⟩

theorem toLower_mem_of_toUpper_mem {verb : String} (hlower : verb.toUpper.toLower = verb.toLower)
    (h : verb.toUpper ∈ verbs) : verb.toLower ∈ ["get", "post", "put", "delete", "patch"] := by
  have hverbs : ∀ v ∈ verbs, v.toLower ∈ ["get", "post", "put", "delete", "patch"] := by decide +kernel
  exact hlower ▸ hverbs _ h

theorem isSegment_of_mem_verbs {verb : String} (h : verb ∈ ["get", "post", "put", "delete", "patch"]) :
    IsSegment verb ∧ '?' ∉ verb.toList ∧ '*' ∉ verb.toList := by
  have hverbs : ∀ v ∈ ["get", "post", "put", "delete", "patch"],
      IsSegment v ∧ '?' ∉ v.toList ∧ '*' ∉ v.toList := by decide +kernel
  exact hverbs verb h

theorem append_ne_wildcard {verb : String} (hverb : IsSegment verb) (h : '*' ∉ verb.toList) (more : String) :
    verb ++ more ≠ usual.wildcard := by
  intro heq
  have hne : verb.toList ≠ [] := by
    rw [ne_eq, String.toList_eq_nil_iff]
    exact hverb.1
  obtain ⟨c, rest, hverb⟩ := List.exists_cons_of_ne_nil hne
  have hc : c ∈ verb.toList := by
    rw [hverb]
    exact List.mem_cons_self
  have hwildcard : usual.wildcard.toList = ['*'] := rfl
  have hmem : c ∈ usual.wildcard.toList := by
    rw [← heq, String.toList_append]
    exact List.mem_append_left _ hc
  rw [hwildcard, List.mem_singleton] at hmem
  exact h (hmem ▸ hc)

section
variable {after : String} {c : Char}

theorem clinging_of_isBreak (hhead : after.toList.head? = some c) (hc : isBreak c = true) :
    clinging after = "" ∧ onward after = after := by
  obtain ⟨more, hmore⟩ := List.head?_eq_some_iff.1 hhead
  unfold clinging onward
  rw [hmore, List.takeWhile_cons_of_neg (by simp [hc]), List.dropWhile_cons_of_neg (by simp [hc]), ← hmore]
  exact ⟨rfl, String.ofList_toList⟩

theorem exists_of_slash (hhead : after.toList.head? = some '/') :
    ∃ more, after = "/" ++ more ∧ clinging after = "/" ++ clinging more ∧ onward after = onward more := by
  obtain ⟨more, hmore⟩ := List.head?_eq_some_iff.1 hhead
  have hbreak : isBreak '/' = false := by decide
  refine ⟨String.ofList more, ?_, ?_, ?_⟩
  . apply String.toList_injective
    simp [hmore]
  . apply String.toList_injective
    simp [clinging, hmore, hbreak]
  . simp [onward, hmore, hbreak]

/-- What clings to the verb is a part of the first segment up to the first slash. -/
theorem takeWhile_clinging_eq_nil_iff (hhead : after.toList.head? = some c) :
    (clinging after).toList.takeWhile (· ≠ '/') = [] ↔ Name.separates c = true := by
  obtain ⟨more, hmore⟩ := List.head?_eq_some_iff.1 hhead
  unfold clinging Name.separates
  rw [hmore, String.toList_ofList, Bool.or_eq_true, beq_iff_eq]
  by_cases hbreak : isBreak c = true
  . simp [hbreak]
  . by_cases hslash : c = '/'
    . have hnone : isBreak '/' = false := by decide
      simp [hslash, hnone]
    . simp [hbreak, hslash]

end

/-- A text after a separating character gives the same segments whether or not its front clings to the verb. -/
theorem segments_of_separates {verb after : String} {c : Char} (hverb : IsSegment verb)
    (hhead : after.toList.head? = some c) (hc : Name.separates c = true) :
    segments (verb ++ clinging after) ++ segments (joinPath (usual.pieces (onward after)))
      =
    verb :: segments (joinPath (usual.pieces after)) := by
  unfold Name.separates at hc
  rw [Bool.or_eq_true, beq_iff_eq] at hc
  cases hc with
  | inl hbreak =>
    obtain ⟨hcling, honward⟩ := clinging_of_isBreak hhead hbreak
    rw [hcling, honward, String.append_empty, segments_of_isSegment hverb]
    rfl
  | inr hslash =>
    subst hslash
    -- the slash ends the verb's segment in the key, and in front of the text it adds no segment
    obtain ⟨more, rfl, hcling, honward⟩ := exists_of_slash hhead
    have hslash : Text.lowercase '/' = ['/'] := by decide
    have hpieces := pieces_word_append (by decide) hslash (by decide) (List.forall_mem_nil _) more
    have hone : String.ofList ['/'] = "/" := rfl
    rw [hone] at hpieces
    rw [hcling, honward, hpieces, segments_joinPath_cons_eq_append, segments_slash_append, ← String.append_assoc,
      segments_append_slash, segments_of_isSegment hverb, List.singleton_append, List.cons_append]

/--
The key of an accepted name consists of its verb word, lengthened by what clings to it, and of the text after
it. The first segment is the verb exactly if the character after the verb word separates the two; then the
other segments are those of the text after it. Only then can a request with the verb lead to the key, and
one does unless the text has the sign of a query or slashes that no request can spell.
-/
theorem segments_of_key {name key : String} (h : usual.key name = .ok key) :
    ∃ (verb after : String) (c : Char), verbWord? name = some verb ∧ name = verb ++ after ∧
      after.toList.head? = some c ∧ isLower c = false ∧
      verb.toUpper ∈ verbs ∧ verb.toLower ∈ ["get", "post", "put", "delete", "patch"] ∧
      segments key
        = segments (verb.toLower ++ clinging after) ++ segments (joinPath (usual.pieces (onward after))) ∧
      ((segments key).head? = some verb.toLower ↔ Name.separates c = true) ∧
      (Name.separates c = true → segments key = verb.toLower :: segments (joinPath (usual.pieces after))) ∧
      ∀ (α : Type) (value : α),
        (∃ path, ((Table.ofChanges usual.wildcard [.add key value]).match? verb.toUpper path).isSome = true) ↔
          Name.separates c = true ∧ '?' ∉ key.toList ∧
            (usual.wildcard ∈ Text.split '/' key ∨ joinPath (segments key) = key) := by
  obtain ⟨verb, after, c, hverb, hname, hhead, hc, hlower, hmem, hkey⟩ := exists_of_key h
  have hword := toLower_mem_of_toUpper_mem hlower hmem
  obtain ⟨hsegment, hquery, hstar⟩ := isSegment_of_mem_verbs hword
  have hsegments : segments key
      = segments (verb.toLower ++ clinging after) ++ segments (joinPath (usual.pieces (onward after))) := by
    rw [hkey, segments_joinPath_cons_eq_append]
  have hfirst : (segments key).head?
      = some (verb.toLower ++ String.ofList ((clinging after).toList.takeWhile (· ≠ '/'))) := by
    rw [hsegments, segments_append hsegment]
    rfl
  have hiff : (segments key).head? = some verb.toLower ↔ Name.separates c = true := by
    rw [hfirst, Option.some.injEq, String.append_eq_left_iff, String.ofList_eq_empty_iff,
      takeWhile_clinging_eq_nil_iff hhead]
  refine ⟨verb, after, c, hverb, hname, hhead, hc, hmem, hword, hsegments, hiff, ?_, ?_⟩
  . intro hseparates
    rw [hsegments, segments_of_separates hsegment hhead hseparates]
  . intro α value
    have hne : segments key ≠ [] := by
      intro hnil
      rw [hnil] at hfirst
      cases hfirst
    have hwildcard : (segments key).head? ≠ some usual.wildcard := by
      rw [hfirst, ne_eq, Option.some.injEq]
      exact append_ne_wildcard hsegment hstar _
    rw [Table.exists_match?_add_iff (hlower.symm ▸ hsegment) (hlower.symm ▸ hquery) (by decide) hne hwildcard,
      hlower, hiff]

theorem segments_of_key_user_info :
    usual.key "GetUser_Info" = .ok "get/user/*/info" ∧ (segments "get/user/*/info").head? = some "get" ∧
      ∃ path, ((Table.ofChanges usual.wildcard [.add "get/user/*/info" ()]).match? "GET" path).isSome = true := by
  have hkey : usual.key "GetUser_Info" = .ok "get/user/*/info" := by decide +kernel
  have hword : verbWord? "GetUser_Info" = some "Get" := by decide +kernel
  obtain ⟨verb, after, c, hverb, hname, hhead, -, -, -, -, hiff, -, hreach⟩ := segments_of_key hkey
  rw [hword, Option.some.injEq] at hverb
  subst hverb
  have hcut : "GetUser_Info" = "Get" ++ "User_Info" := by decide +kernel
  have hafter : "User_Info" = after := (String.append_right_inj "Get").1 (hcut.symm.trans hname)
  subst hafter
  have hc : 'U' = c := by
    have hfirst : "User_Info".toList.head? = some 'U' := by decide +kernel
    rwa [hfirst, Option.some.injEq] at hhead
  subst hc
  have hget : "Get".toLower = "get" ∧ "Get".toUpper = "GET" := by decide +kernel
  rw [hget.1] at hiff
  rw [hget.2] at hreach
  exact ⟨hkey, hiff.2 (by decide), (hreach Unit ()).2 ⟨by decide, by decide +kernel, .inl (by decide +kernel)⟩⟩

/-- A digit clings to the verb, and then no request with the verb leads to the key. -/
theorem key_with_clinging_digit :
    usual.key "Get2User" = .ok "get2/user" ∧ verbWord? "Get2User" = some "Get" ∧
      (segments "get2/user").head? = some "get2" ∧
      ∀ path, (Table.ofChanges usual.wildcard [.add "get2/user" ()]).match? "GET" path = none := by
  refine ⟨by decide +kernel, by decide +kernel, by decide +kernel, ?_⟩
  intro path
  rw [← Option.not_isSome_iff_eq_none]
  intro hpath
  have hreach := (Table.exists_match?_add_iff (by decide +kernel) (by decide +kernel) (by decide +kernel)
    (by decide +kernel) (by decide +kernel) ()).1 ⟨path, hpath⟩
  exact absurd hreach.1 (by decide +kernel)

end Naming

end Signpost.Route
