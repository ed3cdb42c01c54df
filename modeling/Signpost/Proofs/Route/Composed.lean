import Signpost.Proofs.Route.Verb

/-!
This module contains the names that are composed of a verb, words and parameters. Every one of them has a route,
whose key has the verb, the words and a wildcard for each parameter, in this order.
-/

namespace Signpost.Route

namespace Name

def capitalized : List Char → List Char
  | [] => []
  | c :: cs => c.toUpper :: cs

/-- A word of a path: a small letter, and small letters and digits after it. -/
structure Word where
  first : Char
  rest : List Char
  isLower_first : isLower first = true
  isPlain_rest : ∀ c ∈ rest, isLower c = true ∨ c.isDigit = true

namespace Word

def letters (w : Word) : List Char :=
  w.first :: w.rest

end Word

/-- What a name can be composed of after its verb. -/
inductive Token where
  | word (w : Word)
  | parameter

namespace Token

/-- The token in a name: a word begins with a capital, and the marker stands for a parameter. -/
def written : Token → List Char
  | .word w => capitalized w.letters
  | .parameter => Naming.defaultMarker.toList

/-- The token in a key. -/
def segment (wildcard : String) : Token → String
  | .word w => String.ofList w.letters
  | .parameter => wildcard

/-- The token as the part that it is of a name. -/
def part : Token → NamePart
  | .word w => .word (capitalized w.letters)
  | .parameter => .marker

end Token

/-- The name that is composed of a verb and tokens. -/
def compose (verb : String) (tokens : List Token) : String :=
  String.ofList (capitalized verb.toLower.toList ++ tokens.flatMap Token.written)

/-! ## Reading a name that was composed -/

theorem isUpper_toUpper {c : Char} (h : isLower c = true) : isUpper c.toUpper = true :=
  of_isLower (p := fun c => isUpper c.toUpper = true) (by decide +kernel) h

theorem isUpper_of_isDigit {c : Char} (h : c.isDigit = true) : isUpper c = false ∧ c ≠ '_' := by
  unfold Char.isDigit at h
  rw [Bool.and_eq_true, decide_eq_true_eq, decide_eq_true_eq] at h
  have hhigh : c.toNat ≤ 57 := UInt32.le_iff_toNat_le.1 h.2
  constructor
  . rw [← Bool.not_eq_true]
    intro hupper
    have hlow := (toNat_of_isUpper hupper).1
    omega
  . rintro rfl
    exact absurd hhigh (by decide)

theorem Word.isUpper_rest (w : Word) : ∀ c ∈ w.rest, isUpper c = false ∧ c ≠ '_' := by
  intro c hc
  cases w.isPlain_rest c hc with
  | inl hlower => exact isUpper_of_isBreak (isBreak_of_isLower hlower)
  | inr hdigit => exact isUpper_of_isDigit hdigit

/-- Every token begins a new part. -/
theorem exists_of_written {tokens : List Token} (h : tokens ≠ []) :
    ∃ d rest, tokens.flatMap Token.written = d :: rest ∧ isBreak d = true := by
  obtain ⟨token, tokens, rfl⟩ := List.exists_cons_of_ne_nil h
  cases token with
  | word w => exact ⟨_, _, rfl, isBreak_iff.2 (.inl (isUpper_toUpper w.isLower_first))⟩
  | parameter => exact ⟨_, _, rfl, isBreak_iff.2 (.inr rfl)⟩

theorem head?_written (tokens : List Token) :
    ∀ d ∈ (tokens.flatMap Token.written).head?, isUpper d = true ∨ d = '_' := by
  intro d hd
  by_cases htokens : tokens = []
  . rw [htokens] at hd
    cases hd
  . obtain ⟨c, rest, hwritten, hc⟩ := exists_of_written htokens
    rw [hwritten] at hd
    cases hd
    exact isBreak_iff.1 hc

theorem partsAround_written (h : ['_'] ≠ []) (tokens : List Token) :
    partsAround ['_'] h (tokens.flatMap Token.written) = tokens.map Token.part := by
  induction tokens with
  | nil => exact partsAround_of_notMem h (List.not_mem_nil)
  | cons token tokens ih =>
    cases token with
    | word w =>
      have hne : w.first.toUpper ≠ '_' := (letters_of_isUpper (isUpper_toUpper w.isLower_first)).2.2.1
      rw [List.map_cons, ← ih]
      exact partsAround_append h hne w.isUpper_rest (head?_written tokens)
    | parameter =>
      rw [List.map_cons, ← ih]
      exact partsAround_of_mem h List.not_mem_nil _

theorem leadingWord?_append {c d : Char} {small rest : List Char} (hc : isUpper c = true)
    (hsmall : ∀ l ∈ small, isLower l = true) (hd : isLower d = false) :
    leadingWord? (c :: small ++ d :: rest) = some (c :: small) := by
  have hmore : (small ++ d :: rest).any (fun l => !isLower l) = true := by
    rw [List.any_append, List.any_cons, hd]
    simp
  rw [List.cons_append, leadingWord?, if_pos ⟨hc, hmore⟩, List.takeWhile_append_of_pos hsmall,
    List.takeWhile_cons_of_neg (by simp [hd]), List.append_nil]

/-- A word that begins with a capital becomes a segment, which is not taken for the marker. -/
theorem segment_of_isUpper {c : Char} (hc : isUpper c = true) (letters : List Char) (wildcard : String) :
    (if NamePart.segment Naming.defaultMarker (.word (c :: letters)) = Naming.defaultMarker then wildcard
      else NamePart.segment Naming.defaultMarker (.word (c :: letters)))
      =
    String.ofList (c.toLower :: letters) := by
  obtain ⟨hlowercase, -, -, hne⟩ := letters_of_isUpper hc
  have hsegment : NamePart.segment Naming.defaultMarker (.word (c :: letters)) = String.ofList (c.toLower :: letters) := by
    change String.ofList (Text.lowercase c ++ letters) = _
    rw [hlowercase]
    rfl
  rw [hsegment]
  exact if_neg (ofList_ne_defaultMarker hne letters)

theorem Token.segment_part (wildcard : String) (token : Token) :
    (if NamePart.segment Naming.defaultMarker token.part = Naming.defaultMarker then wildcard
      else NamePart.segment Naming.defaultMarker token.part)
      =
    token.segment wildcard := by
  cases token with
  | word w =>
    have hsegment := segment_of_isUpper (isUpper_toUpper w.isLower_first) w.rest wildcard
    rwa [(letters_of_isLower w.isLower_first).2] at hsegment
  | parameter => exact if_pos rfl

end Name

namespace Naming

open Name (Token capitalized compose isUpper isLower)

/-- A verb in a name is a capital with small letters. -/
theorem exists_of_mem_verbs {verb : String} (h : verb ∈ verbs) :
    ∃ (c : Char) (small : List Char), capitalized verb.toLower.toList = c :: small ∧ isUpper c = true ∧
      (∀ l ∈ small, isLower l = true) ∧ (String.ofList (c :: small)).toUpper = verb ∧
      (String.ofList (c :: small)).toLower = verb.toLower := by
  have hverbs : ∀ v ∈ verbs, (capitalized v.toLower.toList).head?.any isUpper = true ∧
      (capitalized v.toLower.toList).tail.all isLower = true ∧
      (capitalized v.toLower.toList).map Char.toUpper = v.toList ∧
      (capitalized v.toLower.toList).map Char.toLower = v.toLower.toList := by
    decide +kernel
  obtain ⟨hcapital, hsmall, hupper, hlower⟩ := hverbs verb h
  obtain ⟨c, hhead, hc⟩ := (Option.any_eq_true _ _).1 hcapital
  obtain ⟨small, hsplit⟩ := List.head?_eq_some_iff.1 hhead
  rw [hsplit, List.tail_cons, List.all_eq_true] at hsmall
  rw [hsplit] at hupper hlower
  refine ⟨c, small, hsplit, hc, hsmall, ?_, ?_⟩
  . apply String.toList_injective
    unfold String.toUpper
    rw [String.toList_map, String.toList_ofList, hupper]
  . apply String.toList_injective
    rw [← hlower]
    unfold String.toLower
    rw [String.toList_map, String.toList_ofList]

/-- The key of a name that is composed has the verb, the words and a wildcard for each parameter. -/
theorem key_compose {verb : String} (hverb : verb ∈ verbs) {tokens : List Token} (htokens : tokens ≠ [])
    (wildcard : String) :
    (Naming.mk defaultMarker wildcard).key (compose verb tokens)
      =
    .ok (joinPath (verb.toLower :: tokens.map (Token.segment wildcard))) := by
  obtain ⟨c, small, hsplit, hc, hsmall, hupper, hlower⟩ := exists_of_mem_verbs hverb
  obtain ⟨d, rest, hrest, hd⟩ := Name.exists_of_written htokens
  have hname : (compose verb tokens).toList = c :: small ++ tokens.flatMap Token.written := by
    rw [compose, String.toList_ofList, hsplit]
  have hword : Name.leadingWord? (c :: small ++ tokens.flatMap Token.written) = some (c :: small) := by
    rw [hrest]
    exact Name.leadingWord?_append hc hsmall (Name.isLower_of_isBreak hd)
  have hparts : Name.parts defaultMarker (compose verb tokens)
      = .word (c :: small) :: tokens.map Token.part := by
    rw [Name.parts_defaultMarker, hname, ← Name.partsAround_written (List.cons_ne_nil _ _)]
    apply Name.partsAround_append
    . exact (Name.letters_of_isUpper hc).2.2.1
    . exact fun l hl => Name.isUpper_of_isBreak (Name.isBreak_of_isLower (hsmall l hl))
    . exact Name.head?_written tokens
  rw [key_eq_ok_iff]
  refine ⟨String.ofList (c :: small), ?_, ?_, ?_⟩
  . unfold verbWord?
    rw [hname, hword]
    rfl
  . rw [hupper]
    exact hverb
  . unfold pieces Name.split
    rw [hparts, List.map_cons, List.map_cons, List.map_map, List.map_map, ← hlower, toLower_verbWord hsmall,
      Name.segment_of_isUpper hc]
    congr 2
    apply List.map_congr_left
    intro token _
    exact (Token.segment_part wildcard token).symm

theorem key_compose_adjacent :
    let order : Name.Word := ⟨'o', ['r', 'd', '2'], by decide, by simp [isLower]⟩
    let x : Name.Word := ⟨'x', [], by decide, by simp⟩
    let tokens : List Token := [.parameter, .word order, .word x, .parameter, .parameter]
    compose "DELETE" tokens = "Delete_Ord2X__" ∧
      (Naming.mk defaultMarker ":").key "Delete_Ord2X__" = .ok "delete/:/ord2/x/:/:" := by
  intro order x tokens
  have hname : compose "DELETE" tokens = "Delete_Ord2X__" := by decide +kernel
  have hkey := key_compose (show "DELETE" ∈ verbs by decide) (show tokens ≠ [] from List.cons_ne_nil _ _) ":"
  rw [hname] at hkey
  refine ⟨hname, hkey.trans ?_⟩
  decide +kernel

end Naming

end Signpost.Route
