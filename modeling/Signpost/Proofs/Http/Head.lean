import Signpost.Http.Multipart
import Signpost.Proofs.Text.Pieces
import Signpost.Proofs.Text.Trim

/-!
This module contains the writing of heads: lines with a name and a value each, and values with parameters after
semicolons. What is written is read back.
-/

namespace Signpost.Http.Multipart

theorem sameWord_iff {a b : String} : sameWord a b = true ↔ a.toList.map Char.toLower = b.toList.map Char.toLower := by
  unfold sameWord String.toLower
  rw [beq_iff_eq, ← String.toList_inj, String.toList_map, String.toList_map]

/-! ## Parameters -/

/-- A text between quotes. -/
def quote (s : String) : String :=
  "\"" ++ s ++ "\""

/-- A text without the quotes at its two ends. -/
def unquote (s : String) : String :=
  String.ofList (Text.trimList isQuote s.toList)

/-- A parameter as it stands after a semicolon. -/
def writeParameter : String × String → String
  | (name, value) => " " ++ name ++ "=" ++ value

/-- A header value with parameters. -/
def writeParameters (kind : String) (parameters : List (String × String)) : String :=
  ";".intercalate (kind :: parameters.map writeParameter)

/-- The value of a parameter, if its name is asked for. -/
def readParameter? (p : String → Bool) (parameter : String) : Option String :=
  (Text.splitOnce '=' (Text.trim parameter)).bind fun (name, value) =>
    if p (Text.trim name) then some (unquote (Text.trim value)) else none

/-- A name and a value that can be written as a parameter. -/
structure IsParameter (parameter : String × String) : Prop where
  nameTrimmed : Text.trim parameter.1 = parameter.1
  valueTrimmed : Text.trim parameter.2 = parameter.2
  nameEnds : '=' ∉ parameter.1.toList
  separate : ';' ∉ parameter.1.toList ∧ ';' ∉ parameter.2.toList

theorem unquote_of_notMem {s : String} (h : '"' ∉ s.toList) : unquote s = s := by
  unfold unquote
  rw [Text.trimList_of_forall, String.ofList_toList]
  intro c hc
  apply beq_false_of_ne
  intro heq
  exact h (heq ▸ hc)

theorem unquote_quote {s : String} (h : '"' ∉ s.toList) : unquote (quote s) = s := by
  have hquote : ∀ c ∈ "\"".toList, isQuote c = true := List.forall_mem_singleton.2 rfl
  have hunquote := unquote_of_notMem h
  unfold unquote at hunquote ⊢
  unfold quote
  rw [String.toList_append, String.toList_append, Text.trimList_append_right hquote,
    Text.trimList_append_left hquote, hunquote]

theorem trim_quote (s : String) : Text.trim (quote s) = quote s := by
  have hlist : (quote s).toList = '"' :: (s.toList ++ ['"']) := by simp [quote]
  have hfirst : (quote s).toList.head? = some '"' := by rw [hlist, List.head?_cons]
  have hlast : (quote s).toList.getLast? = some '"' := by rw [hlist, ← List.cons_append, List.getLast?_concat]
  apply Text.trim_of_ends hfirst hlast
  . decide
  . decide

theorem notMem_quote {s : String} {c : Char} (hc : c ≠ '"') (h : c ∉ s.toList) : c ∉ (quote s).toList := by
  unfold quote
  simp [hc, h]

section
variable {parameter : String × String} {parameters : List (String × String)} {p : String → Bool}

theorem readParameter?_writeParameter (h : IsParameter parameter) :
    readParameter? p (writeParameter parameter) = if p parameter.1 then some (unquote parameter.2) else none := by
  have hblank : ∀ c ∈ " ".toList, Text.isBlank c = true := List.forall_mem_singleton.2 rfl
  have hequals : "=" = String.singleton '=' := rfl
  have htrim : Text.trim (writeParameter parameter) = parameter.1 ++ String.singleton '=' ++ parameter.2 := by
    unfold writeParameter
    dsimp only
    rw [String.append_assoc, String.append_assoc, Text.trim_append_left hblank, ← String.append_assoc, hequals]
    apply Text.trim_append_singleton_append h.nameTrimmed h.valueTrimmed
    decide
  unfold readParameter?
  rw [htrim, Text.splitOnce_append h.nameEnds, Option.bind_some]
  dsimp only
  rw [h.nameTrimmed, h.valueTrimmed]

theorem notMem_writeParameter (h : IsParameter parameter) : ';' ∉ (writeParameter parameter).toList := by
  unfold writeParameter
  simp [h.separate.1, h.separate.2]

theorem parameter?_eq (p : String → Bool) (header : String) :
    parameter? p header = ((Text.split ';' header).drop 1).findSome? (readParameter? p) := by
  rfl

/-- The first parameter with a name that is asked for is read without its quotes. -/
theorem parameter?_writeParameters {kind : String} (hkind : ';' ∉ kind.toList)
    (h : ∀ parameter ∈ parameters, IsParameter parameter) :
    parameter? p (writeParameters kind parameters)
      =
    parameters.findSome? fun parameter => if p parameter.1 then some (unquote parameter.2) else none := by
  have hsplit : Text.split ';' (writeParameters kind parameters) = kind :: parameters.map writeParameter := by
    have hsemicolon : ";" = String.singleton ';' := rfl
    unfold writeParameters
    rw [hsemicolon]
    apply Text.split_intercalate
    . rw [List.forall_mem_cons, List.forall_mem_map]
      exact ⟨hkind, fun parameter hparameter => notMem_writeParameter (h parameter hparameter)⟩
    . simp
  rw [parameter?_eq, hsplit, List.drop_succ_cons, List.drop_zero, List.findSome?_map]
  clear hsplit
  induction parameters with
  | nil => rw [List.findSome?_nil, List.findSome?_nil]
  | cons parameter parameters ih =>
    rw [List.forall_mem_cons] at h
    rw [List.findSome?_cons, List.findSome?_cons, Function.comp_apply, readParameter?_writeParameter h.1]
    cases p parameter.1 with
    | true => rfl
    | false =>
      rw [if_neg Bool.false_ne_true]
      exact ih h.2

end

/-! ## Lines -/

/-- A header as it stands in a head. -/
def writeLine : String × String → String
  | (name, value) => name ++ ": " ++ value

/-- A head of these headers. -/
def writeHead (lines : List (String × String)) : String :=
  "\r\n".intercalate (lines.map writeLine)

/-- The value on a line, if its header is asked for. -/
def readLine? (name line : String) : Option String :=
  (Text.splitOnce ':' line).bind fun (n, value) =>
    if sameWord (Text.trim n) name then some (Text.trim value) else none

/-- A name and a value that can be written on a line. -/
structure IsLine (line : String × String) : Prop where
  nameTrimmed : Text.trim line.1 = line.1
  valueTrimmed : Text.trim line.2 = line.2
  nameEnds : ':' ∉ line.1.toList
  single : '\n' ∉ line.1.toList ∧ '\n' ∉ line.2.toList

section
variable {line : String × String} {lines : List (String × String)}

theorem readLine?_writeLine (h : IsLine line) {blanks : String}
    (hblanks : ∀ c ∈ blanks.toList, Text.isBlank c = true) (name : String) :
    readLine? name (writeLine line ++ blanks) = if sameWord line.1 name then some line.2 else none := by
  have hblank : ∀ c ∈ " ".toList, Text.isBlank c = true := List.forall_mem_singleton.2 rfl
  have hline : writeLine line ++ blanks = line.1 ++ String.singleton ':' ++ (" " ++ line.2 ++ blanks) := by
    have hcolon : ": " = String.singleton ':' ++ " " := rfl
    unfold writeLine
    dsimp only
    rw [hcolon]
    simp only [String.append_assoc]
  unfold readLine?
  rw [hline, Text.splitOnce_append h.nameEnds, Option.bind_some]
  dsimp only
  rw [Text.trim_append_right hblanks, Text.trim_append_left hblank, h.nameTrimmed, h.valueTrimmed]

theorem notMem_writeLine (h : IsLine line) : '\n' ∉ (writeLine line).toList := by
  unfold writeLine
  simp [h.single.1, h.single.2]

theorem writeHead_singleton (line : String × String) : writeHead [line] = writeLine line := by
  unfold writeHead
  rw [List.map_singleton, String.intercalate_singleton]

theorem writeHead_cons_cons (line next : String × String) (lines : List (String × String)) :
    writeHead (line :: next :: lines) = writeLine line ++ "\r\n" ++ writeHead (next :: lines) := by
  unfold writeHead
  rw [List.map_cons, List.map_cons, String.intercalate_cons_cons, ← List.map_cons]

theorem exists_writeHead_cons (line : String × String) (lines : List (String × String)) :
    ∃ more, writeHead (line :: lines) = writeLine line ++ more := by
  cases lines with
  | nil => exact ⟨"", by rw [writeHead_singleton, String.append_empty]⟩
  | cons next lines => exact ⟨"\r\n" ++ writeHead (next :: lines), by rw [writeHead_cons_cons, String.append_assoc]⟩

theorem headerOf?_eq (name head : String) :
    headerOf? name head = ((Text.split '\n' head).filterMap (readLine? name)).getLast? := by
  rfl

/-- The last header with the name is found, whatever the case of its letters. -/
theorem headerOf?_writeHead (h : ∀ line ∈ lines, IsLine line) (name : String) :
    headerOf? name (writeHead lines)
      =
    (lines.filterMap fun line => if sameWord line.1 name then some line.2 else none).getLast? := by
  have hreturn : ∀ c ∈ "\r".toList, Text.isBlank c = true := List.forall_mem_singleton.2 rfl
  rw [headerOf?_eq]
  congr 1
  induction lines with
  | nil => rfl
  | cons line lines ih =>
    rw [List.forall_mem_cons] at h
    cases lines with
    | nil =>
      have hnone : ∀ c ∈ "".toList, Text.isBlank c = true := by simp
      have hread := readLine?_writeLine h.1 hnone name
      rw [String.append_empty] at hread
      rw [writeHead_singleton, Text.split_of_notMem (notMem_writeLine h.1), List.filterMap_cons,
        List.filterMap_cons, hread]
      rfl
    | cons next lines =>
      have hhead : writeHead (line :: next :: lines)
          = (writeLine line ++ "\r") ++ String.singleton '\n' ++ writeHead (next :: lines) := by
        have hend : "\r\n" = "\r" ++ String.singleton '\n' := rfl
        rw [writeHead_cons_cons, hend]
        simp only [String.append_assoc]
      have hline : '\n' ∉ (writeLine line ++ "\r").toList := by
        simp [notMem_writeLine h.1]
      rw [hhead, Text.split_append, Text.split_of_notMem hline, List.singleton_append, List.filterMap_cons,
        List.filterMap_cons, readLine?_writeLine h.1 hreturn, ih h.2]

end

end Signpost.Http.Multipart
