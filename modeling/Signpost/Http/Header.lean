import Signpost.Http.Token
import Signpost.Text.Utf8

/-!
This module contains headers: values in bytes under names that are the same in small and in capital letters.
A name can have several values, whose order is kept.
-/

namespace Signpost.Http

/-- The name of a header, in small letters. -/
structure HeaderName where
  text : String
  deriving DecidableEq, Inhabited

namespace HeaderName

def ofString? (s : String) : Option HeaderName :=
  if isToken s then some ⟨s.toLower⟩ else none

def contentType : HeaderName := ⟨"content-type"⟩
def server : HeaderName := ⟨"server"⟩
def requestId : HeaderName := ⟨"x-request-id"⟩

end HeaderName

/-- Whether a byte can stand in the value of a header: any byte but controls other than the tab. -/
def isValueByte (b : UInt8) : Bool :=
  b == 0x09 || (0x20 ≤ b && b != 0x7F)

/-- Whether a byte is a tab or a printable character of ASCII. -/
def isVisible (b : UInt8) : Bool :=
  b == 0x09 || (0x20 ≤ b && b < 0x7F)

/-- The bytes of a header value, if a text can be one. -/
def headerValue? (value : String) : Option Bytes :=
  let bytes := Text.utf8 value
  if bytes.all isValueByte then some bytes else none

/-- The text of a header value, if all of it is visible. -/
def visibleText? (value : Bytes) : Option String :=
  if value.all isVisible then some (String.ofList (value.map fun b => Char.ofNat b.toNat)) else none

/-- Headers in the order in which they were added. -/
structure Headers where
  entries : List (HeaderName × Bytes)
  deriving DecidableEq, Inhabited

namespace Headers

def empty : Headers := ⟨[]⟩

/-- All values of a name. -/
def values (h : Headers) (name : HeaderName) : List Bytes :=
  (h.entries.filter (·.1 = name)).map (·.2)

/-- The first value of a name. -/
def get? (h : Headers) (name : HeaderName) : Option Bytes :=
  h.entries.lookup name

/-- The first value of a name, if it is visible text. The name is given in any case. -/
def text? (h : Headers) (name : String) : Option String :=
  (h.get? ⟨name.toLower⟩).bind visibleText?

def contains (h : Headers) (name : HeaderName) : Bool :=
  h.entries.any (·.1 = name)

def append (h : Headers) (name : HeaderName) (value : Bytes) : Headers :=
  ⟨h.entries ++ [(name, value)]⟩

def remove (h : Headers) (name : HeaderName) : Headers :=
  ⟨h.entries.filter (·.1 ≠ name)⟩

/-- Give a name one value in place of all it had. -/
def insert (h : Headers) (name : HeaderName) (value : Bytes) : Headers :=
  (h.remove name).append name value

/-- The entries, one name after the other with all its values. -/
def grouped (h : Headers) : List (HeaderName × Bytes) :=
  (h.entries.map (·.1)).eraseDups.flatMap fun name => (h.values name).map (name, ·)

/-- Add entries. A name that is not the one before loses the values that it had. -/
def takeOver (h : Headers) (before : Option HeaderName) : List (HeaderName × Bytes) → Headers
  | [] => h
  | (name, value) :: rest =>
    let kept := if before = some name then h else h.remove name
    (kept.append name value).takeOver (some name) rest

/-- The headers of `h` with those of `e` in place of the ones with the same names. -/
def merge (h e : Headers) : Headers :=
  h.takeOver none e.grouped

theorem values_append_self (h : Headers) (name : HeaderName) (value : Bytes) :
    (h.append name value).values name = h.values name ++ [value] := by
  simp [values, append]

theorem values_insert_self (h : Headers) (name : HeaderName) (value : Bytes) :
    (h.insert name value).values name = [value] := by
  simp [values, insert, append, remove, List.filter_filter]

theorem values_insert_of_ne (h : Headers) {name other : HeaderName} (value : Bytes) (hne : other ≠ name) :
    (h.insert name value).values other = h.values other := by
  have hne' : ¬name = other := fun h => hne h.symm
  simp only [values, insert, append, remove, List.filter_append, List.filter_filter, hne',
    List.filter_cons, decide_false, Bool.false_eq_true, if_false, List.filter_nil, List.append_nil]
  congr 1
  apply List.filter_congr
  intro entry _
  by_cases h : entry.1 = other <;> simp [h, hne]

end Headers

end Signpost.Http
