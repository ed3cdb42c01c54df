import Signpost.Http.Request
import Signpost.Text.Blank

/-!
This module contains the identifiers of requests: 128 bits, of which the first 48 are the time in milliseconds,
written in 26 digits of base 32.
-/

namespace Signpost

structure RequestId where
  value : Nat
  deriving DecidableEq, Inhabited

namespace RequestId

/-- Why a text is no identifier. -/
inductive DecodeError where
  | invalidLength
  | invalidCharacter
  deriving DecidableEq

def DecodeError.message : DecodeError → String
  | .invalidLength => "invalid length"
  | .invalidCharacter => "invalid character"

/-- The digits of base 32 in order. The letters I, L, O and U are none of them. -/
def alphabet : List Char :=
  "0123456789ABCDEFGHJKMNPQRSTVWXYZ".toList

def width : Nat := 26

/-- How many identifiers there are. -/
def bound : Nat := Nat.pow 2 128

/-- The value of a digit, in either case. -/
def digitValue? (c : Char) : Option Nat :=
  alphabet.findIdx? (· == c.toUpper)

/-- The identifier that a text spells. Digits that do not fit are dropped from the front. -/
def ofString? (s : String) : Except DecodeError RequestId :=
  if s.utf8ByteSize ≠ width then .error .invalidLength
  else
    match s.toList.mapM digitValue? with
    | some digits => .ok ⟨digits.foldl (fun n d => n * 32 + d) 0 % bound⟩
    | none => .error .invalidCharacter

/-- The `count` last digits of a number. -/
def digits : (count : Nat) → Nat → List Char
  | 0, _ => []
  | count + 1, n => digits count (n / 32) ++ [alphabet[n % 32]?.getD '0']

def text (id : RequestId) : String :=
  String.ofList (digits width id.value)

/-- When the identifier was made, in milliseconds. -/
def timestamp (id : RequestId) : Nat :=
  id.value / Nat.pow 2 80

/-- The identifier that a header carries, if it carries one. -/
def ofHeader? (value : Option String) : Option RequestId :=
  value.bind fun s => (ofString? (Text.trim s)).toOption

/-- The identifier of a request: the one that it carries, or else a fresh one. -/
def ofRequest (fresh : RequestId) (r : Http.Request) : RequestId :=
  (ofHeader? (r.header? Http.HeaderName.requestId.text)).getD fresh

end RequestId

end Signpost
