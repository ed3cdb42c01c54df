import Signpost.Decimal.Shortest
import Signpost.Json.Value
import Signpost.Text.Quoted

/-!
This module contains the compact text of a JSON value.
-/

namespace Signpost

namespace Decimal.Double

/-- The digits with a point after the power of ten of the first digit, at least one digit on either side. -/
def positional (digits : List Char) (exponent : Int) : List Char :=
  match exponent with
  | .ofNat e =>
    let whole := digits.take (e + 1)
    let fraction := digits.drop (e + 1)
    whole ++ List.replicate (e + 1 - whole.length) '0' ++ ['.']
      ++ if fraction = [] then ['0'] else fraction
  | .negSucc e => ['0', '.'] ++ List.replicate e '0' ++ digits

/-- The digits with a point after the first of them and an exponent with its sign. -/
def scientific (digits : List Char) (exponent : Int) : List Char :=
  let mantissa :=
    match digits with
    | first :: second :: rest => first :: '.' :: second :: rest
    | _ => digits
  mantissa ++ ['e', if exponent < 0 then '-' else '+'] ++ Nat.toDigits 10 exponent.natAbs

/--
The shortest decimal that reads back as a finite double. It is positional when the power of ten of the first
digit lies between -5 and 15.
-/
def text (x : Double) : String :=
  let sign := if x.isNegative then ['-'] else []
  let body :=
    if x.magnitude = 0 then ['0', '.', '0']
    else
      let (digits, exponent) := x.shortest
      if -5 ≤ exponent ∧ exponent ≤ 15 then positional digits exponent
      else scientific digits exponent
  String.ofList (sign ++ body)

end Decimal.Double

namespace Json

def Number.text : Number → String
  | .int i => toString i
  | .float x => x.text

/-- A character inside of a JSON string. Only what has to be escaped is escaped. -/
def escapeChar (c : Char) : List Char :=
  if c = '"' then ['\\', '"']
  else if c = '\\' then ['\\', '\\']
  else if c = '\x08' then ['\\', 'b']
  else if c = '\t' then ['\\', 't']
  else if c = '\n' then ['\\', 'n']
  else if c = '\x0c' then ['\\', 'f']
  else if c = '\r' then ['\\', 'r']
  else if c.toNat < 0x20 then
    ['\\', 'u', '0', '0'] ++ (if c.toNat < 0x10 then ['0'] else []) ++ Nat.toDigits 16 c.toNat
  else [c]

def quote (s : String) : String :=
  String.ofList ('"' :: s.toList.flatMap escapeChar ++ ['"'])

mutual

/-- The text of a value, without blanks. -/
def compact : Json → String
  | .null => "null"
  | .bool true => "true"
  | .bool false => "false"
  | .number n => n.text
  | .text s => quote s
  | .array items => "[" ++ ",".intercalate (compactItems items) ++ "]"
  | .object fields => "\x7b" ++ ",".intercalate (compactFields fields) ++ "\x7d"

def compactItems : List Json → List String
  | [] => []
  | item :: items => compact item :: compactItems items

def compactFields : List (String × Json) → List String
  | [] => []
  | (name, value) :: fields => (quote name ++ ":" ++ compact value) :: compactFields fields

end

end Json

end Signpost
