import Signpost.Decimal.Reading
import Signpost.Route.Name
import Signpost.Text.Blank

/-!
This module contains the settings that the program takes from its environment.
-/

namespace Signpost.Program

/-- The variables of the environment that are set. -/
abbrev Environment := String → Option String

/-- A number in the hexadecimal notation, with an optional sign of plus. -/
def readHexSize? : List Char → Option Nat
  | '+' :: cs => Decimal.readHex? cs
  | cs => Decimal.readHex? cs

/-- A size of 64 bits, in the decimal notation or after a mark in the hexadecimal one. -/
def readSize? (s : String) : Option Nat :=
  let size? :=
    match (Text.trim s).toList with
    | '0' :: 'x' :: cs => readHexSize? cs
    | '0' :: 'X' :: cs => readHexSize? cs
    | cs => Decimal.readNat? cs
  size?.filter (· < Nat.pow 2 64)

structure Settings where
  /-- The size of the stack on which a request is handled, in bytes. -/
  stackSize : Nat
  /-- The segment that matches any other. -/
  wildcard : String
  /-- The part of a handler's name that stands for the wildcard. -/
  marker : String
  /-- Where to listen. -/
  address : String
  deriving DecidableEq

namespace Settings

def default : Settings where
  stackSize := 0x10000
  wildcard := Route.Table.defaultWildcard
  marker := Route.Naming.defaultMarker
  address := "0.0.0.0:8080"

/-- The value of a variable, if it is not blank. -/
def nonBlank? (env : Environment) (name : String) : Option String :=
  (env name).filter (Text.trim · ≠ "")

/-- The settings of an environment. What is missing or cannot be read has its default. -/
def ofEnvironment (env : Environment) : Settings where
  stackSize := ((nonBlank? env "JET_STACK_SIZE").bind readSize?).getD default.stackSize
  wildcard := (nonBlank? env "JET_WILDCARD").getD default.wildcard
  marker := (nonBlank? env "JET_NAME_MARKER").getD default.marker
  address := (nonBlank? env "JET_ADDR").getD default.address

end Settings

end Signpost.Program
