import Signpost.Route.Node
import Signpost.Route.Path
import Signpost.Text.Quoted

/-!
This module contains the table of routes. A key with the wildcard among its segments is stored in the tree;
every other key is stored word for word, and a path that is spelled like it finds it at once.
-/

namespace Signpost.Route

/-- Why a key is refused: it has no segment. -/
structure InvalidKey where
  key : String
  deriving DecidableEq

def InvalidKey.message (e : InvalidKey) : String :=
  "invalid route key " ++ Text.quoted e.key

/-- Routes by their keys. -/
structure Table (α : Type u) where
  wildcard : String
  root : Node α
  /-- The values of the keys without a wildcard. -/
  fixed : List (String × α)
  size : Nat

/-- What a path leads to: a value, and the segments that were consumed by the wildcard. -/
structure Hit (α : Type u) where
  value : α
  args : List String
  deriving DecidableEq

namespace Table

def defaultWildcard : String := "*"

def empty (wildcard : String) : Table α :=
  ⟨wildcard, .empty, [], 0⟩

def clear (t : Table α) : Table α :=
  empty t.wildcard

def isEmpty (t : Table α) : Bool :=
  t.size == 0

/-- Whether a key is stored in the tree. The empty pieces of the key count as well. -/
def isDynamic (t : Table α) (key : String) : Bool :=
  (Text.split '/' key).contains t.wildcard

def checkKey (key : String) : Except InvalidKey Unit :=
  if segments key = [] then .error ⟨key⟩ else .ok ()

/-- Store a value. The value that it replaces is given back. -/
def add (t : Table α) (key : String) (value : α) : Except InvalidKey (Option α × Table α) := do
  checkKey key
  if t.isDynamic key then
    let previous := t.root.find? (segments key)
    let size := if previous.isNone then t.size + 1 else t.size
    return (previous, { t with root := t.root.insert value (segments key), size })
  else
    let previous := t.fixed.lookup key
    let size := if previous.isNone then t.size + 1 else t.size
    return (previous, { t with fixed := Named.put key value t.fixed, size })

/-- Take out the value that is found under a path, a key or any path that the key matches. -/
def remove (t : Table α) (path : String) : Except InvalidKey (Option α × Table α) := do
  checkKey path
  match t.fixed.lookup path with
  | some value =>
    return (some value, { t with fixed := Named.drop path t.fixed, size := t.size - 1 })
  | none =>
    match t.root.remove t.wildcard (segments path) with
    | some (value, root) => return (some value, { t with root, size := t.size - 1 })
    | none => return (none, t)

/-- What a path leads to. -/
def find? (t : Table α) (path : String) : Option (Hit α) :=
  if path = "" then none
  else
    match t.fixed.lookup path with
    | some value => some ⟨value, []⟩
    | none =>
      (t.root.walk t.wildcard (segments path)).bind fun (args, node) =>
        node.value.map fun value => ⟨value, args⟩

def get? (t : Table α) (path : String) : Option α :=
  (t.find? path).map (·.value)

/-- Whether a path leads to a value. -/
def contains (t : Table α) (path : String) : Bool :=
  path ≠ "" &&
    ((t.fixed.lookup path).isSome ||
      ((t.root.walk t.wildcard (segments path)).any fun (_, node) => node.value.isSome))

/-- Whether some key goes on from the segments of a path. -/
def startsWith (t : Table α) (start : String) : Bool :=
  match segments start with
  | [] => false
  | lead =>
    (t.fixed.any fun (key, _) => lead.isPrefixOf (segments key))
      || (t.root.walk t.wildcard lead).isSome

def sortKeys (keys : List String) : List String :=
  keys.mergeSort fun a b => decide (a ≤ b)

/-- All keys: those without a wildcard first, each group in increasing order. -/
def keys (t : Table α) : List String :=
  sortKeys (t.fixed.map (·.1)) ++ sortKeys (t.root.entries.map fun (key, _) => joinPath key)

/-- All keys with the values that they lead to. -/
def routes (t : Table α) : List (String × α) :=
  t.keys.filterMap fun key => (t.get? key).map (key, ·)

/-- The table as it is shown to a developer. -/
def describe (t : Table α) : String :=
  "RouteTrie \x7b wildcard: " ++ Text.quoted t.wildcard ++ ", size: " ++ toString t.size ++ " \x7d"

end Table

end Signpost.Route
