import Signpost.Route.Named

/-!
This module contains the tree that stores values under lists of segments, and the walk through it: one
segment leads to the child of that name, or else to the child named by the wildcard.
-/

namespace Signpost.Route

/-- A node of the tree: the value of the key that ends here and the named children. -/
inductive Node (α : Type u) where
  | mk (value : Option α) (children : List (String × Node α))

namespace Node

def value : Node α → Option α
  | .mk value _ => value

def children : Node α → List (String × Node α)
  | .mk _ children => children

def empty : Node α :=
  .mk none []

def child? (node : Node α) (segment : String) : Option (Node α) :=
  node.children.lookup segment

/-- Whether no key ends at the node or below it. -/
def isBare (node : Node α) : Bool :=
  node.value.isNone && node.children.isEmpty

/-- The value stored under exactly these segments. -/
def find? : List String → Node α → Option α
  | [], node => node.value
  | s :: rest, node => (node.child? s).bind (find? rest)

/-- Store a value under these segments. -/
def insert (value : α) : List String → Node α → Node α
  | [], node => .mk (some value) node.children
  | s :: rest, node =>
    let child := insert value rest ((node.child? s).getD empty)
    .mk node.value (Named.put s child node.children)

/--
The node to which these segments lead, and the segments that were consumed by the wildcard. A child named like
the segment is always preferred, and the choice is never taken back.
-/
def walk (wildcard : String) : List String → Node α → Option (List String × Node α)
  | [], node => some ([], node)
  | s :: rest, node =>
    match node.child? s with
    | some child => walk wildcard rest child
    | none =>
      match node.child? wildcard with
      | some child => (walk wildcard rest child).map fun (args, found) => (s :: args, found)
      | none => none

/--
Take out the value to which these segments lead. Nodes that lead to no key any more are dropped on the way
back.
-/
def remove (wildcard : String) : List String → Node α → Option (α × Node α)
  | [], node => node.value.map fun value => (value, .mk none node.children)
  | s :: rest, node =>
    let name := if (node.child? s).isSome then s else wildcard
    (node.child? name).bind fun child =>
      (remove wildcard rest child).map fun (value, child) =>
        let children :=
          if child.isBare then Named.drop name node.children
          else Named.put name child node.children
        (value, .mk node.value children)

mutual

/-- The keys that end at the node or below it, as segments, with their values. -/
def entries : Node α → List (List String × α)
  | .mk value children => (value.toList.map fun v => ([], v)) ++ entriesBelow children

def entriesBelow : List (String × Node α) → List (List String × α)
  | [] => []
  | (name, child) :: rest =>
    ((entries child).map fun (key, v) => (name :: key, v)) ++ entriesBelow rest

end

end Node

end Signpost.Route
