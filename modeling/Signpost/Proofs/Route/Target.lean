import Signpost.Proofs.Route.Tree
import Signpost.Route.Table

/-!
This module contains the operations of the table in terms of keys. Lookup, test and removal all act on the one
key that a path leads to; an insertion acts on the key that the text spells.
-/

namespace Signpost.Route

/-- A key as the table tells keys apart: word for word, or by its segments if one of them is the wildcard. -/
inductive Key where
  | fixed (text : String)
  | pattern (key : List String)
  deriving DecidableEq

namespace Key

/-- The key that a text spells. -/
def ofText (wildcard text : String) : Key :=
  if (Text.split '/' text).contains wildcard then .pattern (Route.segments text) else .fixed text

def segments : Key → List String
  | .fixed text => Route.segments text
  | .pattern key => key

/-- What a path that leads to the key hands over to its handler. -/
def args (path : String) : Key → List String
  | .fixed _ => []
  | .pattern key => captured (Route.segments path) key

theorem ofText_of_mem {wildcard text : String} (h : wildcard ∈ Text.split '/' text) :
    ofText wildcard text = .pattern (Route.segments text) := by
  unfold ofText
  rw [if_pos (List.contains_iff_mem.2 h)]

theorem ofText_of_notMem {wildcard text : String} (h : wildcard ∉ Text.split '/' text) :
    ofText wildcard text = .fixed text := by
  unfold ofText
  rw [if_neg (fun hmem => h (List.contains_iff_mem.1 hmem))]

theorem segments_ofText (wildcard text : String) : (ofText wildcard text).segments = Route.segments text := by
  unfold ofText
  split <;> rfl

end Key

namespace Table

/-- The value under a key. -/
def stored (t : Table α) : Key → Option α
  | .fixed text => t.fixed.lookup text
  | .pattern key => t.root.find? key

/-- Put a value under a key. -/
def enter (t : Table α) (key : Key) (value : α) : Table α :=
  let size := if (t.stored key).isNone then t.size + 1 else t.size
  match key with
  | .fixed text => { t with fixed := Named.put text value t.fixed, size }
  | .pattern key => { t with root := t.root.insert value key, size }

/-- Take out a key. -/
def forget (t : Table α) : Key → Table α
  | .fixed text => { t with fixed := Named.drop text t.fixed, size := t.size - 1 }
  | .pattern key => { t with root := t.root.erase key, size := t.size - 1 }

/-- The key to which a path leads. -/
def target? (t : Table α) (path : String) : Option Key :=
  if (t.fixed.lookup path).isSome then some (.fixed path)
  else
    ((t.root.trail t.wildcard (segments path)).filter fun key => (t.root.find? key).isSome).map .pattern

theorem stored_enter (t : Table α) (key : Key) (value : α) (other : Key) :
    (t.enter key value).stored other = if other = key then some value else t.stored other := by
  cases key with
  | fixed text =>
    cases other with
    | fixed other => simp [enter, stored, Named.lookup_put]
    | pattern other => simp [enter, stored]
  | pattern key =>
    cases other with
    | fixed other => simp [enter, stored]
    | pattern other => simp [enter, stored, Node.find?_insert]

theorem stored_forget {t : Table α} (h : t.stored key = some v) (other : Key) :
    (t.forget key).stored other = if other = key then none else t.stored other := by
  cases key with
  | fixed text =>
    cases other with
    | fixed other => simp [forget, stored, Named.lookup_drop]
    | pattern other => simp [forget, stored]
  | pattern key =>
    cases other with
    | fixed other => simp [forget, stored]
    | pattern other => simp [forget, stored, Node.find?_erase h]

theorem checkKey_of_ne_nil {key : String} (h : segments key ≠ []) : checkKey key = .ok () := by
  unfold checkKey
  rw [if_neg h]

theorem checkKey_of_eq_nil {key : String} (h : segments key = []) : checkKey key = .error ⟨key⟩ := by
  unfold checkKey
  rw [if_pos h]

theorem add_of_eq_nil (t : Table α) {key : String} (h : segments key = []) (value : α) :
    t.add key value = .error ⟨key⟩ := by
  unfold add
  rw [checkKey_of_eq_nil h]
  rfl

theorem add_of_ne_nil (t : Table α) {key : String} (h : segments key ≠ []) (value : α) :
    t.add key value
      =
    .ok (t.stored (.ofText t.wildcard key), t.enter (.ofText t.wildcard key) value) := by
  unfold add Key.ofText
  rw [checkKey_of_ne_nil h]
  cases hdynamic : t.isDynamic key with
  | true =>
    have : (Text.split '/' key).contains t.wildcard = true := hdynamic
    rw [this]
    rfl
  | false =>
    have : (Text.split '/' key).contains t.wildcard = false := hdynamic
    rw [this]
    rfl

theorem target?_of_fixed {t : Table α} (h : t.fixed.lookup path = some v) :
    t.target? path = some (.fixed path) := by
  unfold target?
  rw [h]
  rfl

theorem target?_of_not_fixed {t : Table α} (h : t.fixed.lookup path = none) :
    t.target? path
      =
    ((t.root.trail t.wildcard (segments path)).filter fun key => (t.root.find? key).isSome).map .pattern := by
  unfold target?
  rw [h]
  rfl

theorem isSome_stored_of_target? {t : Table α} (h : t.target? path = some key) :
    (t.stored key).isSome = true := by
  cases hfixed : t.fixed.lookup path with
  | some v =>
    rw [target?_of_fixed hfixed, Option.some.injEq] at h
    rw [← h, stored, hfixed]
    rfl
  | none =>
    rw [target?_of_not_fixed hfixed, Option.map_eq_some_iff] at h
    obtain ⟨key, hkey, rfl⟩ := h
    rw [Option.filter_eq_some_iff] at hkey
    exact hkey.2

theorem find?_of_ne_empty (t : Table α) (h : path ≠ "") :
    t.find? path
      =
    (t.target? path).bind fun key => (t.stored key).map fun value => ⟨value, key.args path⟩ := by
  unfold find?
  rw [if_neg h]
  cases hfixed : t.fixed.lookup path with
  | some v =>
    rw [target?_of_fixed hfixed, Option.bind_some, stored, hfixed]
    rfl
  | none =>
    rw [target?_of_not_fixed hfixed, Node.walk_eq]
    cases t.root.trail t.wildcard (segments path) with
    | none => rfl
    | some key =>
      have hfind := Node.find?_eq key t.root
      rw [Option.filter_some]
      cases hat : t.root.at? key with
      | none =>
        rw [hat] at hfind
        rw [hfind]
        simp [hat]
      | some found =>
        rw [hat, Option.bind_some] at hfind
        cases hvalue : found.value with
        | none => simp [hat, hfind, hvalue]
        | some v => simp [hat, hfind, hvalue, stored, Key.args]

theorem contains_of_ne_empty (t : Table α) (h : path ≠ "") : t.contains path = (t.target? path).isSome := by
  have hcontains : t.contains path
      = ((t.fixed.lookup path).isSome || (t.find? path).isSome) := by
    unfold contains find?
    rw [if_neg h, decide_eq_true h, Bool.true_and]
    cases t.fixed.lookup path with
    | some v => rfl
    | none =>
      cases t.root.walk t.wildcard (segments path) with
      | none => rfl
      | some found =>
        simp only [Option.isSome_none, Bool.false_or, Option.any_some, Option.bind_some]
        cases found.2.value <;> rfl
  rw [hcontains, find?_of_ne_empty t h]
  cases htarget : t.target? path with
  | none =>
    cases hfixed : t.fixed.lookup path with
    | none => rfl
    | some v =>
      rw [target?_of_fixed hfixed] at htarget
      exact absurd htarget (by simp)
  | some key =>
    obtain ⟨v, hv⟩ := Option.isSome_iff_exists.1 (isSome_stored_of_target? htarget)
    rw [Option.bind_some, hv]
    simp

theorem remove_of_eq_nil (t : Table α) (h : segments path = []) : t.remove path = .error ⟨path⟩ := by
  unfold remove
  rw [checkKey_of_eq_nil h]
  rfl

theorem remove_of_ne_nil (t : Table α) (h : segments path ≠ []) :
    t.remove path = .ok ((t.target? path).bind t.stored, (t.target? path).elim t t.forget) := by
  unfold remove
  rw [checkKey_of_ne_nil h]
  cases hfixed : t.fixed.lookup path with
  | some v =>
    rw [target?_of_fixed hfixed, Option.bind_some, stored, hfixed]
    rfl
  | none =>
    rw [target?_of_not_fixed hfixed, Node.remove_eq]
    cases t.root.trail t.wildcard (segments path) with
    | none => rfl
    | some key =>
      rw [Option.bind_some, Option.filter_some]
      cases hfind : t.root.find? key with
      | none => rfl
      | some v =>
        rw [Option.isSome_some, if_pos rfl, Option.map_some, Option.map_some, Option.bind_some, stored, hfind]
        rfl

end Table

end Signpost.Route
