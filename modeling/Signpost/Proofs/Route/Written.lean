import Signpost.Proofs.Route.Lookup
import Signpost.Proofs.Route.Path

/-!
This module contains the theory of written routes. A route is a list of literals and parameters. A table that
stores one route finds it under every path in which values stand for the parameters, hands the values over in
their order, and finds nothing under a path that has another length or another literal.
-/

namespace Signpost.Route

theorem captured_self (path : List String) : captured path path = [] := by
  induction path with
  | nil => rfl
  | cons s path ih => rw [captured_cons_self, ih]

/-- How a parameter is written: between braces or after a colon. -/
inductive Marking where
  | braces
  | colon
  deriving DecidableEq

/-- A segment of a written route. -/
inductive Item where
  | literal (text : String)
  | parameter (marking : Marking) (name : String)
  deriving DecidableEq

namespace Item

def text : Item → String
  | .literal text => text
  | .parameter .braces name => "\x7b" ++ name ++ "\x7d"
  | .parameter .colon name => ":" ++ name

def isParameter : Item → Bool
  | .literal _ => false
  | .parameter .. => true

/-- The segment of the key that is stored. -/
def stored (wildcard : String) : Item → String
  | .literal text => text
  | .parameter .. => wildcard

/-- A literal stands for itself. It can be part of a path, and it is neither the wildcard nor like a parameter. -/
def Fits (wildcard : String) : Item → Prop
  | .literal text =>
    IsSegment text ∧ '?' ∉ text.toList ∧ text ≠ wildcard ∧
      ∀ marking name, text ≠ (Item.parameter marking name).text
  | .parameter .. => True

/-- The path in which values stand for the parameters, from left to right. -/
def fillIn : List Item → List String → List String
  | [], _ => []
  | .literal text :: items, values => text :: fillIn items values
  | .parameter .. :: items, values => values.headD "" :: fillIn items values.tail

/-- The path has a segment for each item, and every literal in its place. -/
def Agree (items : List Item) (path : List String) : Prop :=
  path.length = items.length ∧ ∀ (i : Nat) (text : String), items[i]? = some (.literal text) → path[i]? = some text

/-! ## The key of a written route -/

theorem isParameter_text (marking : Marking) (name : String) :
    Route.isParameter (Item.parameter marking name).text = true := by
  unfold Route.isParameter
  cases marking <;> simp [text]

theorem exists_of_isParameter {s : String} (h : Route.isParameter s = true) :
    ∃ marking name, s = (Item.parameter marking name).text := by
  unfold Route.isParameter at h
  split at h
  . next rest heq =>
    refine ⟨.colon, String.ofList rest, ?_⟩
    apply String.toList_injective
    simp [heq, text]
  . next rest heq =>
    rw [beq_iff_eq, List.getLast?_eq_some_iff] at h
    obtain ⟨name, rfl⟩ := h
    refine ⟨.braces, String.ofList name, ?_⟩
    apply String.toList_injective
    simp [heq, text]
  . cases h

variable {wildcard : String} {items : List Item}

theorem fits_literal_iff {text : String} :
    (literal text).Fits wildcard ↔
      IsSegment text ∧ '?' ∉ text.toList ∧ text ≠ wildcard ∧ Route.isParameter text = false := by
  have hparameter : (∀ marking name, text ≠ (parameter marking name).text) ↔ Route.isParameter text = false := by
    rw [← Bool.not_eq_true]
    constructor
    . intro h hparameter
      obtain ⟨marking, name, heq⟩ := exists_of_isParameter hparameter
      exact h marking name heq
    . intro h marking name heq
      exact h (heq ▸ isParameter_text marking name)
  rw [← hparameter]
  rfl

instance : DecidablePred (Fits wildcard)
  | .literal _ => decidable_of_iff' _ fits_literal_iff
  | .parameter .. => inferInstanceAs (Decidable True)

theorem Fits.isSegment_stored {item : Item} (h : item.Fits wildcard) (hwildcard : IsSegment wildcard) :
    IsSegment (item.stored wildcard) := by
  cases item with
  | literal text => exact h.1
  | parameter marking name => exact hwildcard

theorem isSegment_of_mem_key {method : String} (hwildcard : IsSegment wildcard) (hmethod : IsSegment method)
    (hitems : ∀ item ∈ items, item.Fits wildcard) :
    ∀ s ∈ method :: items.map (stored wildcard), IsSegment s := by
  rw [List.forall_mem_cons, List.forall_mem_map]
  exact ⟨hmethod, fun item hitem => (hitems item hitem).isSegment_stored hwildcard⟩

theorem Fits.stored_eq {item : Item} (h : item.Fits wildcard) :
    (if Route.isParameter item.text then wildcard else item.text) = item.stored wildcard := by
  cases item with
  | literal text =>
    have hparameter : Route.isParameter (literal text).text = false := (fits_literal_iff.1 h).2.2.2
    rw [if_neg (Bool.eq_false_iff.1 hparameter)]
    rfl
  | parameter marking name =>
    rw [if_pos (isParameter_text marking name)]
    rfl

theorem routeKey_eq (hitems : ∀ item ∈ items, item.Fits wildcard) {pattern : String}
    (hpattern : segments pattern = items.map text) (method : String) :
    routeKey method pattern wildcard = joinPath (method.toLower :: items.map (stored wildcard)) := by
  unfold routeKey
  rw [hpattern, List.map_map]
  congr 2
  apply List.map_congr_left
  intro item hitem
  exact (hitems item hitem).stored_eq

/-! ## Paths along the key -/

section
variable {known : List String → Bool} {path values : List String}

/-- Values that are not spelled like the wildcard are led to the parameters, if nothing else is known. -/
theorem leads_fillIn (hknown : ∀ lead, known lead = true → lead <+: items.map (stored wildcard))
    (hlength : values.length = items.countP isParameter) (hvalues : wildcard ∉ values) :
    Leads known wildcard (fillIn items values) (items.map (stored wildcard)) := by
  induction items generalizing known values with
  | nil =>
    rw [fillIn, leads_nil]
    rfl
  | cons item items ih =>
    have hrest : ∀ lead, known (item.stored wildcard :: lead) = true → lead <+: items.map (stored wildcard) := by
      intro lead hlead
      exact (List.cons_prefix_cons.1 (hknown _ hlead)).2
    cases item with
    | literal text =>
      rw [fillIn, List.map_cons, leads_cons]
      exact ⟨.inl rfl, ih hrest hlength hvalues⟩
    | parameter marking name =>
      rw [List.countP_cons_of_pos rfl] at hlength
      cases values with
      | nil => simp at hlength
      | cons v values =>
        rw [List.mem_cons, not_or] at hvalues
        rw [fillIn, List.map_cons, leads_cons]
        refine ⟨.inr ⟨rfl, ?_⟩, ih hrest (Nat.succ.inj hlength) hvalues.2⟩
        rw [← Bool.not_eq_true]
        intro hlead
        exact hvalues.1 (List.cons_prefix_cons.1 (hknown _ hlead)).1.symm

theorem captured_fillIn (hlength : values.length = items.countP isParameter) (hvalues : wildcard ∉ values) :
    captured (fillIn items values) (items.map (stored wildcard)) = values := by
  induction items generalizing values with
  | nil => exact (List.length_eq_zero_iff.1 hlength).symm
  | cons item items ih =>
    cases item with
    | literal text =>
      rw [fillIn, List.map_cons]
      exact (captured_cons_self _ _ _).trans (ih hlength hvalues)
    | parameter marking name =>
      rw [List.countP_cons_of_pos rfl] at hlength
      cases values with
      | nil => simp at hlength
      | cons v values =>
        rw [List.mem_cons, not_or] at hvalues
        rw [fillIn, List.map_cons]
        apply (captured_cons_of_ne hvalues.1 _ _).trans
        rw [List.tail_cons, ih (Nat.succ.inj hlength) hvalues.2]

theorem agree_of_leads (hitems : ∀ item ∈ items, item.Fits wildcard)
    (h : Leads known wildcard path (items.map (stored wildcard))) : Agree items path := by
  have hlength : path.length = items.length := by
    rw [← h.1, List.length_map]
  refine ⟨hlength, ?_⟩
  intro i text hi
  obtain ⟨hlt, _⟩ := List.getElem?_eq_some_iff.1 hi
  have hkey : (items.map (stored wildcard))[i]? = some text := by
    rw [List.getElem?_map, hi]
    rfl
  rw [← hlength] at hlt
  cases h.2 i hlt with
  | inl hself => rw [List.getElem?_eq_getElem hlt, ← hself, hkey]
  | inr hwildcard =>
    -- a literal is not the wildcard
    have hfits := hitems _ (List.mem_of_getElem? hi)
    rw [hkey, Option.some.injEq] at hwildcard
    exact absurd hwildcard.1 hfits.2.2.1

theorem mem_fillIn {s : String} (hlength : values.length = items.countP isParameter)
    (hs : s ∈ fillIn items values) : .literal s ∈ items ∨ s ∈ values := by
  induction items generalizing values with
  | nil => simp [fillIn] at hs
  | cons item items ih =>
    cases item with
    | literal text =>
      rw [fillIn, List.mem_cons] at hs
      cases hs with
      | inl heq => exact .inl (heq ▸ List.mem_cons_self)
      | inr hrest => exact (ih hlength hrest).imp_left (List.mem_cons_of_mem _)
    | parameter marking name =>
      rw [List.countP_cons_of_pos rfl] at hlength
      cases values with
      | nil => simp at hlength
      | cons v values =>
        rw [fillIn, List.mem_cons] at hs
        cases hs with
        | inl heq => exact .inr (heq ▸ List.mem_cons_self)
        | inr hrest =>
          exact (ih (Nat.succ.inj hlength) hrest).imp (List.mem_cons_of_mem _) (List.mem_cons_of_mem _)

/-- A route without parameters has one path. -/
theorem fillIn_of_notMem (h : wildcard ∉ items.map (stored wildcard)) (values : List String) :
    fillIn items values = items.map (stored wildcard) := by
  induction items with
  | nil => rfl
  | cons item items ih =>
    rw [List.map_cons, List.mem_cons, not_or] at h
    cases item with
    | literal text => rw [fillIn, ih h.2, List.map_cons, stored]
    | parameter marking name => exact absurd rfl h.1

end

end Item

/-! ## A table with one route -/

namespace Table

/-- The table that stores one value. -/
def single (wildcard : String) (key : Key) (value : α) : Table α :=
  (empty wildcard).enter key value

variable {wildcard path : String} {key : Key} {value : α}

theorem keeps_single (hkey : key.segments ≠ []) :
    (single wildcard key value).Keeps wildcard ⟨[(key, value)]⟩ :=
  (Keeps.empty wildcard).enter key hkey value

theorem find?_single_eq_some_iff (hkey : key.segments ≠ []) {hit : Hit α} :
    (single wildcard key value).find? path = some hit ↔
      (Ledger.mk [(key, value)]).Finds wildcard path key ∧ hit = ⟨value, key.args path⟩ := by
  rw [(keeps_single hkey).find?_eq_some_iff]
  constructor
  . rintro ⟨found, hfinds, hmem, hargs⟩
    rw [List.mem_singleton, Prod.mk.injEq] at hmem
    obtain ⟨rfl, hvalue⟩ := hmem
    refine ⟨hfinds, ?_⟩
    rw [← hvalue, ← hargs]
  . rintro ⟨hfinds, rfl⟩
    exact ⟨key, hfinds, List.mem_singleton.2 rfl, rfl⟩

section
variable {items : List Item} {values rest : List String} {method : String}

theorem ofText_joinPath_stored (hwildcard : IsSegment wildcard) (hmethod : IsSegment method)
    (hitems : ∀ item ∈ items, item.Fits wildcard) :
    Key.ofText wildcard (joinPath (method :: items.map (Item.stored wildcard)))
      =
    if wildcard ∈ method :: items.map (Item.stored wildcard) then
      .pattern (method :: items.map (Item.stored wildcard))
    else
      .fixed (joinPath (method :: items.map (Item.stored wildcard))) := by
  have hsegments := Item.isSegment_of_mem_key hwildcard hmethod hitems
  have hsplit := split_joinPath (fun s hs => (hsegments s hs).2) (List.cons_ne_nil _ _)
  unfold Key.ofText
  simp only [hsplit, segments_joinPath hsegments, List.contains_iff_mem]

theorem find?_single_fillIn (hwildcard : IsSegment wildcard) (hmethod : IsSegment method)
    (hitems : ∀ item ∈ items, item.Fits wildcard) (hlength : values.length = items.countP Item.isParameter)
    (hvalues : ∀ v ∈ values, IsSegment v ∧ v ≠ wildcard) :
    (single wildcard (.ofText wildcard (joinPath (method :: items.map (Item.stored wildcard)))) value).find?
        (joinPath (method :: Item.fillIn items values))
      =
    some ⟨value, values⟩ := by
  have hnotMem : wildcard ∉ values := fun hmem => (hvalues _ hmem).2 rfl
  have hcaptured := Item.captured_fillIn hlength hnotMem
  have hpath : segments (joinPath (method :: Item.fillIn items values)) = method :: Item.fillIn items values := by
    apply segments_joinPath
    rw [List.forall_mem_cons]
    refine ⟨hmethod, ?_⟩
    intro s hs
    cases Item.mem_fillIn hlength hs with
    | inl hliteral => exact (hitems _ hliteral).1
    | inr hvalue => exact (hvalues s hvalue).1
  rw [ofText_joinPath_stored hwildcard hmethod hitems]
  split
  . rw [find?_single_eq_some_iff (by simp [Key.segments]), Key.args, hpath, captured_cons_self, hcaptured]
    refine ⟨⟨by simp [Ledger.keys], by simp [Ledger.keys], ?_⟩, rfl⟩
    rw [hpath, leads_cons]
    refine ⟨.inl rfl, Item.leads_fillIn ?_ hlength hnotMem⟩
    intro lead hlead
    simpa [Ledger.begins, Ledger.keys] using hlead
  . next hfixed =>
    rw [List.mem_cons, not_or] at hfixed
    have hfill := Item.fillIn_of_notMem hfixed.2 values
    rw [hfill, captured_self] at hcaptured
    rw [hfill] at hpath ⊢
    rw [find?_single_eq_some_iff (by simp [Key.segments, hpath]), ← hcaptured, Key.args]
    exact ⟨⟨rfl, by simp [Ledger.keys]⟩, rfl⟩

theorem find?_single_of_not_agree (hwildcard : IsSegment wildcard) (hmethod : IsSegment method)
    (hitems : ∀ item ∈ items, item.Fits wildcard) (hrest : ∀ s ∈ rest, IsSegment s)
    (hagree : ¬Item.Agree items rest) :
    (single wildcard (.ofText wildcard (joinPath (method :: items.map (Item.stored wildcard)))) value).find?
        (joinPath (method :: rest))
      =
    none := by
  have hpath : ∀ s ∈ method :: rest, IsSegment s := List.forall_mem_cons.2 ⟨hmethod, hrest⟩
  have hkey := Item.isSegment_of_mem_key hwildcard hmethod hitems
  rw [Option.eq_none_iff_forall_ne_some]
  intro hit hfind
  rw [ofText_joinPath_stored hwildcard hmethod hitems] at hfind
  split at hfind
  . rw [find?_single_eq_some_iff (by simp [Key.segments]), Ledger.finds_pattern_iff, segments_joinPath hpath,
      leads_cons] at hfind
    exact hagree (Item.agree_of_leads hitems hfind.1.2.2.2)
  . rw [find?_single_eq_some_iff (by simp [Key.segments, segments_joinPath hkey]), Ledger.finds_fixed_iff,
      joinPath_inj hkey hpath] at hfind
    have hself := leads_self (fun _ => false) wildcard rest
    rw [← (List.cons.inj hfind.1.1).2] at hself hagree
    exact hagree (Item.agree_of_leads hitems hself)

end

end Table

end Signpost.Route
