import Mathlib.Data.Set.List
import Signpost.Binding.Decode
import Signpost.Proofs.Json.Reading

/-!
This module contains what the readers of parameters give back: a list has items that were read, and a record
has its fields, each with a value that was read for it or that it had before.
-/

namespace Signpost.Binding

open Json Json.Read

variable {P : Datum → Prop}

theorem yields_mismatch {P : α → Prop} (wanted : String) : (mismatch wanted).Yields P := by
  unfold mismatch
  apply yields_bind
  intro found
  split
  all_goals first
    | exact yields_fail _
    | apply yields_bind; intro isNext; exact yields_fail _

theorem yields_duplicate {P : α → Prop} (name : String) : (duplicate name).Yields P := by
  unfold duplicate
  apply yields_bind
  intro next
  split
  . apply yields_bind
    intro _
    exact yields_fail _
  . exact yields_fail _

theorem yields_inBracket {P : α → Prop} {inside : (depth : Nat) → Read α} (h : ∀ depth, (inside depth).Yields P)
    (depth : Nat) : (inBracket depth inside).Yields P := by
  cases depth with
  | zero => exact yields_failNext _
  | succ depth =>
    apply yields_bind
    intro _
    exact h depth

theorem yields_readList {item : (depth : Nat) → Read Datum} (h : ∀ depth, (item depth).Yields P) (depth : Nat) :
    (readList depth item).Yields fun d => ∃ items, d = .list items ∧ ∀ d ∈ items, P d := by
  unfold readList
  apply yields_bind
  intro b
  split
  . apply yields_inBracket
    intro depth
    refine (yields_collect (h depth)).bind ?_
    intro items hitems
    apply yields_bind
    intro _
    exact yields_pure ⟨items, rfl, hitems⟩
  . exact yields_mismatch _

theorem yields_readText : Scalar.text.read.Yields fun d => ∃ s, d = .text s := by
  apply yields_bind
  intro s
  exact yields_pure ⟨s, rfl⟩

/-- Captured segments are texts, also when they are read from JSON. -/
theorem yields_readRole_captures (depth : Nat) :
    (readRole .captures depth).Yields fun d => ∃ texts, d = .ofTexts texts := by
  rw [readRole]
  refine (yields_readList (fun _ => yields_readText) depth).imp ?_
  rintro _ ⟨items, rfl, hitems⟩
  have hrange : items ∈ Set.range (List.map Datum.text) := by
    rw [Set.range_list_map]
    intro d hd
    obtain ⟨s, rfl⟩ := hitems d hd
    exact ⟨s, rfl⟩
  obtain ⟨texts, rfl⟩ := hrange
  exact ⟨texts, rfl⟩

/-! ## Records -/

/-- Whatever a JSON document or its lack gives the field satisfies `P`. -/
structure Slot.Gives (slot : Slot) (P : Datum → Prop) : Prop where
  read : ∀ depth, (slot.read depth).Yields P
  fallback : ∀ d, slot.fallback = some d → P d

theorem Slot.Gives.imp {slot : Slot} {P Q : Datum → Prop} (h : slot.Gives P) (himp : ∀ d, P d → Q d) :
    slot.Gives Q where
  read depth := (h.read depth).imp himp
  fallback d hd := himp d (h.fallback d hd)

/-- The slot of a field. -/
def Field.slot (lenient : Bool) (field : Field ParamType) : Slot :=
  ⟨field.name, readRole field.role, fallback? lenient field.initial field.role⟩

theorem gives_captures (lenient : Bool) {field : Field ParamType} (hrole : field.role = .captures)
    (h : ∃ texts, field.initial = .ofTexts texts) :
    (field.slot lenient).Gives fun d => ∃ texts, d = .ofTexts texts := by
  unfold Field.slot
  rw [hrole]
  constructor
  . exact yields_readRole_captures
  . intro d hd
    change (if lenient then some field.initial else none) = some d at hd
    split at hd
    . cases hd
      exact h
    . cases hd

section
variable {P : String → Datum → Prop} {slots : List Slot}

theorem Slot.Gives.missing {slot : Slot} {P : Datum → Prop} (h : slot.Gives P) : slot.missing.Yields P := by
  unfold Slot.missing
  split
  . next d hd => exact yields_pure (h.fallback d hd)
  . exact yields_fail _

theorem yields_readItems (h : ∀ slot ∈ slots, slot.Gives (P slot.name)) (wanted : String) (lenient : Bool)
    (depth index : Nat) :
    (readItems wanted lenient depth slots index).Yields fun found => ∀ entry ∈ found, P entry.1 entry.2 := by
  induction slots generalizing index with
  | nil =>
    rw [readItems]
    exact yields_pure (by simp)
  | cons slot rest ih =>
    rw [List.forall_mem_cons] at h
    have hrest : ∀ d index, P slot.name d →
        (do return (slot.name, d) :: (← readItems wanted lenient depth rest index) : Read _).Yields
          fun found => ∀ entry ∈ found, P entry.1 entry.2 := by
      intro d index hd
      refine (ih h.2 index).bind ?_
      intro found hfound
      exact yields_pure (List.forall_mem_cons.2 ⟨hd, hfound⟩)
    rw [readItems]
    apply yields_bind
    intro isMore
    split
    . refine (h.1.read depth).bind ?_
      intro d hd
      exact hrest d _ hd
    . split
      . next d hd =>
        rw [Option.filter_eq_some_iff] at hd
        exact hrest d _ (h.1.fallback d hd.1)
      . apply yields_bind
        intro _
        exact yields_fail _

theorem yields_readFields (h : ∀ slot ∈ slots, slot.Gives (P slot.name)) (depth : Nat) :
    (readFields slots depth).Yields fun found => ∀ entry ∈ found, P entry.1 entry.2 := by
  -- The bound on the number of fields only ends the recursion. What was found before is kept.
  have hgo : ∀ n first found, (∀ entry ∈ found, P entry.1 entry.2) →
      (readFields.go slots depth n first found).Yields fun found => ∀ entry ∈ found, P entry.1 entry.2 := by
    intro n
    induction n with
    | zero =>
      intro first found _
      exact yields_fail _
    | succ n ih =>
      intro first found hfound
      rw [readFields.go]
      apply yields_bind
      intro isMore
      split
      . apply yields_bind
        intro name
        split
        . apply yields_bind
          intro _
          apply yields_bind
          intro _
          exact ih false found hfound
        . next slot hslot =>
          have hname : slot.name = name := by simpa using List.find?_some hslot
          split
          . exact yields_duplicate name
          . apply yields_bind
            intro _
            refine ((h slot (List.mem_of_find?_eq_some hslot)).read depth).bind ?_
            intro d hd
            exact ih false _ (List.forall_mem_cons.2 ⟨hname ▸ hd, hfound⟩)
      . exact yields_pure hfound
  unfold readFields
  apply yields_bind
  intro n
  exact hgo _ _ _ (by simp)

/--
A record has the fields that it starts with, each with a value that was read for it, is given for its lack, or was
there.
-/
theorem yields_readRecord (h : ∀ slot ∈ slots, slot.Gives (P slot.name)) (info : RecordInfo)
    {unset : List (String × Datum)} (hunset : ∀ entry ∈ unset, P entry.1 entry.2) (depth : Nat) :
    (readRecord info unset slots depth).Yields fun d => ∃ values, d = .record values ∧
      values.map (·.1) = unset.map (·.1) ∧ ∀ entry ∈ values, P entry.1 entry.2 := by
  have hfill : ∀ found : List (String × Datum), (∀ entry ∈ found, P entry.1 entry.2) →
      ∃ values, Datum.record (unset.map fun field => (field.1, (found.lookup field.1).getD field.2)) = .record values ∧
        values.map (·.1) = unset.map (·.1) ∧ ∀ entry ∈ values, P entry.1 entry.2 := by
    intro found hfound
    refine ⟨_, rfl, by simp, ?_⟩
    rw [List.forall_mem_map]
    intro entry hentry
    cases hlookup : found.lookup entry.1 with
    | none => simpa [hlookup] using hunset entry hentry
    | some d =>
      obtain ⟨front, back, rfl, -⟩ := List.lookup_eq_some_iff.1 hlookup
      simpa [hlookup] using hfound (entry.1, d) (by simp)
  unfold readRecord
  apply yields_bind
  intro b
  dsimp only
  split
  . apply yields_inBracket
    intro depth
    refine (yields_readItems h _ _ _ _).bind ?_
    intro found hfound
    apply yields_bind
    intro _
    exact yields_pure (hfill found hfound)
  . split
    . apply yields_inBracket
      intro depth
      refine (yields_readFields h depth).bind ?_
      intro found hfound
      apply yields_bind
      intro _
      have hmissing : ∀ slot ∈ slots.filter fun slot => (found.lookup slot.name).isNone,
          (do return (slot.name, ← slot.missing) : Read (String × Datum)).Yields
            fun entry => P entry.1 entry.2 := by
        intro slot hslot
        refine (h slot (List.mem_filter.1 hslot).1).missing.bind ?_
        intro d hd
        exact yields_pure hd
      refine (yields_mapM hmissing).bind ?_
      intro missing hgiven
      exact yields_pure (hfill _ (List.forall_mem_append.2 ⟨hfound, hgiven⟩))
    . exact yields_mismatch _

end

theorem exists_of_mem_slots {lenient : Bool} {fields : List (Field ParamType)} {slot : Slot}
    (h : slot ∈ slots lenient fields) :
    ∃ field ∈ fields, field.decoded = true ∧ slot = field.slot lenient := by
  induction fields with
  | nil =>
    rw [slots] at h
    cases h
  | cons field rest ih =>
    rw [slots] at h
    split at h
    . next hdecoded =>
      cases h with
      | head => exact ⟨field, List.mem_cons_self, hdecoded, rfl⟩
      | tail _ hrest =>
        obtain ⟨field, hfield, hslot⟩ := ih hrest
        exact ⟨field, List.mem_cons_of_mem _ hfield, hslot⟩
    . obtain ⟨field, hfield, hslot⟩ := ih h
      exact ⟨field, List.mem_cons_of_mem _ hfield, hslot⟩

end Signpost.Binding
