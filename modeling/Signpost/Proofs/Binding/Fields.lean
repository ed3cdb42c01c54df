import Signpost.Binding.Bind
import Signpost.Route.Named

/-!
This module contains what binding does to the fields of a record: every field gets the value that its own role
gives it, and no field reaches into another, except for its companion.
-/

namespace Signpost.Binding

open Route

theorem exists_of_bind {x : Except ε α} {f : α → Except ε β} {b : β} (h : x >>= f = .ok b) :
    ∃ a, x = .ok a ∧ f a = .ok b := by
  cases x with
  | error e => cases h
  | ok a => exact ⟨a, rfl, h⟩

theorem exists_of_map {x : Except ε α} {f : α → β} {b : β} (h : x.map f = .ok b) : ∃ a, x = .ok a ∧ f a = b := by
  cases x with
  | error e => cases h
  | ok a => exact ⟨a, rfl, Except.ok.inj h⟩

theorem eq_error_of_map {x : Except ε α} {f : α → β} {e : ε} (h : x.map f = .error e) : x = .error e := by
  cases x with
  | error e' => exact congrArg _ (Except.error.inj h)
  | ok a => cases h

theorem Datum.lookup_setField (name other : String) (value : Datum) (fields : List (String × Datum)) :
    (setField name value fields).lookup other
      =
    (fields.lookup other).map fun v => if other = name then value else v := by
  have hmap : setField name value fields
      = fields.map fun field => (field.1, if field.1 = name then value else field.2) := by
    unfold setField
    apply List.map_congr_left
    intro field _
    dsimp only
    split <;> rfl
  rw [hmap]
  exact Named.lookup_map (fun n v => if n = name then value else v) other fields

/-- What a role makes of the value that its field has. -/
def Role.rebind : Role ParamType → Source → Datum → Except ParseError Datum
  | .captures, _, d => .ok d
  | .bound t name keep, source, d => (bindValue t source name keep d).map (·.1)
  | .nested t, source, d => t.bind source d
  | .ignored _, _, d => .ok d

section
variable {t : ValueType} {name : String} {keep : Bool} {source : Source} {current d : Datum}

theorem bindValue_of_ne_nil (h : source.values name ≠ []) :
    bindValue t source name keep current
      =
    match t.ofValues (source.values name) with
    | .ok d => .ok (d, true)
    | .error problem => .error (.field name problem) := by
  unfold bindValue
  split
  . contradiction
  . rfl

theorem Role.ofValues_of_rebind (hvalues : source.values name ≠ [])
    (h : (Role.bound t name keep).rebind source current = .ok d) : t.ofValues (source.values name) = .ok d := by
  rw [rebind, bindValue_of_ne_nil hvalues] at h
  split at h
  . next hd =>
    cases h
    exact hd
  . cases h

/-- What is reported when the values that a role binds do not convert. -/
inductive Role.Fails (source : Source) : Role ParamType → ParseError → Prop
  | field {t : ValueType} {name : String} {keep : Bool} {problem : ValueError} (isGiven : source.values name ≠ [])
    (error : t.ofValues (source.values name) = .error problem) :
    Fails source (.bound t name keep) (.field name problem)
  | whole {t : ValueType} {current : Datum} {e : ParseError} (error : bindWhole t source current = .error e) :
    Fails source (.nested (.value t)) e

theorem Role.fails_of_rebind {e : ParseError} (h : (Role.bound t name keep).rebind source current = .error e) :
    (Role.bound t name keep).Fails source e := by
  have hvalues : source.values name ≠ [] := by
    intro hnone
    rw [rebind, bindValue, hnone] at h
    cases h
  rw [rebind, bindValue_of_ne_nil hvalues] at h
  split at h
  . cases h
  . next hproblem =>
    cases h
    exact .field hvalues hproblem

end

section
variable {name other : String} {companion : Option String} {role : Role ParamType} {source : Source}
  {values values' : List (String × Datum)} {current : Datum}

/-- Binding a field leaves all others alone, except for the companion. -/
theorem lookup_bindField_of_ne (hname : other ≠ name) (hcompanion : companion ≠ some other)
    (h : bindField name companion role source values = .ok values') : values'.lookup other = values.lookup other := by
  have hset : ∀ d, (Datum.setField name d values).lookup other = values.lookup other := by
    intro d
    simp [Datum.lookup_setField, hname]
  cases role with
  | captures => cases h; rfl
  | ignored t => cases h; rfl
  | nested t =>
    rw [bindField] at h
    split at h
    . obtain ⟨d, -, rfl⟩ := exists_of_map h
      exact hset d
    . cases h
      rfl
  | bound t sourceName keep =>
    rw [bindField] at h
    obtain ⟨⟨d, isPresent⟩, -, h⟩ := exists_of_bind h
    cases companion with
    | none =>
      cases h
      exact hset d
    | some c =>
      cases h
      have hother : other ≠ c := fun heq => hcompanion (congrArg some heq.symm)
      simp [Datum.lookup_setField, hother, hname]

/-- Binding a field gives it the value that its role makes of the one that it has. -/
theorem exists_of_bindField (hcompanion : companion ≠ some name) (hcurrent : values.lookup name = some current)
    (h : bindField name companion role source values = .ok values') :
    ∃ d, role.rebind source current = .ok d ∧ values'.lookup name = some d := by
  have hset : ∀ d, (Datum.setField name d values).lookup name = some d := by
    intro d
    simp [Datum.lookup_setField, hcurrent]
  cases role with
  | captures => cases h; exact ⟨current, rfl, hcurrent⟩
  | ignored t => cases h; exact ⟨current, rfl, hcurrent⟩
  | nested t =>
    rw [bindField, hcurrent] at h
    obtain ⟨d, hd, rfl⟩ := exists_of_map h
    exact ⟨d, hd, hset d⟩
  | bound t sourceName keep =>
    rw [bindField, hcurrent] at h
    obtain ⟨⟨d, isPresent⟩, hd, h⟩ := exists_of_bind h
    rw [Option.getD_some] at hd
    refine ⟨d, by simp [Role.rebind, hd, Except.map], ?_⟩
    cases companion with
    | none =>
      cases h
      exact hset d
    | some c =>
      cases h
      have hname : name ≠ c := fun heq => hcompanion (congrArg some heq.symm)
      simp [Datum.lookup_setField, hname, hset d]

theorem exists_of_bindField_error {e : ParseError}
    (h : bindField name companion role source values = .error e) :
    ∃ current, role.rebind source current = .error e := by
  cases role with
  | captures => cases h
  | ignored t => cases h
  | nested t =>
    rw [bindField] at h
    split at h
    . exact ⟨_, eq_error_of_map h⟩
    . cases h
  | bound t sourceName keep =>
    rw [bindField] at h
    cases hbind : bindValue t source sourceName keep ((values.lookup name).getD t.zero) with
    | ok result =>
      simp only [hbind] at h
      cases companion <;> cases h
    | error e' =>
      simp only [hbind] at h
      cases h
      exact ⟨_, by rw [Role.rebind, hbind]; rfl⟩

end

section
variable {skipped : List String} {fields : List (Field ParamType)} {field : Field ParamType} {name : String}
  {source : Source} {values values' : List (String × Datum)} {current : Datum}

theorem bindFields_cons (skipped : List String) (field : Field ParamType) (rest : List (Field ParamType))
    (source : Source) (values : List (String × Datum)) :
    bindFields skipped (field :: rest) source values
      =
    (if field.name ∈ skipped then .ok values else bindField field.name field.companion field.role source values)
      >>= bindFields skipped rest source := by
  rw [bindFields]
  split <;> rfl

theorem lookup_bindFirst_of_ne (hname : name ≠ field.name) (hcompanion : field.companion ≠ some name)
    (h : (if field.name ∈ skipped then .ok values
      else bindField field.name field.companion field.role source values) = .ok values') :
    values'.lookup name = values.lookup name := by
  split at h
  . cases h
    rfl
  . exact lookup_bindField_of_ne hname hcompanion h

theorem lookup_bindFields_of_notMem (hname : name ∉ fields.map (·.name))
    (hcompanion : ∀ field ∈ fields, field.companion ≠ some name)
    (h : bindFields skipped fields source values = .ok values') : values'.lookup name = values.lookup name := by
  induction fields generalizing values with
  | nil =>
    cases h
    rfl
  | cons field rest ih =>
    rw [List.map_cons, List.mem_cons, not_or] at hname
    rw [List.forall_mem_cons] at hcompanion
    rw [bindFields_cons] at h
    obtain ⟨between, hfirst, hrest⟩ := exists_of_bind h
    rw [ih hname.2 hcompanion.2 hrest]
    exact lookup_bindFirst_of_ne hname.1 hcompanion.1 hfirst

/-- Binding the fields of a record gives each of them what its role makes of it, if it is no companion. -/
theorem exists_of_bindFields (hnames : (fields.map (·.name)).Nodup)
    (hcompanion : ∀ other ∈ fields, other.companion ≠ some field.name) (hfield : field ∈ fields)
    (hskipped : field.name ∉ skipped) (hcurrent : values.lookup field.name = some current)
    (h : bindFields skipped fields source values = .ok values') :
    ∃ d, field.role.rebind source current = .ok d ∧ values'.lookup field.name = some d := by
  induction fields generalizing values with
  | nil => cases hfield
  | cons first rest ih =>
    rw [List.map_cons, List.nodup_cons] at hnames
    rw [List.forall_mem_cons] at hcompanion
    rw [bindFields_cons] at h
    obtain ⟨between, hfirst, hrest⟩ := exists_of_bind h
    cases hfield with
    | head =>
      rw [if_neg hskipped] at hfirst
      obtain ⟨d, hd, hbetween⟩ := exists_of_bindField hcompanion.1 hcurrent hfirst
      refine ⟨d, hd, ?_⟩
      rw [lookup_bindFields_of_notMem hnames.1 hcompanion.2 hrest, hbetween]
    | tail _ hmem =>
      have hne : field.name ≠ first.name := by
        intro heq
        exact hnames.1 (heq ▸ List.mem_map_of_mem hmem)
      have hbetween := (lookup_bindFirst_of_ne hne hcompanion.1 hfirst).trans hcurrent
      exact ih hnames.2 hcompanion.2 hmem hbetween hrest

theorem exists_of_bindFields_error {e : ParseError} (h : bindFields skipped fields source values = .error e) :
    ∃ field ∈ fields, field.name ∉ skipped ∧ ∃ current, field.role.rebind source current = .error e := by
  induction fields generalizing values with
  | nil => cases h
  | cons field rest ih =>
    have hrest : ∀ between, bindFields skipped rest source between = .error e →
        ∃ field' ∈ field :: rest, field'.name ∉ skipped ∧ ∃ current, field'.role.rebind source current = .error e := by
      intro between hbetween
      obtain ⟨field', hfield', hfails⟩ := ih hbetween
      exact ⟨field', List.mem_cons_of_mem _ hfield', hfails⟩
    rw [bindFields_cons] at h
    split at h
    . exact hrest values h
    . next hskipped =>
      cases hfirst : bindField field.name field.companion field.role source values with
      | ok between =>
        rw [hfirst] at h
        exact hrest between h
      | error e' =>
        rw [hfirst] at h
        cases h
        exact ⟨field, List.mem_cons_self, hskipped, exists_of_bindField_error hfirst⟩

end

end Signpost.Binding
