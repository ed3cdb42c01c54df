import Signpost.Proofs.Binding.Fields

/-!
This module contains the types of parameters that can be declared, the parts of such a type, and what binding
does to a part of a parameter, however deep it is.
-/

namespace Signpost.Binding

/-- Where there is a record in the type there is one in the value, with the same fields. -/
inductive ParamType.Shapes : ParamType → Datum → Prop
  | value (t : ValueType) (d : Datum) : Shapes (.value t) d
  | dictionary (d : Datum) : Shapes .dictionary d
  | json (d : Datum) : Shapes .json d
  | record (info : RecordInfo) {fields : List (Field ParamType)} {values : List (String × Datum)}
    (names : values.map (·.1) = fields.map (·.name))
    (nested : ∀ field ∈ fields, ∀ t d, field.role = .nested t → values.lookup field.name = some d → Shapes t d) :
    Shapes (.record info fields) (.record values)

/-- The fields of a record as they can be declared. -/
structure Declared (fields : List (Field ParamType)) : Prop where
  names : (fields.map (·.name)).Nodup
  /-- Captured segments are texts, so that their field says nothing about the presence of another. -/
  captures : ∀ field ∈ fields, field.role = .captures →
    field.name ∉ companions fields ∧ ∃ texts, field.initial = .ofTexts texts
  nested : ∀ field ∈ fields, ∀ t, field.role = .nested t → t.Shapes field.initial

/-- A type that can be declared. -/
inductive ParamType.Sound : ParamType → Prop
  | value (t : ValueType) : Sound (.value t)
  | dictionary : Sound .dictionary
  | json : Sound .json
  | record (info : RecordInfo) {fields : List (Field ParamType)} (declared : Declared fields)
    (nested : ∀ field ∈ fields, ∀ t, field.role = .nested t → Sound t) : Sound (.record info fields)

/-- No record has two fields of one name. -/
inductive ParamType.Distinct : ParamType → Prop
  | value (t : ValueType) : Distinct (.value t)
  | dictionary : Distinct .dictionary
  | json : Distinct .json
  | record (info : RecordInfo) {fields : List (Field ParamType)} (names : (fields.map (·.name)).Nodup)
    (nested : ∀ field ∈ fields, ∀ t, field.role = .nested t → Distinct t) : Distinct (.record info fields)

theorem ParamType.Sound.distinct {t : ParamType} (h : t.Sound) : t.Distinct := by
  induction h with
  | value t => exact .value t
  | dictionary => exact .dictionary
  | json => exact .json
  | record info declared _ ih => exact .record info declared.names ih

/-- The parts of a parameter that binding comes to, by the names of the fields around them. -/
inductive Role.Reaches : Role ParamType → List String → Role ParamType → Prop
  | here (role : Role ParamType) : Reaches role [] role
  | there {info : RecordInfo} {fields : List (Field ParamType)} {field : Field ParamType} {path : List String}
    {target : Role ParamType} (mem : field ∈ fields) (notMem : field.name ∉ companions fields)
    (rest : Reaches field.role path target) : Reaches (.nested (.record info fields)) (field.name :: path) target

/-- The part of a value under a path of field names. -/
def Datum.at? : Datum → (path : List String) → Option Datum
  | d, [] => some d
  | d, name :: path => (d.field? name).bind (·.at? path)

theorem lookup_of_mem_names {fields : List (Field ParamType)} {values : List (String × Datum)}
    (hnames : values.map (·.1) = fields.map (·.name)) {field : Field ParamType} (hfield : field ∈ fields) :
    ∃ d, values.lookup field.name = some d := by
  rw [← Option.isSome_iff_exists, List.lookup_isSome_iff]
  have hmem : field.name ∈ values.map (·.1) := hnames ▸ List.mem_map_of_mem hfield
  rw [List.mem_map] at hmem
  obtain ⟨entry, hentry, heq⟩ := hmem
  exact ⟨entry, hentry, by simp [heq]⟩

theorem companion_ne_of_notMem {fields : List (Field ParamType)} {name : String} (h : name ∉ companions fields) :
    ∀ field ∈ fields, field.companion ≠ some name := by
  intro field hfield heq
  apply h
  unfold companions
  rw [List.mem_filterMap]
  exact ⟨field, hfield, heq⟩

theorem lookup_initial {fields : List (Field ParamType)} (hnames : (fields.map (·.name)).Nodup)
    {field : Field ParamType} (hfield : field ∈ fields) :
    (fields.map fun f => (f.name, f.initial)).lookup field.name = some field.initial := by
  rw [← Route.Named.mem_iff_lookup]
  . exact List.mem_map_of_mem (f := fun f : Field ParamType => (f.name, f.initial)) hfield
  . rw [List.map_map]
    exact hnames

namespace ParamType

variable {t : ParamType}

theorem Sound.shapes_initial (h : t.Sound) : t.Shapes t.initial := by
  cases h with
  | value t => exact .value t _
  | dictionary => exact .dictionary _
  | json => exact .json _
  | record info declared nested =>
    apply Shapes.record info
    . simp
    . intro field hfield t d hrole hd
      rw [lookup_initial declared.names hfield, Option.some.injEq] at hd
      exact hd ▸ declared.nested field hfield t hrole

end ParamType

/-- Wherever binding comes to, the part gets what its own role makes of it. -/
theorem Role.Reaches.rebind_of_distinct {role target : Role ParamType} {path : List String} {source : Source}
    {current d : Datum} (h : role.Reaches path target) (hdistinct : ∀ t, role = .nested t → t.Distinct)
    (hshapes : ∀ t, role = .nested t → t.Shapes current) (hrebind : role.rebind source current = .ok d) :
    ∃ before after, current.at? path = some before ∧ target.rebind source before = .ok after ∧
      d.at? path = some after ∧ (∀ t, target = .nested t → t.Distinct ∧ t.Shapes before) := by
  -- No field on the path is a companion. So what is put into it is not overwritten by its neighbours.
  induction h generalizing current d with
  | here role => exact ⟨current, d, rfl, hrebind, rfl, fun t ht => ⟨hdistinct t ht, hshapes t ht⟩⟩
  | @there info fields field path target hfield hname rest ih =>
    cases hdistinct _ rfl with
    | record _ hdistinctNames hdistinctNested =>
      cases hshapes _ rfl with
      | record _ hnames hnested =>
        rw [Role.rebind, ParamType.bind] at hrebind
        obtain ⟨values, hbind, rfl⟩ := exists_of_map hrebind
        obtain ⟨inner, hinner⟩ := lookup_of_mem_names hnames hfield
        obtain ⟨inner', hinner', hlookup⟩ :=
          exists_of_bindFields hdistinctNames (companion_ne_of_notMem hname) hfield hname hinner hbind
        obtain ⟨before, after, hbefore, hafter, hat, htarget⟩ :=
          ih (hdistinctNested field hfield) (fun t ht => hnested field hfield t _ ht hinner) hinner'
        refine ⟨before, after, ?_, hafter, ?_, htarget⟩
        . simp [Datum.at?, Datum.field?, hinner, hbefore]
        . simp [Datum.at?, Datum.field?, hlookup, hat]

theorem Role.Reaches.rebind {role target : Role ParamType} {path : List String} {source : Source}
    {current d : Datum} (h : role.Reaches path target) (hsound : ∀ t, role = .nested t → t.Sound)
    (hshapes : ∀ t, role = .nested t → t.Shapes current) (hrebind : role.rebind source current = .ok d) :
    ∃ before after, current.at? path = some before ∧ target.rebind source before = .ok after ∧
      d.at? path = some after := by
  obtain ⟨before, after, hbefore, hafter, hat, -⟩ :=
    h.rebind_of_distinct (fun t ht => (hsound t ht).distinct) hshapes hrebind
  exact ⟨before, after, hbefore, hafter, hat⟩

/-- When binding goes wrong, then at a part whose values do not convert. -/
theorem ParamType.Sound.exists_of_bind_error {t : ParamType} {source : Source} {current : Datum} {e : ParseError}
    (hsound : t.Sound) (h : t.bind source current = .error e) :
    ∃ path target, (Role.nested t).Reaches path target ∧ target.Fails source e := by
  -- The type is nested through its list of fields. The induction is on its declaration, which says what is nested.
  induction hsound generalizing current with
  | value t =>
    rw [ParamType.bind] at h
    exact ⟨[], _, .here _, .whole h⟩
  | dictionary =>
    rw [ParamType.bind] at h
    cases h
  | json =>
    rw [ParamType.bind] at h
    cases h
  | record info declared _ ih =>
    cases current with
    | record values =>
      rw [ParamType.bind] at h
      obtain ⟨field, hfield, hname, inner, hrebind⟩ := exists_of_bindFields_error (eq_error_of_map h)
      have hfails : ∃ path target, field.role.Reaches path target ∧ target.Fails source e := by
        cases hrole : field.role with
        | nested t =>
          rw [hrole] at hrebind
          exact ih field hfield t hrole hrebind
        | bound vt name keep =>
          rw [hrole] at hrebind
          exact ⟨[], _, .here _, Role.fails_of_rebind hrebind⟩
        | _ =>
          rw [hrole] at hrebind
          cases hrebind
      obtain ⟨path, target, hreach, hfails⟩ := hfails
      exact ⟨field.name :: path, target, .there hfield hname hreach, hfails⟩
    | _ =>
      rw [ParamType.bind] at h
      . cases h
      . nofun

end Signpost.Binding
