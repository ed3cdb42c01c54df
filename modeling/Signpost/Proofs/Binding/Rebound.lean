import Signpost.Proofs.Binding.Populate
import Signpost.Proofs.Binding.Problems

/-!
This module contains what a record holds after it was bound: each field has the conversion of its values or what
stands for their absence, each companion says whether there were values, and the rest is as it was.
-/

namespace Signpost.Binding

/-- Whether there are values for a field that takes them from a name. -/
def Role.isGiven? (source : Source) : Role τ → Option Bool
  | .bound _ name _ => some (source.values name ≠ [])
  | _ => none

/-- What a field says in a companion. Only a field that is bound says anything, and only in its own companion. -/
def Field.tells? (skipped : List String) (source : Source) (companion : String) (field : Field τ) : Option Bool :=
  if field.name ∉ skipped ∧ field.companion = some companion then field.role.isGiven? source else none

/-- What a record holds after its fields were bound. -/
structure Rebound (source : Source) (fields : List (Field ParamType)) (values values' : List (String × Datum)) :
    Prop where
  names : values'.map (·.1) = values.map (·.1)
  given : ∀ field ∈ fields, field.name ∉ companions fields → ∀ t name keep, field.role = .bound t name keep →
    source.values name ≠ [] →
      ∃ d, t.ofValues (source.values name) = .ok d ∧ values'.lookup field.name = some d
  missing : ∀ field ∈ fields, field.name ∉ companions fields → ∀ t name keep, field.role = .bound t name keep →
    source.values name = [] →
      values'.lookup field.name = if keep then values.lookup field.name else some t.zero
  /-- A companion says whether the last of the fields that name it had values. -/
  companion : ∀ field ∈ fields, field.name ∈ companions fields →
    values'.lookup field.name
      =
    match (fields.filterMap (·.tells? (companions fields) source field.name)).getLast? with
    | some isGiven => some (.bool isGiven)
    | none => values.lookup field.name
  untouched : ∀ field ∈ fields, field.name ∉ companions fields →
    field.role = .captures ∨ (∃ t, field.role = .ignored t) →
      values'.lookup field.name = values.lookup field.name

section
variable {source : Source} {values values' : List (String × Datum)}

theorem isPresent_of_bindValue {t : ValueType} {name : String} {keep isPresent : Bool} {current d : Datum}
    (h : bindValue t source name keep current = .ok (d, isPresent)) :
    isPresent = decide (source.values name ≠ []) := by
  unfold bindValue at h
  split at h
  . next hvalues =>
    cases h
    simp [hvalues]
  . next hvalues =>
    split at h
    . cases h
      simpa using hvalues
    . cases h

theorem names_bindField {name : String} {companion : Option String} {role : Role ParamType}
    (h : bindField name companion role source values = .ok values') :
    values'.map (·.1) = values.map (·.1) := by
  cases role with
  | captures => cases h; rfl
  | ignored t => cases h; rfl
  | nested t =>
    rw [bindField] at h
    split at h
    . obtain ⟨d, -, rfl⟩ := exists_of_map h
      exact Datum.names_setField ..
    . cases h
      rfl
  | bound t sourceName keep =>
    rw [bindField] at h
    obtain ⟨⟨d, isPresent⟩, -, h⟩ := exists_of_bind h
    cases companion with
    | none =>
      cases h
      exact Datum.names_setField ..
    | some c =>
      cases h
      exact (Datum.names_setField ..).trans (Datum.names_setField ..)

theorem lookup_bindField_companion {name c : String} {role : Role ParamType} (hname : c ≠ name) {current : Datum}
    (hcurrent : values.lookup c = some current) (h : bindField name (some c) role source values = .ok values') :
    values'.lookup c = ((role.isGiven? source).map .bool).or (some current) := by
  cases role with
  | captures =>
    cases h
    exact hcurrent
  | ignored t =>
    cases h
    exact hcurrent
  | nested t =>
    rw [bindField] at h
    split at h
    . obtain ⟨d, -, rfl⟩ := exists_of_map h
      simp [Datum.lookup_setField, hname, hcurrent, Role.isGiven?]
    . cases h
      exact hcurrent
  | bound t sourceName keep =>
    rw [bindField] at h
    obtain ⟨⟨d, isPresent⟩, hbind, h⟩ := exists_of_bind h
    cases h
    rw [Role.isGiven?, ← isPresent_of_bindValue hbind]
    simp [Datum.lookup_setField, hname, hcurrent]

section
variable {skipped : List String} {fields : List (Field ParamType)}

theorem names_bindFields (h : bindFields skipped fields source values = .ok values') :
    values'.map (·.1) = values.map (·.1) := by
  induction fields generalizing values with
  | nil =>
    cases h
    rfl
  | cons field rest ih =>
    rw [bindFields_cons] at h
    obtain ⟨between, hfirst, hrest⟩ := exists_of_bind h
    rw [ih hrest]
    split at hfirst
    . cases hfirst
      rfl
    . exact names_bindField hfirst

theorem lookup_bindFirst_companion {field : Field ParamType} {name : String} (hname : name ∈ skipped)
    {current : Datum} (hcurrent : values.lookup name = some current)
    (h : (if field.name ∈ skipped then .ok values
      else bindField field.name field.companion field.role source values) = .ok values') :
    values'.lookup name = ((field.tells? skipped source name).map .bool).or (some current) := by
  unfold Field.tells?
  split at h
  . next hfield =>
    cases h
    simpa [hfield] using hcurrent
  . next hfield =>
    have hne : name ≠ field.name := fun heq => hfield (heq ▸ hname)
    by_cases hcompanion : field.companion = some name
    . rw [if_pos ⟨hfield, hcompanion⟩]
      rw [hcompanion] at h
      exact lookup_bindField_companion hne hcurrent h
    . rw [if_neg (fun hword => hcompanion hword.2), lookup_bindField_of_ne hne hcompanion h, hcurrent]
      rfl

/-- The last field that names a companion decides what it says. -/
theorem lookup_bindFields_companion {name : String} (hname : name ∈ skipped) {current : Datum}
    (hcurrent : values.lookup name = some current) (h : bindFields skipped fields source values = .ok values') :
    values'.lookup name
      =
    ((fields.filterMap (·.tells? skipped source name)).getLast?.map .bool).or (some current) := by
  -- what the fields before have said stands until another field speaks
  induction fields generalizing values current with
  | nil =>
    cases h
    exact hcurrent
  | cons field rest ih =>
    rw [bindFields_cons] at h
    obtain ⟨between, hfirst, hrest⟩ := exists_of_bind h
    have hbetween := lookup_bindFirst_companion hname hcurrent hfirst
    rw [List.filterMap_cons]
    cases hword : field.tells? skipped source name with
    | none =>
      rw [hword] at hbetween
      exact ih hbetween hrest
    | some isGiven =>
      rw [hword] at hbetween
      rw [ih hbetween hrest, List.getLast?_cons]
      cases (rest.filterMap (·.tells? skipped source name)).getLast? <;> rfl

end

/-- Binding the fields of a record leaves in it what their declarations say. -/
theorem rebound_of_bindFields {fields : List (Field ParamType)} (hdistinct : (fields.map (·.name)).Nodup)
    (hnames : values.map (·.1) = fields.map (·.name))
    (h : bindFields (companions fields) fields source values = .ok values') :
    Rebound source fields values values' := by
  have hfields : ∀ field ∈ fields, field.name ∉ companions fields →
      ∃ current d, values.lookup field.name = some current ∧ field.role.rebind source current = .ok d ∧
        values'.lookup field.name = some d := by
    intro field hfield hname
    obtain ⟨current, hcurrent⟩ := lookup_of_mem_names hnames hfield
    obtain ⟨d, hd, hlookup⟩ :=
      exists_of_bindFields hdistinct (companion_ne_of_notMem hname) hfield hname hcurrent h
    exact ⟨current, d, hcurrent, hd, hlookup⟩
  constructor
  case names => exact names_bindFields h
  case given =>
    intro field hfield hname t name keep hrole hvalues
    obtain ⟨current, d, -, hd, hlookup⟩ := hfields field hfield hname
    rw [hrole] at hd
    exact ⟨d, Role.ofValues_of_rebind hvalues hd, hlookup⟩
  case missing =>
    intro field hfield hname t name keep hrole hvalues
    obtain ⟨current, d, hcurrent, hd, hlookup⟩ := hfields field hfield hname
    rw [hrole, Role.rebind, bindValue, hvalues] at hd
    cases hd
    rw [hlookup, hcurrent]
    split <;> rfl
  case companion =>
    intro field hfield hname
    obtain ⟨current, hcurrent⟩ := lookup_of_mem_names hnames hfield
    rw [lookup_bindFields_companion hname hcurrent h, hcurrent]
    cases (fields.filterMap (·.tells? (companions fields) source field.name)).getLast? <;> rfl
  case untouched =>
    intro field hfield hname hrole
    obtain ⟨current, d, hcurrent, hd, hlookup⟩ := hfields field hfield hname
    rw [hlookup, hcurrent]
    rcases hrole with hrole | ⟨t, hrole⟩
    . rw [hrole] at hd
      cases hd
      rfl
    . rw [hrole] at hd
      cases hd
      rfl

end

namespace ParamType

/--
Binding a parameter reports the first problem in the order of the declared fields, where a problem is that of
values that do not convert at a part to which binding comes. Without a problem it succeeds, and each of its
records, however deep, then holds what its declaration says.
-/
theorem Distinct.bind_rebound {t : ParamType} {d : Datum} (h : t.Distinct) (hshapes : t.Shapes d)
    (source : Source) :
    (∀ e, t.bind source d = .error e ↔ (t.problems source).head? = some e) ∧
    (∀ e, e ∈ t.problems source ↔
      ∃ path target, (Role.nested t).Reaches path target ∧ target.Fails source e) ∧
    (t.problems source = [] → ∃ d', t.bind source d = .ok d' ∧
      ∀ path info fields, (Role.nested t).Reaches path (.nested (.record info fields)) →
        ∃ values values', d.at? path = some (.record values) ∧ d'.at? path = some (.record values') ∧
          Rebound source fields values values') := by
  have hreports : Reports (t.bind source d) (t.problems source) := h.reports_bind hshapes
  refine ⟨hreports.eq_error_iff, fun e => h.mem_problems_iff, ?_⟩
  intro hnone
  obtain ⟨d', hbind⟩ := hreports.exists_ok hnone
  refine ⟨d', hbind, ?_⟩
  intro path info fields hreaches
  obtain ⟨before, after, hbefore, hafter, hat, htarget⟩ :=
    hreaches.rebind_of_distinct (by rintro _ ⟨⟩; exact h) (by rintro _ ⟨⟩; exact hshapes) hbind
  obtain ⟨hdistinct, hshape⟩ := htarget _ rfl
  cases hdistinct with
  | record _ hdistinctNames _ =>
    cases hshape with
    | record _ hnames _ =>
      rw [Role.rebind, bind] at hafter
      obtain ⟨values', hfields, rfl⟩ := exists_of_map hafter
      exact ⟨_, values', hbefore, hat, rebound_of_bindFields hdistinctNames hnames hfields⟩

end ParamType

/-- Two switches that share a companion, and locks that share a name with one of them. -/
def switches : ParamType :=
  .record ⟨"Switches", "Switches", true⟩
    [⟨"light", .bound (.scalar .bool) "on" false, some "given", true, .bool false⟩,
      ⟨"heat", .bound (.scalar .bool) "warm" true, some "given", true, .bool true⟩,
      ⟨"given", .bound (.scalar .bool) "given" false, none, false, .bool false⟩,
      ⟨"door", .nested (.record ⟨"Door", "Door", true⟩
        [⟨"locks", .bound (.list (.scalar .bool)) "on" false, none, true, .list []⟩]), none, true,
        .record [("locks", .list [])]⟩]

theorem sound_switches : switches.Sound := by
  apply ParamType.Sound.record
  . constructor
    . decide
    . simp
    . simp only [List.forall_mem_cons, reduceCtorEq, Role.nested.injEq]
      refine ⟨nofun, nofun, nofun, ?_, nofun⟩
      rintro _ rfl
      apply ParamType.Shapes.record
      . rfl
      . simp
  . simp only [List.forall_mem_cons, reduceCtorEq, Role.nested.injEq]
    refine ⟨nofun, nofun, nofun, ?_, nofun⟩
    rintro _ rfl
    apply ParamType.Sound.record
    . constructor
      . decide
      . simp
      . simp
    . simp

theorem bind_rebound_switches :
    let wrong : Source := ⟨fun name => if name = "on" then ["1", "yes"] else [], []⟩
    let right : Source := ⟨fun name => if name = "on" then ["1", "0"] else [], []⟩
    switches.bind wrong switches.initial = .error (.field "on" ⟨"yes", "bool"⟩) ∧
      ∃ values, switches.bind right switches.initial = .ok (.record values) ∧
        values.lookup "light" = some (.bool true) ∧ values.lookup "heat" = some (.bool true) ∧
        values.lookup "given" = some (.bool false) := by
  intro wrong right
  have hlaw := sound_switches.distinct.bind_rebound sound_switches.shapes_initial
  refine ⟨((hlaw wrong).1 _).2 rfl, ?_⟩
  obtain ⟨d, hbind, hrebound⟩ := (hlaw right).2.2 rfl
  obtain ⟨values, values', hvalues, hvalues', h⟩ := hrebound [] _ _ (.here _)
  cases hvalues
  cases hvalues'
  obtain ⟨light, hlight, hlookup⟩ := h.given _ (.head _) (by decide) _ _ _ rfl (by decide)
  cases hlight
  refine ⟨values', hbind, hlookup, ?_, ?_⟩
  . exact h.missing _ (.tail _ (.head _)) (by decide) _ _ _ rfl rfl
  . exact h.companion _ (.tail _ (.tail _ (.head _))) (by decide)

end Signpost.Binding
