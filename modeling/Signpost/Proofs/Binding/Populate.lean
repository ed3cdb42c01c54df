import Mathlib.Data.List.Nodup
import Signpost.Binding.Populate
import Signpost.Proofs.Binding.Declared

/-!
This module contains the ways in which a parameter is populated, and the value that it has before anything is
bound: that of its type with the captured segments in the field that takes them.
-/

namespace Signpost.Binding

theorem Datum.field?_withField (d : Datum) (name other : String) (value : Datum) :
    (d.withField name value).field? other = (d.field? other).map fun v => if other = name then value else v := by
  cases d with
  | record fields => exact Datum.lookup_setField name other value fields
  | _ => rfl

theorem Datum.names_setField (name : String) (value : Datum) (fields : List (String × Datum)) :
    (setField name value fields).map (·.1) = fields.map (·.1) := by
  unfold setField
  rw [List.map_map]
  apply List.map_congr_left
  intro field _
  dsimp only [Function.comp]
  split <;> rfl

theorem Declared.field_eq {fields : List (Field ParamType)} (h : Declared fields) {field other : Field ParamType}
    (hfield : field ∈ fields) (hother : other ∈ fields) (heq : field.name = other.name) : field = other :=
  List.inj_on_of_nodup_map h.names hfield hother heq

namespace ParamType

variable {t : ParamType} {name : String} {args : List String}

theorem exists_of_capturesField? (h : t.capturesField? = some name) :
    ∃ info fields field, t = .record info fields ∧ field ∈ fields ∧ field.role = .captures ∧ field.name = name := by
  cases t with
  | record info fields =>
    rw [capturesField?, Option.map_eq_some_iff] at h
    obtain ⟨field, hfind, hname⟩ := h
    have hcaptures := List.find?_some hfind
    refine ⟨info, fields, field, rfl, List.mem_of_find?_eq_some hfind, ?_, hname⟩
    cases hrole : field.role <;> simp [hrole, Role.isCaptures] at hcaptures
    rfl
  | _ => cases h

theorem withCaptures_of_none (h : t.capturesField? = none) (args : List String) (d : Datum) :
    t.withCaptures args d = d := by
  unfold withCaptures
  rw [h]
  cases args <;> rfl

theorem withCaptures_of_capturesField? (h : t.capturesField? = some name) (hargs : args ≠ []) (d : Datum) :
    t.withCaptures args d = d.withField name (.ofTexts args) := by
  cases args with
  | nil => exact absurd rfl hargs
  | cons arg args =>
    unfold withCaptures
    rw [h]

namespace Sound

theorem field?_initial (hsound : t.Sound) (h : t.capturesField? = some name) :
    ∃ texts, t.initial.field? name = some (.ofTexts texts) := by
  obtain ⟨info, fields, field, rfl, hfield, hrole, rfl⟩ := exists_of_capturesField? h
  cases hsound with
  | record _ declared _ =>
    obtain ⟨texts, htexts⟩ := (declared.captures field hfield hrole).2
    exact ⟨texts, htexts ▸ lookup_initial declared.names hfield⟩

/-- A parameter starts with the captured segments in the field that takes them. -/
theorem field?_withCaptures (hsound : t.Sound) (h : t.capturesField? = some name) (hargs : args ≠ []) :
    (t.withCaptures args t.initial).field? name = some (.ofTexts args) := by
  obtain ⟨texts, htexts⟩ := hsound.field?_initial h
  simp [withCaptures_of_capturesField? h hargs, Datum.field?_withField, htexts]

theorem shapes_withCaptures (hsound : t.Sound) (args : List String) : t.Shapes (t.withCaptures args t.initial) := by
  by_cases hargs : args = []
  . rw [hargs]
    exact hsound.shapes_initial
  cases hcaptures : t.capturesField? with
  | none =>
    rw [withCaptures_of_none hcaptures]
    exact hsound.shapes_initial
  | some name =>
    rw [withCaptures_of_capturesField? hcaptures hargs]
    obtain ⟨info, fields, field, rfl, hfield, hrole, rfl⟩ := exists_of_capturesField? hcaptures
    have hinitial := hsound.shapes_initial
    cases hsound with
    | record _ declared _ =>
      cases hinitial with
      | record _ names nested =>
        refine .record info ((Datum.names_setField _ _ _).trans names) ?_
        intro other hother t d hnested hlookup
        have hne : other.name ≠ field.name := by
          intro heq
          rw [declared.field_eq hother hfield heq, hrole] at hnested
          cases hnested
        simp only [Datum.lookup_setField, if_neg hne, Option.map_id'] at hlookup
        exact nested other hother t d hnested hlookup

end Sound

/-- The ways in which a parameter is populated from a request and captured segments. -/
inductive Populated (t : ParamType) (r : Http.Request) (args : List String) : Datum → Prop
  | filled (isFilled : t.isFilledBy args = true) : Populated t r args (t.withCaptures args t.initial)
  | kept (isFilled : t.isFilledBy args = false) (kind : r.kind = .json) (body : r.body = []) :
    Populated t r args (t.withCaptures args t.initial)
  | decoded (isFilled : t.isFilledBy args = false) (kind : r.kind = .json) (body : r.body ≠ []) {d : Datum}
    (decode : t.decode r.body = .ok d) :
    Populated t r args (if t.capturesNothing d then t.withCaptures args d else d)
  | form (isFilled : t.isFilledBy args = false) (kind : r.kind = .form) {d : Datum}
    (bind : t.bind (.ofForm r) (t.withCaptures args t.initial) = .ok d) : Populated t r args d
  | query (isFilled : t.isFilledBy args = false) (kind : r.kind = .other) {d : Datum}
    (bind : t.bind (.ofQuery r) (t.withCaptures args t.initial) = .ok d) : Populated t r args d

theorem populate_eq_ok_iff {r : Http.Request} {d : Datum} : t.populate r args = .ok d ↔ Populated t r args d := by
  constructor
  . intro h
    unfold populate at h
    dsimp only at h
    split at h
    . next isFilled =>
      cases h
      exact .filled isFilled
    next isFilled =>
    rw [Bool.not_eq_true] at isFilled
    split at h
    . next kind =>
      split at h
      . next body =>
        cases h
        exact .kept isFilled kind body
      . next body =>
        split at h
        . cases h
        . next decoded decode =>
          cases h
          exact .decoded isFilled kind body decode
    . next kind => exact .form isFilled kind h
    . next kind => exact .query isFilled kind h
  . intro h
    unfold populate
    cases h with
    | filled isFilled => simp [isFilled]
    | kept isFilled kind body => simp [isFilled, kind, body]
    | decoded isFilled kind body decode => simp [isFilled, kind, body, decode]
    | form isFilled kind bind => simp [isFilled, kind, bind]
    | query isFilled kind bind => simp [isFilled, kind, bind]

theorem isFilledBy_eq (h : t.capturesField? = some name) (hargs : args ≠ []) :
    t.isFilledBy args = (t.fieldCount == 1) := by
  simp [isFilledBy, hargs, h]

end ParamType

end Signpost.Binding
