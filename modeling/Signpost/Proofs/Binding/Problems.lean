import Signpost.Proofs.Binding.Declared

/-!
This module contains the problems of a parameter with the values of a request, in the order in which its fields
are declared. Binding reports the first of them, and goes well if there is none.
-/

namespace Signpost.Binding

/-- What is wrong with the values under a name. A name without values is never wrong. -/
def problemsUnder (t : ValueType) (name : String) (source : Source) : List ParseError :=
  if source.values name = [] then []
  else
    match t.ofValues (source.values name) with
    | .ok _ => []
    | .error problem => [.field name problem]

/-- What is wrong with the pairs of a request as one value. -/
def problemsOfWhole (t : ValueType) (source : Source) : List ParseError :=
  match bindWhole t source t.zero with
  | .ok _ => []
  | .error e => [e]

mutual

/-- What is wrong with the values of a parameter. -/
def ParamType.problems (source : Source) : ParamType → List ParseError
  | .value t => problemsOfWhole t source
  | .dictionary => []
  | .json => []
  | .record _ fields => problemsOfFields (companions fields) source fields

/-- What is wrong with the values of the fields, except for those that stand for the presence of others. -/
def problemsOfFields (companions : List String) (source : Source) : List (Field ParamType) → List ParseError
  | [] => []
  | field :: rest =>
    (if field.name ∈ companions then [] else field.role.problems source) ++ problemsOfFields companions source rest

def Role.problems (source : Source) : Role ParamType → List ParseError
  | .captures => []
  | .ignored _ => []
  | .nested t => t.problems source
  | .bound t name _ => problemsUnder t name source

end

/-- The result is there if there is no problem, and otherwise the first problem is reported. -/
def Reports (result : Except ε α) (problems : List ε) : Prop :=
  match result with
  | .ok _ => problems = []
  | .error e => problems.head? = some e

section
variable {result : Except ε α} {problems : List ε}

theorem Reports.bind {f : α → Except ε β} {later : List ε} (h : Reports result problems)
    (hf : ∀ a, result = .ok a → Reports (f a) later) : Reports (result >>= f) (problems ++ later) := by
  cases result with
  | error e =>
    change (problems ++ later).head? = some e
    rw [List.head?_append, show problems.head? = some e from h]
    rfl
  | ok a =>
    rw [show problems = [] from h]
    exact hf a rfl

theorem Reports.map (h : Reports result problems) (f : α → β) : Reports (result.map f) problems := by
  cases result with
  | error e => exact h
  | ok a => exact h

theorem Reports.eq_error_iff (h : Reports result problems) (e : ε) :
    result = .error e ↔ problems.head? = some e := by
  cases result with
  | error e' => rw [show problems.head? = some e' from h, Except.error.injEq, Option.some.injEq]
  | ok a => simp [show problems = [] from h]

theorem Reports.exists_ok (h : Reports result problems) (hnone : problems = []) : ∃ a, result = .ok a := by
  cases result with
  | error e => simp [Reports, hnone] at h
  | ok a => exact ⟨a, rfl⟩

end

section
variable {source : Source} {values : List (String × Datum)}

theorem reports_bindValue (t : ValueType) (source : Source) (name : String) (keep : Bool) (current : Datum) :
    Reports (bindValue t source name keep current) (problemsUnder t name source) := by
  unfold bindValue problemsUnder
  cases source.values name with
  | nil => rfl
  | cons value rest =>
    dsimp only
    cases t.ofValues (value :: rest) <;> rfl

theorem reports_bindWhole (t : ValueType) (source : Source) (current : Datum) :
    Reports (bindWhole t source current) (problemsOfWhole t source) := by
  -- the value before only remains where there is no pair, and then nothing is wrong
  have hcurrent : ∀ e, bindWhole t source current = .error e ↔ bindWhole t source t.zero = .error e := by
    intro e
    unfold bindWhole
    split
    . rfl
    . cases source.pairs.getLast? <;> simp
  unfold problemsOfWhole
  cases hzero : bindWhole t source t.zero with
  | error e =>
    rw [(hcurrent e).2 hzero]
    rfl
  | ok d =>
    cases hbind : bindWhole t source current with
    | error e =>
      rw [hcurrent, hzero] at hbind
      cases hbind
    | ok d' => rfl

theorem reports_bindField {name : String} {companion : Option String} {role : Role ParamType}
    (hnested : ∀ t, role = .nested t →
      ∃ d, values.lookup name = some d ∧ Reports (t.bind source d) (t.problems source)) :
    Reports (bindField name companion role source values) (role.problems source) := by
  cases role with
  | captures => rfl
  | ignored t => rfl
  | nested t =>
    obtain ⟨d, hd, hreports⟩ := hnested t rfl
    rw [bindField, hd, Role.problems]
    exact hreports.map _
  | bound t sourceName keep =>
    rw [bindField, Role.problems, ← List.append_nil (problemsUnder _ _ _)]
    apply (reports_bindValue t source sourceName keep _).bind
    intro result _
    cases companion <;> rfl

theorem reports_bindFields {skipped : List String} {fields : List (Field ParamType)}
    (hnames : (fields.map (·.name)).Nodup)
    (hcompanion : ∀ field ∈ fields, ∀ name, field.companion = some name → name ∈ skipped)
    (hnested : ∀ field ∈ fields, field.name ∉ skipped → ∀ t, field.role = .nested t →
      ∃ d, values.lookup field.name = some d ∧ Reports (t.bind source d) (t.problems source)) :
    Reports (bindFields skipped fields source values) (problemsOfFields skipped source fields) := by
  induction fields generalizing values with
  | nil => rfl
  | cons field rest ih =>
    rw [List.map_cons, List.nodup_cons] at hnames
    rw [List.forall_mem_cons] at hcompanion hnested
    rw [bindFields_cons, problemsOfFields]
    apply Reports.bind
    . split
      . rfl
      . next hname => exact reports_bindField (hnested.1 hname)
    . intro between hfirst
      apply ih hnames.2 hcompanion.2
      -- a record further on still has the value that it had
      intro later hlater hname t ht
      obtain ⟨d, hd, hreports⟩ := hnested.2 later hlater hname t ht
      have hne : later.name ≠ field.name := by
        intro heq
        exact hnames.1 (heq ▸ List.mem_map_of_mem hlater)
      have hkept := lookup_bindFirst_of_ne hne (fun heq => hname (hcompanion.1 _ heq)) hfirst
      exact ⟨d, hkept.trans hd, hreports⟩

theorem mem_companions {fields : List (Field ParamType)} {field : Field ParamType} {name : String}
    (hfield : field ∈ fields) (hname : field.companion = some name) : name ∈ companions fields := by
  unfold companions
  rw [List.mem_filterMap]
  exact ⟨field, hfield, hname⟩

/-- Binding a value of a parameter reports the first problem of the parameter. -/
theorem ParamType.Distinct.reports_bind {t : ParamType} {d : Datum} (h : t.Distinct) (hshapes : t.Shapes d) :
    Reports (t.bind source d) (t.problems source) := by
  induction h generalizing d with
  | value t =>
    rw [ParamType.bind, ParamType.problems]
    exact reports_bindWhole t source d
  | dictionary =>
    rw [ParamType.bind]
    rfl
  | json =>
    rw [ParamType.bind]
    rfl
  | record info names _ ih =>
    cases hshapes with
    | record _ hnames hnested =>
      rw [ParamType.bind, ParamType.problems]
      apply Reports.map
      apply reports_bindFields names
      . intro field hfield name hname
        exact mem_companions hfield hname
      . intro field hfield _ t ht
        obtain ⟨d, hd⟩ := lookup_of_mem_names hnames hfield
        exact ⟨d, hd, ih field hfield t ht (hnested field hfield t d ht hd)⟩

end

/-! ## Where the problems come from -/

theorem fails_bound_iff {t : ValueType} {name : String} {keep : Bool} {source : Source} {e : ParseError} :
    (Role.bound t name keep).Fails source e ↔ e ∈ problemsUnder t name source := by
  unfold problemsUnder
  constructor
  . rintro (⟨isGiven, error⟩ | _)
    rw [if_neg isGiven, error]
    exact List.mem_singleton_self _
  . intro h
    split at h
    . cases h
    . next hvalues =>
      split at h
      . cases h
      . next hproblem =>
        rw [List.mem_singleton] at h
        exact h ▸ .field hvalues hproblem

theorem fails_whole_iff {t : ValueType} {source : Source} {e : ParseError} :
    (Role.nested (.value t)).Fails source e ↔ e ∈ problemsOfWhole t source := by
  constructor
  . rintro (_ | error)
    exact List.mem_of_head? ((reports_bindWhole t source _).eq_error_iff e |>.1 error)
  . intro h
    unfold problemsOfWhole at h
    split at h
    . cases h
    . next error =>
      rw [List.mem_singleton] at h
      exact h ▸ .whole error

theorem mem_problemsOfFields {skipped : List String} {source : Source} {fields : List (Field ParamType)}
    {e : ParseError} :
    e ∈ problemsOfFields skipped source fields ↔
      ∃ field ∈ fields, field.name ∉ skipped ∧ e ∈ field.role.problems source := by
  induction fields with
  | nil => simp [problemsOfFields]
  | cons field rest ih =>
    rw [problemsOfFields, List.mem_append, ih]
    by_cases hname : field.name ∈ skipped <;> simp [hname]

theorem Role.Reaches.mem_problems {role target : Role ParamType} {path : List String} {source : Source}
    {e : ParseError} (h : role.Reaches path target) (hfails : target.Fails source e) :
    e ∈ role.problems source := by
  induction h with
  | here role =>
    cases hfails with
    | @field t name keep _ isGiven error =>
      have hbound : (Role.bound t name keep).Fails source _ := .field isGiven error
      rw [Role.problems]
      exact fails_bound_iff.1 hbound
    | whole error =>
      rw [Role.problems, ParamType.problems]
      exact fails_whole_iff.1 (.whole error)
  | there hfield hname _ ih =>
    rw [Role.problems, ParamType.problems, mem_problemsOfFields]
    exact ⟨_, hfield, hname, ih hfails⟩

/-- A problem is that of a part to which binding comes and whose values do not convert. -/
theorem ParamType.Distinct.mem_problems_iff {t : ParamType} (h : t.Distinct) {source : Source} {e : ParseError} :
    e ∈ t.problems source ↔
      ∃ path target, (Role.nested t).Reaches path target ∧ target.Fails source e := by
  constructor
  . intro he
    induction h with
    | value t => exact ⟨[], _, .here _, fails_whole_iff.2 (by rwa [problems] at he)⟩
    | dictionary => simp [problems] at he
    | json => simp [problems] at he
    | record info names _ ih =>
      rw [problems, mem_problemsOfFields] at he
      obtain ⟨field, hfield, hname, he⟩ := he
      have hpart : ∃ path target, field.role.Reaches path target ∧ target.Fails source e := by
        cases hrole : field.role with
        | nested t =>
          rw [hrole, Role.problems] at he
          exact ih field hfield t hrole he
        | bound t name keep =>
          rw [hrole, Role.problems] at he
          exact ⟨[], _, .here _, fails_bound_iff.2 he⟩
        | _ => simp [hrole, Role.problems] at he
      obtain ⟨path, target, hreaches, hfails⟩ := hpart
      exact ⟨field.name :: path, target, .there hfield hname hreaches, hfails⟩
  . rintro ⟨path, target, hreaches, hfails⟩
    have he := hreaches.mem_problems hfails
    rwa [Role.problems] at he

end Signpost.Binding
