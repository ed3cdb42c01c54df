import Signpost.Proofs.Binding.Decode
import Signpost.Proofs.Binding.Populate

/-!
This module contains what becomes of the segments that a route has captured: they are the value of the field
that takes them, unless a JSON body is decoded to a parameter that already has segments there.
-/

namespace Signpost.Binding

/-- The texts of a list of texts. -/
def Datum.texts? : Datum → Option (List String)
  | .list items => items.mapM fun
    | .text s => some s
    | _ => none
  | _ => none

namespace ParamType

variable {t : ParamType} {name : String} {args : List String}

/-- Segments of its own stay in a decoded parameter. If it has none, the captured ones are put in. -/
theorem field?_decoded (h : t.capturesField? = some name) (hargs : args ≠ []) {decoded : Datum} {own : List String}
    (hown : decoded.field? name = some (.ofTexts own)) :
    (if t.capturesNothing decoded then t.withCaptures args decoded else decoded).field? name
      =
    some (.ofTexts (if own = [] then args else own)) := by
  have hnothing : t.capturesNothing decoded = own.isEmpty := by
    unfold capturesNothing
    rw [h, Option.bind_some, hown]
    cases own <;> rfl
  rw [hnothing]
  cases own with
  | nil => simp [withCaptures_of_capturesField? h hargs, Datum.field?_withField, hown]
  | cons text own => simp [hown]

/-- What JSON gives a field of a record: what its slot gives, or its unset value if it has no slot. -/
theorem exists_field?_decode {info : RecordInfo} {fields : List (Field ParamType)} (declared : Declared fields)
    {field : Field ParamType} (hfield : field ∈ fields) {P : Datum → Prop} (hunset : P (field.unset info.lenient))
    (hslot : field.decoded = true → (field.slot info.lenient).Gives P)
    {body : Bytes} {d : Datum} (hdecode : (ParamType.record info fields).decode body = .ok d) :
    ∃ value, d.field? field.name = some value ∧ P value := by
  -- Only one name is followed through the readers. Under the others they may give anything.
  let Q (other : String) (d : Datum) : Prop := other = field.name → P d
  have hunsets : ∀ entry ∈ fields.map fun f => (f.name, f.unset info.lenient), Q entry.1 entry.2 := by
    rw [List.forall_mem_map]
    intro other hother heq
    rw [declared.field_eq hother hfield heq]
    exact hunset
  have hslots : ∀ slot ∈ slots info.lenient fields, slot.Gives (Q slot.name) := by
    intro slot hmem
    obtain ⟨other, hother, hdecoded, rfl⟩ := exists_of_mem_slots hmem
    by_cases heq : other.name = field.name
    . cases declared.field_eq hother hfield heq
      exact (hslot hdecoded).imp fun _ hvalue _ => hvalue
    . constructor
      . intro depth
        exact Json.Read.yields_of_forall fun _ hname => absurd hname heq
      . intro d _ hname
        exact absurd hname heq
  unfold decode at hdecode
  rw [ParamType.read] at hdecode
  obtain ⟨values, rfl, hnames, hvalues⟩ := (yields_readRecord hslots info hunsets _).of_document hdecode
  have hfields : values.map (·.1) = fields.map (·.name) := by simp [hnames]
  obtain ⟨value, hlookup⟩ := lookup_of_mem_names hfields hfield
  have hmem : (field.name, value) ∈ values := by
    rw [Route.Named.mem_iff_lookup (hfields ▸ declared.names)]
    exact hlookup
  exact ⟨value, hlookup, hvalues _ hmem rfl⟩

/-- A field that JSON cannot set has the value of the record if JSON can leave fields out, and else that of its type. -/
theorem field?_decode_of_not_decoded {info : RecordInfo} {fields : List (Field ParamType)}
    (declared : Declared fields) {field : Field ParamType} (hfield : field ∈ fields) (hdecoded : field.decoded = false)
    {body : Bytes} {d : Datum} (hdecode : (ParamType.record info fields).decode body = .ok d) :
    d.field? field.name = some (if info.lenient then field.initial else field.role.zero) := by
  have hslot : field.decoded = true → (field.slot info.lenient).Gives (field.unset info.lenient = ·) := by
    intro h
    cases hdecoded.symm.trans h
  obtain ⟨_, hvalue, rfl⟩ := exists_field?_decode declared hfield rfl hslot hdecode
  exact hvalue

-- The record has a value for the segments, but does not let JSON leave fields out.
example :
    let t : ParamType := .record ⟨"Note", "Note", false⟩
      [⟨"args", .captures, none, false, .ofTexts ["none"]⟩,
        ⟨"text", .bound (.scalar .text) "text" false, none, true, .text ""⟩]
    let d := (t.decode (Text.utf8 "\x7b\"text\":\"x\"\x7d")).toOption
    (d.bind (·.field? "args")).bind Datum.texts? = some [] := by
  decide +kernel

namespace Sound

/-- Neither a query nor a form reaches the captured segments. -/
theorem field?_bind (hsound : t.Sound) (h : t.capturesField? = some name) {source : Source} {current d : Datum}
    (hshapes : t.Shapes current) (hbind : t.bind source current = .ok d) : d.field? name = current.field? name := by
  obtain ⟨info, fields, field, rfl, hfield, hrole, rfl⟩ := exists_of_capturesField? h
  cases hsound with
  | record _ declared nested =>
    have hreach : (Role.nested (.record info fields)).Reaches [field.name] .captures := by
      have hnotMem := (declared.captures field hfield hrole).1
      exact .there hfield hnotMem (hrole ▸ .here _)
    obtain ⟨before, after, hbefore, hafter, hat⟩ := hreach.rebind
      (by rintro _ ⟨⟩; exact .record info declared nested) (by rintro _ ⟨⟩; exact hshapes) hbind
    cases hafter
    simp only [Datum.at?, Option.bind_fun_some] at hbefore hat
    rw [hbefore, hat]

/-- JSON decodes to a parameter with a list of texts in the field of the captured segments. -/
theorem field?_decode (hsound : t.Sound) (h : t.capturesField? = some name) {body : Bytes} {d : Datum}
    (hdecode : t.decode body = .ok d) : ∃ own, d.field? name = some (.ofTexts own) := by
  obtain ⟨info, fields, field, rfl, hfield, hrole, rfl⟩ := exists_of_capturesField? h
  cases hsound with
  | record _ declared _ =>
    have htexts := (declared.captures field hfield hrole).2
    have hunset : ∃ own, field.unset info.lenient = .ofTexts own := by
      unfold Field.unset
      split
      . exact htexts
      . exact ⟨[], hrole ▸ rfl⟩
    obtain ⟨_, hvalue, own, rfl⟩ :=
      exists_field?_decode declared hfield hunset (fun _ => gives_captures _ hrole htexts) hdecode
    exact ⟨own, hvalue⟩

/-- The texts that a field of the captured segments has of its own, if JSON cannot set it. -/
theorem own_of_not_decoded (hsound : t.Sound) (h : t.capturesField? = some name) {body : Bytes} {d : Datum}
    (hdecode : t.decode body = .ok d) {own : List String} (hown : d.field? name = some (.ofTexts own)) :
    ∀ info fields field, t = .record info fields → field ∈ fields → field.name = name → field.decoded = false →
      .ofTexts own = if info.lenient then field.initial else .ofTexts [] := by
  rintro info fields field rfl hfield rfl hdecoded
  obtain ⟨_, _, other, ⟨⟩, hother, hrole, hname⟩ := exists_of_capturesField? h
  cases hsound with
  | record _ declared _ =>
    cases declared.field_eq hother hfield hname
    have hunset := field?_decode_of_not_decoded declared hfield hdecoded hdecode
    rw [hown, Option.some.injEq, hrole] at hunset
    exact hunset

/--
What a populated parameter has in the field of the captured segments: the segments. Only if it is decoded from a
JSON body that gives the field texts of its own, in the body or by a default, it has those. A field that JSON cannot
set has only the default of a type that lets JSON leave fields out.
-/
theorem field?_populate (hsound : t.Sound) (h : t.capturesField? = some name) (hargs : args ≠ [])
    {r : Http.Request} {d : Datum} (hpopulate : t.populate r args = .ok d) :
    let isDecoded := r.kind = .json ∧ r.body ≠ [] ∧ t.fieldCount ≠ 1
    (¬isDecoded → d.field? name = some (.ofTexts args)) ∧
      (isDecoded → ∃ decoded own, t.decode r.body = .ok decoded ∧ decoded.field? name = some (.ofTexts own) ∧
        d.field? name = some (.ofTexts (if own = [] then args else own)) ∧
        ∀ info fields field, t = .record info fields → field ∈ fields → field.name = name → field.decoded = false →
          .ofTexts own = if info.lenient then field.initial else .ofTexts []) := by
  intro isDecoded
  have hstart := hsound.field?_withCaptures h hargs
  have hshapes := hsound.shapes_withCaptures args
  cases populate_eq_ok_iff.1 hpopulate with
  | filled isFilled =>
    rw [isFilledBy_eq h hargs, beq_iff_eq] at isFilled
    exact ⟨fun _ => hstart, fun hdecoded => absurd isFilled hdecoded.2.2⟩
  | kept _ _ body => exact ⟨fun _ => hstart, fun hdecoded => absurd body hdecoded.2.1⟩
  | @decoded isFilled kind body decoded decode =>
    rw [isFilledBy_eq h hargs, beq_eq_false_iff_ne] at isFilled
    refine ⟨fun hnot => absurd ⟨kind, body, isFilled⟩ hnot, fun _ => ?_⟩
    obtain ⟨own, hown⟩ := hsound.field?_decode h decode
    exact ⟨decoded, own, decode, hown, field?_decoded h hargs hown, hsound.own_of_not_decoded h decode hown⟩
  | form _ kind bind =>
    refine ⟨fun _ => (hsound.field?_bind h hshapes bind).trans hstart, fun hdecoded => ?_⟩
    cases kind.symm.trans hdecoded.1
  | query _ kind bind =>
    refine ⟨fun _ => (hsound.field?_bind h hshapes bind).trans hstart, fun hdecoded => ?_⟩
    cases kind.symm.trans hdecoded.1

end Sound

/-- A text that is filed under captured segments. -/
def note : ParamType :=
  .record ⟨"Note", "Note", true⟩
    [⟨"args", .captures, none, true, .list []⟩, ⟨"text", .bound (.scalar .text) "text" false, none, true, .text ""⟩]

theorem sound_note : note.Sound := by
  apply Sound.record
  . constructor
    . decide
    . simp only [List.forall_mem_cons, reduceCtorEq]
      exact ⟨fun _ => ⟨by decide, [], rfl⟩, nofun, nofun⟩
    . simp
  . simp

theorem bind_note {source : Source} (h : source.values "text" = ["x"]) :
    note.bind source (note.withCaptures ["7"] note.initial)
      =
    .ok (.record [("args", .ofTexts ["7"]), ("text", .text "x")]) := by
  have hstart : note.withCaptures ["7"] note.initial = .record [("args", .ofTexts ["7"]), ("text", .text "")] := rfl
  rw [hstart, note, ParamType.bind]
  simp only [bindFields, bindField, bindValue, h]
  rfl

/-- The query does not reach the captured segments. -/
theorem field?_populate_note_query :
    let r := Http.Request.ofUri .get "/note/7?args=evil&text=x"
    ∃ d, note.populate r ["7"] = .ok d ∧ d.field? "args" = some (.ofTexts ["7"]) := by
  intro r
  have hkind : r.kind = .other := by decide +kernel
  have hvalues : (Source.ofQuery r).values "text" = ["x"] := by decide +kernel
  have hpopulate := populate_eq_ok_iff.2 (.query (by decide) hkind (bind_note hvalues))
  have hfield := sound_note.field?_populate rfl (by decide) hpopulate
  refine ⟨_, hpopulate, hfield.1 ?_⟩
  simp [hkind]

/-- A JSON body does. -/
theorem field?_populate_note_json :
    let r := (Http.Request.ofUri ⟨"POST"⟩ "/note/7").withJson
      (.ofFields [("args", .array [.text "evil"]), ("text", .text "x")])
    note.capturesField? = some "args" ∧
      ∃ d, note.populate r ["7"] = .ok d ∧ d.field? "args" ≠ some (.ofTexts ["7"]) := by
  intro r
  have htexts : ((note.populate r ["7"]).toOption.bind (·.field? "args")).bind Datum.texts? = some ["evil"] := by
    decide +kernel
  refine ⟨rfl, ?_⟩
  cases hpopulate : note.populate r ["7"] with
  | error e =>
    rw [hpopulate] at htexts
    cases htexts
  | ok d =>
    refine ⟨d, rfl, ?_⟩
    intro hargs
    rw [hpopulate, Except.toOption, Option.bind_some, hargs] at htexts
    exact absurd htexts (by decide)

end ParamType

end Signpost.Binding
