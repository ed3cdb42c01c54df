import Signpost.Proofs.Binding.Populate
import Signpost.Proofs.Http.Form
import Signpost.Proofs.Json.Fields

/-!
This module contains which of its values a form request gives to a name that occurs in the form and in the query:
the form gives it to a field, the query gives it to a dictionary and to a JSON object.
-/

namespace Signpost.Binding

open Http (Request)

section
variable {source : Source} {before after : Datum} {name : String}

theorem Role.lookup_of_rebind_dictionary (h : (Role.nested .dictionary).rebind source before = .ok after) :
    ∃ entries, after = .dictionary entries ∧
      ∀ name, entries.lookup name = (Request.valuesOf source.pairs name).getLast? := by
  rw [rebind, ParamType.bind] at h
  cases h
  exact ⟨_, rfl, fun name => Json.lookup_sortFields name source.pairs⟩

theorem Role.lookup_of_rebind_json (h : (Role.nested .json).rebind source before = .ok after) :
    ∃ fields, after = .json (.object fields) ∧
      ∀ name, fields.lookup name = (Request.valuesOf source.pairs name).getLast?.map .text := by
  rw [rebind, ParamType.bind] at h
  cases h
  refine ⟨_, rfl, ?_⟩
  intro name
  rw [Json.lookup_sortFields, Request.valuesOf, ← List.getLast?_map, List.filter_map, List.map_map, List.map_map]
  rfl

theorem valuesOf_pairs_ofForm (r : Request) (name : String) :
    Request.valuesOf (Source.ofForm r).pairs name = r.formValues name ++ r.queryValues name := by
  unfold Source.ofForm Request.formValues Request.queryValues Request.valuesOf
  rw [List.filter_append, List.map_append]

end

/-- A parameter that has the captured segments alone has nothing else to bind. -/
theorem Role.Reaches.isFilledBy {t : ParamType} {path : List String} {target : Role ParamType}
    (h : (Role.nested t).Reaches path target) (hcaptures : target ≠ .captures)
    (hrecord : ∀ info fields, target ≠ .nested (.record info fields)) (args : List String) :
    t.isFilledBy args = false := by
  rw [← Bool.not_eq_true]
  intro hfilled
  simp only [ParamType.isFilledBy, Bool.and_eq_true, beq_iff_eq, Option.isSome_iff_exists] at hfilled
  obtain ⟨⟨-, name, hname⟩, hcount⟩ := hfilled
  obtain ⟨info, fields, field, rfl, hfield, hrole, -⟩ := ParamType.exists_of_capturesField? hname
  -- the field of the captured segments is the only one, and nothing is behind it
  obtain ⟨only, rfl⟩ := List.length_eq_one_iff.1 hcount
  rw [List.mem_singleton] at hfield
  cases h with
  | here => exact hrecord info [only] rfl
  | there hother _ rest =>
    rw [List.mem_singleton] at hother
    rw [hother, ← hfield, hrole] at rest
    cases rest
    exact hcaptures rfl

namespace ParamType.Sound

variable {t : ParamType} {r : Request} {args : List String} {d : Datum} {path : List String} {target : Role ParamType}

theorem rebind_of_populate_form (hsound : t.Sound) (hkind : r.kind = .form) (h : t.populate r args = .ok d)
    (hreach : (Role.nested t).Reaches path target) (hcaptures : target ≠ .captures)
    (hrecord : ∀ info fields, target ≠ .nested (.record info fields)) :
    ∃ before after, target.rebind (.ofForm r) before = .ok after ∧ d.at? path = some after := by
  have hunfilled := hreach.isFilledBy hcaptures hrecord args
  have hshapes := hsound.shapes_withCaptures args
  cases populate_eq_ok_iff.1 h with
  | form _ _ bind =>
    obtain ⟨before, after, -, hafter, hat⟩ :=
      hreach.rebind (by rintro _ ⟨⟩; exact hsound) (by rintro _ ⟨⟩; exact hshapes) bind
    exact ⟨before, after, hafter, hat⟩
  | filled isFilled => cases isFilled.symm.trans hunfilled
  | kept _ kind _ => cases kind.symm.trans hkind
  | decoded _ kind _ _ => cases kind.symm.trans hkind
  | query _ kind _ => cases kind.symm.trans hkind

theorem exists_of_populate_form_error (hsound : t.Sound) (hkind : r.kind = .form) {e : ParseError}
    (h : t.populate r args = .error e) :
    ∃ path target, (Role.nested t).Reaches path target ∧ target.Fails (.ofForm r) e := by
  unfold populate at h
  rw [hkind] at h
  dsimp only at h
  split at h
  . cases h
  . exact hsound.exists_of_bind_error h

/--
What a form request gives to a name, wherever binding comes to. A field takes the values of the form, and those of
the query only if the form has none. A dictionary and a JSON object take the last value of all, which is that of
the query if there is one. Population fails only where values that were chosen so do not convert.
-/
theorem populate_form (hsound : t.Sound) (hkind : r.kind = .form) (args : List String) :
    let values name := if r.formValues name = [] then r.queryValues name else r.formValues name
    let last name := (r.formValues name ++ r.queryValues name).getLast?
    (∀ d, t.populate r args = .ok d →
      (∀ path vt name keep, (Role.nested t).Reaches path (.bound vt name keep) → values name ≠ [] →
        ∃ v, vt.ofValues (values name) = .ok v ∧ d.at? path = some v) ∧
      (∀ path, (Role.nested t).Reaches path (.nested .dictionary) →
        ∃ entries, d.at? path = some (.dictionary entries) ∧ ∀ name, entries.lookup name = last name) ∧
      (∀ path, (Role.nested t).Reaches path (.nested .json) →
        ∃ fields, d.at? path = some (.json (.object fields)) ∧ ∀ name, fields.lookup name = (last name).map .text)) ∧
    (∀ e, t.populate r args = .error e →
      ∃ path target, (Role.nested t).Reaches path target ∧ target.Fails (.ofForm r) e) := by
  intro values last
  constructor
  . intro d h
    refine ⟨?_, ?_, ?_⟩
    . intro path vt name keep hreach hvalues
      obtain ⟨before, after, hafter, hat⟩ := hsound.rebind_of_populate_form hkind h hreach nofun nofun
      exact ⟨after, Role.ofValues_of_rebind hvalues hafter, hat⟩
    . intro path hreach
      obtain ⟨before, after, hafter, hat⟩ := hsound.rebind_of_populate_form hkind h hreach nofun nofun
      obtain ⟨entries, rfl, hentries⟩ := Role.lookup_of_rebind_dictionary hafter
      refine ⟨entries, hat, ?_⟩
      intro name
      rw [hentries, valuesOf_pairs_ofForm]
    . intro path hreach
      obtain ⟨before, after, hafter, hat⟩ := hsound.rebind_of_populate_form hkind h hreach nofun nofun
      obtain ⟨fields, rfl, hfields⟩ := Role.lookup_of_rebind_json hafter
      refine ⟨fields, hat, ?_⟩
      intro name
      rw [hfields, valuesOf_pairs_ofForm]
  . intro e h
    exact hsound.exists_of_populate_form_error hkind h

end ParamType.Sound

/-- Some tags, and all that is sent. -/
def tagged : ParamType :=
  .record ⟨"Tagged", "Tagged", true⟩
    [⟨"tags", .bound (.list (.scalar .text)) "tags" false, none, true, .list []⟩,
      ⟨"all", .nested .dictionary, none, true, .dictionary []⟩]

theorem sound_tagged : tagged.Sound := by
  apply ParamType.Sound.record
  . constructor
    . decide
    . simp
    . simp only [List.forall_mem_cons, reduceCtorEq, Role.nested.injEq]
      exact ⟨nofun, by rintro _ rfl; exact .dictionary _, nofun⟩
  . simp only [List.forall_mem_cons, reduceCtorEq, Role.nested.injEq]
    exact ⟨nofun, by rintro _ rfl; exact .dictionary, nofun⟩

theorem bind_tagged {source : Source} (h : source.values "tags" = ["a", "b"]) :
    tagged.bind source (tagged.withCaptures [] tagged.initial)
      =
    .ok (.record [("tags", .ofTexts ["a", "b"]), ("all", .dictionary (Json.sortFields source.pairs))]) := by
  have hstart : tagged.withCaptures [] tagged.initial = .record [("tags", .list []), ("all", .dictionary [])] := rfl
  rw [hstart, tagged, ParamType.bind]
  simp only [bindFields, bindField, bindValue, h]
  rfl

theorem populate_form_tagged :
    let r := (Request.ofUri ⟨"POST"⟩ "/?tags=c&x=query").withForm [("tags", "a"), ("tags", "b"), ("x", "form")]
    ∃ d, tagged.populate r [] = .ok d ∧ d.at? ["tags"] = some (.ofTexts ["a", "b"]) ∧
      ∃ all, d.at? ["all"] = some (.dictionary all) ∧ all.lookup "x" = some "query" := by
  intro r
  have hcontent : ((Request.ofUri ⟨"POST"⟩ "/?tags=c&x=query").withHeader Http.HeaderName.contentType.text
      Http.urlencodedType).contentType? = some Http.urlencodedType := by decide +kernel
  have hkind : r.kind = .form := Request.kind_withForm hcontent _
  have hr := Request.withForm_eq hcontent [("tags", "a"), ("tags", "b"), ("x", "form")]
  have htags : r.formValues "tags" = ["a", "b"] := by
    rw [show r = _ from hr]
    decide +kernel
  have hx : r.formValues "x" ++ r.queryValues "x" = ["form", "query"] := by
    rw [show r = _ from hr]
    decide +kernel
  have hsource : (Source.ofForm r).values "tags" = ["a", "b"] := by
    change (if r.formValues "tags" = [] then r.queryValues "tags" else r.formValues "tags") = _
    rw [htags]
    rfl
  have hpopulate := ParamType.populate_eq_ok_iff.2 (.form rfl hkind (bind_tagged hsource))
  obtain ⟨hbound, hdictionary, -⟩ := (sound_tagged.populate_form hkind []).1 _ hpopulate
  obtain ⟨all, hall, hlookup⟩ := hdictionary ["all"] (.there (.tail _ (.head _)) (by decide) (.here _))
  have htagsReached := hbound ["tags"] _ "tags" _ (.there (.head _) (by decide) (.here _))
  simp only [htags] at htagsReached
  obtain ⟨v, hv, hat⟩ := htagsReached (List.cons_ne_nil _ _)
  cases hv
  refine ⟨_, hpopulate, hat, all, hall, ?_⟩
  simp [hlookup, hx]

/-- The last value of a name is that of the query. -/
theorem populate_dictionary_form :
    let r := (Request.ofUri ⟨"POST"⟩ "/?a=query").withForm [("a", "form")]
    r.kind = .form ∧ r.formValues "a" = ["form"] ∧
      ParamType.dictionary.populate r [] = .ok (.dictionary [("a", "query")]) := by
  intro r
  have hcontent : ((Request.ofUri ⟨"POST"⟩ "/?a=query").withHeader Http.HeaderName.contentType.text
      Http.urlencodedType).contentType? = some Http.urlencodedType := by decide +kernel
  have hkind : r.kind = .form := Request.kind_withForm hcontent _
  have hr := Request.withForm_eq hcontent [("a", "form")]
  have hform : r.formValues "a" = ["form"] := by
    rw [show r = _ from hr]
    decide +kernel
  have hpairs : (Source.ofForm r).pairs = [("a", "form"), ("a", "query")] := by
    rw [show r = _ from hr]
    decide +kernel
  refine ⟨hkind, hform, ?_⟩
  rw [ParamType.populate_eq_ok_iff]
  refine .form (by decide) hkind ?_
  rw [ParamType.bind, hpairs]
  rfl

end Signpost.Binding
