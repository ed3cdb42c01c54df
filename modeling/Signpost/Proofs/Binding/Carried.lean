import Signpost.Proofs.Binding.Precedence

/-!
This module contains the pairs that a request carries. What is bound depends on these pairs alone, and not on
whether they came in the query, in the form, or in the query of a form that has none.
-/

namespace Signpost.Binding

open Http (Method Request)

/-- The values of a list of pairs. -/
def Source.ofPairs (pairs : List (String × String)) : Source where
  values := Request.valuesOf pairs
  pairs := pairs

/-- The ways in which a request carries pairs. -/
inductive Carries (pairs : List (String × String)) (r : Request) : Prop where
  | query (kind : r.kind = .other) (query : r.query = pairs)
  | form (kind : r.kind = .form) (form : r.form = pairs) (query : r.query = [])
  | formQuery (kind : r.kind = .form) (form : r.form = []) (query : r.query = pairs)

section
variable {r : Request} {pairs : List (String × String)}

theorem Source.ofQuery_eq (h : r.query = pairs) : ofQuery r = ofPairs pairs := by
  unfold ofQuery ofPairs Request.queryValues
  rw [h]

/-- Without a query the values and the pairs are those of the form. -/
theorem Source.ofForm_eq_of_query (hform : r.form = pairs) (hquery : r.query = []) : ofForm r = ofPairs pairs := by
  unfold ofForm ofPairs Request.formValues Request.queryValues
  rw [hform, hquery, List.append_nil, Source.mk.injEq]
  refine ⟨?_, rfl⟩
  funext name
  have hnone : Request.valuesOf [] name = [] := rfl
  dsimp only
  split
  . next hempty => rw [hnone, hempty]
  . rfl

/-- Without a form the values and the pairs are those of the query. -/
theorem Source.ofForm_eq_of_form (hform : r.form = []) (hquery : r.query = pairs) : ofForm r = ofPairs pairs := by
  unfold ofForm ofPairs Request.formValues Request.queryValues
  rw [hform, hquery, List.nil_append, Source.mk.injEq]
  exact ⟨funext fun _ => if_pos rfl, rfl⟩

/-- What a parameter becomes is a matter of the captured segments and of the pairs. -/
theorem Carries.populate_eq (h : Carries pairs r) (t : ParamType) (args : List String) :
    t.populate r args
      =
    if t.isFilledBy args then .ok (t.withCaptures args t.initial)
    else t.bind (.ofPairs pairs) (t.withCaptures args t.initial) := by
  unfold ParamType.populate
  dsimp only
  cases h with
  | query kind query => rw [kind, Source.ofQuery_eq query]
  | form kind form query => rw [kind, Source.ofForm_eq_of_query form query]
  | formQuery kind form query => rw [kind, Source.ofForm_eq_of_form form query]

end

/-! ## Requests that are built with pairs -/

section
variable {path : String} (hpath : '?' ∉ path.toList) (method : Method) (pairs : List (String × String))

include hpath

theorem carries_ofUri : Carries pairs (.ofUri method (Request.uriWith path pairs)) :=
  .query (Request.kind_ofUri method _) (Request.query_ofUri_uriWith method hpath pairs)

theorem carries_withForm : Carries pairs ((Request.ofUri method path).withForm pairs) := by
  have hcontent := Request.contentType?_withHeader_ofUri method path
  refine .form (Request.kind_withForm hcontent pairs) (Request.form_withForm hcontent pairs) ?_
  rw [Request.query_withForm hcontent, Request.query_ofUri_of_notMem method hpath]

theorem carries_withForm_nil : Carries pairs ((Request.ofUri method (Request.uriWith path pairs)).withForm []) := by
  have hcontent := Request.contentType?_withHeader_ofUri method (Request.uriWith path pairs)
  refine .formQuery (Request.kind_withForm hcontent []) (Request.form_withForm hcontent []) ?_
  rw [Request.query_withForm hcontent, Request.query_ofUri_uriWith method hpath]

end

namespace ParamType

/--
Two requests that carry the same pairs populate a parameter with the same value or fail with the same error, each
of them in its own way.
-/
theorem populate_eq_of_carries {r other : Request} {pairs : List (String × String)} (hr : Carries pairs r)
    (hother : Carries pairs other) (t : ParamType) (args : List String) :
    t.populate r args = t.populate other args := by
  rw [hr.populate_eq, hother.populate_eq]

theorem populate_eq_of_carries_tagged :
    let pairs := [("tags", "a"), ("x", "1 & 2"), ("tags", "b")]
    ∃ d, tagged.populate (.ofUri ⟨"GET"⟩ (Request.uriWith "/" pairs)) [] = .ok d ∧
      tagged.populate ((Request.ofUri ⟨"POST"⟩ "/").withForm pairs) [] = .ok d ∧
      tagged.populate ((Request.ofUri ⟨"POST"⟩ (Request.uriWith "/" pairs)).withForm []) [] = .ok d ∧
      d.at? ["tags"] = some (.ofTexts ["a", "b"]) := by
  intro pairs
  have hpath : '?' ∉ "/".toList := by decide
  have hquery := carries_ofUri hpath ⟨"GET"⟩ pairs
  have hform := carries_withForm hpath ⟨"POST"⟩ pairs
  have hboth := carries_withForm_nil hpath ⟨"POST"⟩ pairs
  have hvalue := hquery.populate_eq tagged []
  rw [if_neg (by decide), bind_tagged rfl] at hvalue
  refine ⟨_, hvalue, ?_, ?_, rfl⟩
  . rw [populate_eq_of_carries hform hquery]
    exact hvalue
  . rw [populate_eq_of_carries hboth hquery]
    exact hvalue

end ParamType

end Signpost.Binding
