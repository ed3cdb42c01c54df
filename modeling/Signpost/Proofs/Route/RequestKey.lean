import Signpost.Http.Request
import Signpost.Proofs.Route.Reach

/-!
This module contains what the key of a request tells: its method, but for the case of the letters, and the segments
of its target before the query. The target of a request, the path that the request keeps and a written route without
parameters are taken apart on their own and agree on the key.
-/

namespace Signpost.Route

variable {method other : String}

/-! ## Keys that are derived on their own -/

theorem path_ofUri (m : Http.Method) (uri : String) :
    (Http.Request.ofUri m uri).path = if beforeQuery uri = "" then "/" else beforeQuery uri := by
  unfold Http.Request.ofUri
  rw [← getD_fst_splitOnce]
  cases Text.splitOnce '?' uri <;> rfl

/-- The slash that stands for an empty path has no segments either. -/
theorem segments_path_ofUri (m : Http.Method) (uri : String) :
    segments (beforeQuery (Http.Request.ofUri m uri).path) = segments (beforeQuery uri) := by
  rw [path_ofUri]
  split
  . next hempty =>
    rw [hempty]
    decide +kernel
  . rw [beforeQuery_of_notMem (notMem_beforeQuery uri)]

theorem routeKey_eq_requestKey {path wildcard : String} (hquery : '?' ∉ path.toList)
    (hparameters : ∀ marking name, (Item.parameter marking name).text ∉ segments path) (method : String) :
    routeKey method path wildcard = requestKey method path := by
  have hliteral : ∀ s ∈ segments path, (if isParameter s then wildcard else s) = s := by
    intro s hs
    apply if_neg
    intro hparameter
    obtain ⟨marking, name, rfl⟩ := Item.exists_of_isParameter hparameter
    exact hparameters marking name hs
  unfold routeKey
  rw [requestKey_eq, beforeQuery_of_notMem hquery, List.map_congr_left hliteral, List.map_id']

/-! ## What a key tells -/

theorem requestKey_inj (hmethod : Http.isToken method = true) (hother : Http.isToken other = true)
    (path path' : String) :
    requestKey method path = requestKey other path' ↔
      method.toLower = other.toLower ∧ segments (beforeQuery path) = segments (beforeQuery path') := by
  have hpieces : ∀ {m : String}, Http.isToken m = true → ∀ p, ∀ s ∈ m.toLower :: segments p, IsSegment s := by
    intro m hm p
    rw [List.forall_mem_cons]
    exact ⟨isSegment_toLower_of_isToken hm, fun s hs => isSegment_of_mem_segments hs⟩
  rw [requestKey_eq, requestKey_eq, joinPath_inj (hpieces hmethod _) (hpieces hother _), List.cons.injEq]

/--
Two requests have the same key exactly if their methods are spelled with the same letters, in whatever case, and
their targets have the same segments before the query. These are the segments of the key. The path that a request
keeps leads to the key of its target, and so does a written route without a question mark and without parameters.
-/
theorem requestKey_identifies (hmethod : Http.isToken method = true) :
    (∀ other, Http.isToken other = true → ∀ path path',
      requestKey method path = requestKey other path' ↔
        method.toLower = other.toLower ∧ segments (beforeQuery path) = segments (beforeQuery path')) ∧
    (∀ path, segments (requestKey method path) = method.toLower :: segments (beforeQuery path)) ∧
    (∀ uri, requestKey method (Http.Request.ofUri ⟨method⟩ uri).path = requestKey method uri) ∧
    ∀ path wildcard, '?' ∉ path.toList →
      (∀ marking name, (Item.parameter marking name).text ∉ segments path) →
        routeKey method path wildcard = requestKey method path := by
  refine ⟨?_, ?_, ?_, ?_⟩
  . intro other hother
    exact requestKey_inj hmethod hother
  . intro path
    rw [requestKey_eq]
    exact Table.segments_requestKey (isSegment_toLower_of_isToken hmethod) _
  . intro uri
    rw [requestKey_eq, requestKey_eq, segments_path_ofUri]
  . intro path wildcard hquery hparameters
    exact routeKey_eq_requestKey hquery hparameters method

/-- Slashes too many, the query and the case of the method are no part of the key, and the segments are. -/
theorem requestKey_identifies_user :
    Http.isToken "GET" = true ∧ Http.isToken "Get" = true ∧
    requestKey "GET" "//user/42/?sort=name" = requestKey "Get" "user/42" ∧
    requestKey "GET" "/user/42" ≠ requestKey "Get" "/user42" ∧
    segments (requestKey "GET" "/user/42/") = ["get", "user", "42"] ∧
    requestKey "GET" (Http.Request.ofUri ⟨"GET"⟩ "?sort=name").path = requestKey "GET" "?sort=name" ∧
    routeKey "GET" "/user/42" "*" = requestKey "GET" "/user/42" := by
  have hget : Http.isToken "GET" = true := by decide
  have hmixed : Http.isToken "Get" = true := by decide
  have hlower : "GET".toLower = "get" ∧ "Get".toLower = "get" := by decide +kernel
  have hliteral : ∀ s ∈ segments "/user/42", isParameter s = false := by decide +kernel
  obtain ⟨hkeys, hsegments, hstored, hroute⟩ := requestKey_identifies hget
  refine ⟨hget, hmixed, ?_, ?_, ?_, hstored _, hroute _ _ (by decide) ?_⟩
  . rw [hkeys _ hmixed, hlower.1, hlower.2]
    decide +kernel
  . rw [ne_eq, hkeys _ hmixed, hlower.1, hlower.2]
    decide +kernel
  . rw [hsegments, hlower.1]
    decide +kernel
  . intro marking name hmem
    exact absurd (Item.isParameter_text marking name) (Bool.eq_false_iff.1 (hliteral _ hmem))

end Signpost.Route
