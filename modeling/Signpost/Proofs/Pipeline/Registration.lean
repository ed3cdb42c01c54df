import Signpost.Pipeline.Registry
import Signpost.Proofs.Route.Written

/-!
This module contains the registration of endpoints with written routes: when it succeeds, what it stores, and
which requests are led to an endpoint that is registered in an empty table.
-/

namespace Signpost.Pipeline

open Endpoint
open Route (Item Key Table)

theorem Offer.record_of_classify {offer : Offer σ} (h : offer.signature.classify = .ok convention)
    (hooks : Hooks σ) :
    offer.record hooks = .ok ⟨offer.name, offer.call, offer.signature, convention, hooks⟩ := by
  unfold Offer.record
  rw [h]
  rfl

theorem Offer.exists_of_record {offer : Offer σ} {record : Record σ} (h : offer.record hooks = .ok record) :
    ∃ convention, offer.signature.classify = .ok convention ∧
      record = ⟨offer.name, offer.call, offer.signature, convention, hooks⟩ := by
  unfold Offer.record at h
  cases hclassify : offer.signature.classify with
  | error e =>
    rw [hclassify] at h
    cases h
  | ok convention =>
    rw [hclassify] at h
    cases h
    exact ⟨convention, rfl, rfl⟩

namespace Registry

section
variable {offer : Offer σ} {method : Http.Method} {path : String} {convention : Convention}

theorem key_of_hookWord (h : hookWord.toList <:+: offer.name.toList) (r : Registry σ) (wildcard : String) :
    r.key wildcard offer = .error (.hookName offer.name) := by
  unfold key
  rw [if_pos (Text.occursIn_iff.2 h)]

theorem key_of_route (hroute : offer.route = some ⟨method, path⟩) (h : ¬hookWord.toList <:+: offer.name.toList)
    (r : Registry σ) (wildcard : String) :
    r.key wildcard offer = .ok (Route.routeKey method.token path wildcard) := by
  unfold key
  rw [if_neg (fun hoccurs => h (Text.occursIn_iff.1 hoccurs)), hroute]

theorem key_of_unwritten (hroute : offer.route = none) (h : ¬hookWord.toList <:+: offer.name.toList)
    (r : Registry σ) (wildcard : String) :
    r.key wildcard offer = (r.naming offer.name).mapError .naming := by
  unfold key
  rw [if_neg (fun hoccurs => h (Text.occursIn_iff.1 hoccurs)), hroute]

theorem segments_routeKey_ne_nil (hmethod : Http.isToken method.token = true) (path wildcard : String) :
    Route.segments (Route.routeKey method.token path wildcard) ≠ [] := by
  unfold Route.routeKey
  rw [Route.segments_joinPath_cons (Route.isSegment_toLower_of_isToken hmethod)]
  exact List.cons_ne_nil _ _

theorem registerOffer_of_hookWord (h : hookWord.toList <:+: offer.name.toList) (r : Registry σ)
    (t : Table (Record σ)) (hooks : Hooks σ) :
    r.registerOffer t offer hooks = .error (.hookName offer.name) := by
  unfold registerOffer
  rw [key_of_hookWord h]
  rfl

theorem registerOffer_of_route (hroute : offer.route = some ⟨method, path⟩)
    (hmethod : Http.isToken method.token = true) (hsignature : offer.signature.classify = .ok convention)
    (h : ¬hookWord.toList <:+: offer.name.toList) (r : Registry σ) (t : Table (Record σ)) (hooks : Hooks σ) :
    let key := Route.routeKey method.token path t.wildcard
    r.registerOffer t offer hooks
      =
    .ok (key, t.enter (.ofText t.wildcard key)
      ⟨offer.name, offer.call, offer.signature, convention, hooks⟩) := by
  have hsegments := segments_routeKey_ne_nil hmethod path t.wildcard
  unfold registerOffer
  rw [key_of_route hroute h, Offer.record_of_classify hsignature]
  simp only [bind, Except.bind, Except.mapError, Table.add_of_ne_nil t hsegments, pure, Except.pure]

/--
An endpoint with a written route is stored under the key of its route, in whatever table, unless its method or
its path has the word that marks hooks. Then it is passed over, although its name was only made of the two.
-/
theorem registerOffer_routed (hroute : offer.route = some ⟨method, path⟩)
    (hname : offer.name = method.token ++ " " ++ path) (hmethod : Http.isToken method.token = true)
    (hsignature : offer.signature.classify = .ok convention) (r : Registry σ) (t : Table (Record σ))
    (hooks : Hooks σ) :
    let key := Route.routeKey method.token path t.wildcard
    let isMarked := hookWord.toList <:+: method.token.toList ∨ hookWord.toList <:+: path.toList
    (isMarked → r.registerOffer t offer hooks = .error (.hookName offer.name)) ∧
      (¬isMarked → ∃ t', r.registerOffer t offer hooks = .ok (key, t') ∧ t'.wildcard = t.wildcard ∧
        ∀ other, t'.stored other
          =
        if other = .ofText t.wildcard key then
          some ⟨offer.name, offer.call, offer.signature, convention, hooks⟩
        else
          t.stored other) := by
  intro key isMarked
  have hmarked : hookWord.toList <:+: offer.name.toList ↔ isMarked := by
    have hlist : offer.name.toList = method.token.toList ++ ' ' :: path.toList := by simp [hname]
    rw [hlist, Text.infix_append_cons_iff (by decide)]
  rw [← hmarked]
  constructor
  . intro h
    exact registerOffer_of_hookWord h r t hooks
  . intro h
    refine ⟨_, registerOffer_of_route hroute hmethod hsignature h r t hooks, ?_, Table.stored_enter t _ _⟩
    cases Key.ofText t.wildcard key <;> rfl

/-- A handler that does nothing. -/
def idle : Handler Unit where
  params := .none
  form := .unit
  body := (pure () : Code Unit Unit)

theorem idle_classify : idle.signature.classify = .ok ⟨.none, .none⟩ :=
  rfl

theorem registerOffer_routed_user :
    ∃ t, (Registry.ofWildcard "*").registerOffer (.empty "*") (.routed .get "/user/\x7bid\x7d" idle) .empty
        = .ok ("get/user/*", t) ∧
      t.stored (.pattern ["get", "user", "*"])
        = some ⟨"GET /user/\x7bid\x7d", idle.call, idle.signature, ⟨.none, .none⟩, .empty⟩ := by
  have hkey : Route.routeKey Http.Method.get.token "/user/\x7bid\x7d" (Table.empty "*" : Table (Record Unit)).wildcard
      = "get/user/*" := by decide +kernel
  have hpattern : Key.ofText (Table.empty "*" : Table (Record Unit)).wildcard "get/user/*"
      = .pattern ["get", "user", "*"] := by decide +kernel
  have hword : ¬(hookWord.toList <:+: Http.Method.get.token.toList ∨
      hookWord.toList <:+: "/user/\x7bid\x7d".toList) := by decide +kernel
  have hmethod : Http.isToken Http.Method.get.token = true := by decide +kernel
  have hroute : (Offer.routed .get "/user/\x7bid\x7d" idle).route = some ⟨.get, "/user/\x7bid\x7d"⟩ := rfl
  have hname : (Offer.routed .get "/user/\x7bid\x7d" idle).name = "GET /user/\x7bid\x7d" := by decide +kernel
  obtain ⟨t, hregister, -, hstored⟩ :=
    (registerOffer_routed hroute rfl hmethod idle_classify (Registry.ofWildcard "*") (.empty "*") .empty).2 hword
  rw [hkey] at hregister hstored
  refine ⟨t, hregister, ?_⟩
  rw [hstored, ← hpattern, if_pos rfl, hname]
  rfl

/-- The word that marks hooks can stand in a path. -/
theorem registerOffer_path_with_hookWord :
    (Registry.ofWildcard "*").registerOffer (.empty "*") (.routed .get "/Hook/x" idle) .empty
        = .error (.hookName "GET /Hook/x") ∧
      (Offer.routed .get "/Hook/x" idle).signature.classify = .ok ⟨.none, .none⟩ :=
  ⟨registerOffer_of_hookWord (by decide +kernel) _ _ _, rfl⟩

/-! ## Requests for the route of an endpoint -/

/--
The one endpoint of a table is found under every path in which values stand for the parameters of its route,
with any slashes too many and with any query, and it is given the values. Under a path of another length or
with another literal nothing is found.
-/
theorem match?_registerOffer {items : List Item} {wildcard : String} (hwildcard : Route.IsSegment wildcard)
    (hitems : ∀ item ∈ items, item.Fits wildcard) (hpath : Route.segments path = items.map Item.text)
    (hroute : offer.route = some ⟨method, path⟩) (hname : ¬hookWord.toList <:+: offer.name.toList)
    (hmethod : Http.isToken method.token = true) (hsignature : offer.signature.classify = .ok convention)
    (r : Registry σ) (hooks : Hooks σ) :
    ∃ key t, r.registerOffer (.empty wildcard) offer hooks = .ok (key, t) ∧
      (∀ values pieces suffix, values.length = items.countP Item.isParameter →
        (∀ v ∈ values, Route.IsSegment v ∧ '?' ∉ v.toList ∧ v ≠ wildcard) →
        pieces.filter (· ≠ "") = Item.fillIn items values → Route.IsQuery suffix →
        t.match? method.token (Route.joinPath pieces ++ suffix)
          =
        some {
          value := ⟨offer.name, offer.call, offer.signature, convention, hooks⟩
          args := values
          key := Route.joinPath (method.token.toLower :: Item.fillIn items values)
        }) ∧
      (∀ target suffix, '?' ∉ target.toList → Route.IsQuery suffix →
        ¬Item.Agree items (Route.segments target) → t.match? method.token (target ++ suffix) = none) := by
  have hlower := Route.isSegment_toLower_of_isToken hmethod
  have hregister := registerOffer_of_route hroute hmethod hsignature hname r (.empty wildcard) hooks
  have hkey := Item.routeKey_eq hitems hpath method.token
  refine ⟨_, Table.single wildcard (.ofText wildcard _) _, hkey ▸ hregister, ?_, ?_⟩
  . intro values pieces suffix hlength hvalues hpieces hsuffix
    -- an empty piece has no character at all, and the others are literals and values
    have hpiece : ∀ s ∈ pieces, '/' ∉ s.toList ∧ '?' ∉ s.toList := by
      intro s hs
      by_cases hempty : s = ""
      . simp [hempty]
      . have hfill : s ∈ Item.fillIn items values := by
          rw [← hpieces, List.mem_filter]
          exact ⟨hs, by simpa using hempty⟩
        cases Item.mem_fillIn hlength hfill with
        | inl hliteral =>
          have hfits := hitems _ hliteral
          exact ⟨hfits.1.2, hfits.2.1⟩
        | inr hvalue =>
          have hvalue := hvalues s hvalue
          exact ⟨hvalue.1.2, hvalue.2.1⟩
    have hsegments : Route.segments (Route.joinPath pieces) = Item.fillIn items values := by
      rw [Route.segments_joinPath_filter fun s hs => (hpiece s hs).1, hpieces]
    have hquery := Route.notMem_joinPath (by decide) fun s hs => (hpiece s hs).2
    rw [Route.match?_append hquery hsuffix, hsegments, Table.find?_single_fillIn hwildcard hlower hitems hlength]
    . rfl
    . intro v hv
      exact ⟨(hvalues v hv).1, (hvalues v hv).2.2⟩
  . intro target suffix htarget hsuffix hagree
    rw [Route.match?_append htarget hsuffix, Option.map_eq_none_iff]
    apply Table.find?_single_of_not_agree hwildcard hlower hitems
    . intro s hs
      exact Route.isSegment_of_mem_segments hs
    . exact hagree

theorem match?_registerOffer_posts :
    ∃ key t,
      (Registry.ofWildcard "*").registerOffer (.empty "*") (.routed .get "/user/\x7bid\x7d/posts/:post" idle) .empty
        = .ok (key, t) ∧
      t.match? "GET" "//user/7/posts/a/?x=1"
        = some ⟨⟨⟨"GET /user/\x7bid\x7d/posts/:post", idle.call, idle.signature, ⟨.none, .none⟩, .empty⟩, ["7", "a"]⟩,
            "get/user/7/posts/a"⟩ ∧
      t.match? "GET" "/user/7/notes/a" = none := by
  let items : List Item :=
    [.literal "user", .parameter .braces "id", .literal "posts", .parameter .colon "post"]
  have hitems : ∀ item ∈ items, item.Fits "*" := by decide +kernel
  have hpath : Route.segments "/user/\x7bid\x7d/posts/:post" = items.map Item.text := by decide +kernel
  have hroute : (Offer.routed .get "/user/\x7bid\x7d/posts/:post" idle).route
      = some ⟨.get, "/user/\x7bid\x7d/posts/:post"⟩ := rfl
  obtain ⟨key, t, hregister, hhit, hmiss⟩ :=
    match?_registerOffer (by decide +kernel) hitems hpath hroute (by decide +kernel) (by decide +kernel)
      idle_classify (Registry.ofWildcard "*") .empty
  have hpieces : ["", "", "user", "7", "posts", "a", ""].filter (· ≠ "") = Item.fillIn items ["7", "a"] := by
    decide +kernel
  have htarget : Route.joinPath ["", "", "user", "7", "posts", "a", ""] ++ "?x=1" = "//user/7/posts/a/?x=1" := by
    decide +kernel
  have hkey : Route.joinPath (Http.Method.get.token.toLower :: Item.fillIn items ["7", "a"])
      = "get/user/7/posts/a" := by decide +kernel
  have hfound := hhit ["7", "a"] _ "?x=1" rfl (by decide +kernel) hpieces (.inr ⟨"x=1", rfl⟩)
  rw [htarget, hkey] at hfound
  have hnotes : ¬Item.Agree items (Route.segments "/user/7/notes/a") := by
    intro h
    exact absurd (h.2 2 "posts" rfl) (by decide +kernel)
  have hlost := hmiss "/user/7/notes/a" "" (by decide +kernel) (.inl rfl) hnotes
  exact ⟨key, t, hregister, hfound, hlost⟩

end

end Registry

end Signpost.Pipeline
