import Signpost.Proofs.Pipeline.Registration
import Signpost.Proofs.Route.Latest

/-!
This module contains the account that the registration of a controller gives of its endpoints. What becomes of
an endpoint does not depend on the table, so each meets a verdict of its own, and the table is the old one with the
records of the admitted endpoints added in order.
-/

namespace Signpost.Pipeline

open Route (Change Key Table)

namespace Registry

/-- The key of an endpoint: that of its written route, or what is made of its name. -/
inductive Keyed (r : Registry σ) (wildcard : String) (offer : Offer σ) : String → Prop
  | written (route : offer.route = some ⟨method, path⟩) :
    Keyed r wildcard offer (Route.routeKey method.token path wildcard)
  | named {key : String} (unwritten : offer.route = none) (named : r.naming offer.name = .ok key) :
    Keyed r wildcard offer key

/-- What becomes of an endpoint: the first check that it fails, or its key and its record if it fails none. -/
inductive Verdict (r : Registry σ) (wildcard : String) (hooks : Hooks σ) (offer : Offer σ) :
    Except RegistrationError (String × Record σ) → Prop
  | hookName (isHook : "Hook".toList <:+: offer.name.toList) :
    Verdict r wildcard hooks offer (.error (.hookName offer.name))
  | naming (notHook : ¬"Hook".toList <:+: offer.name.toList) (unwritten : offer.route = none)
    (unnamed : r.naming offer.name = .error e) : Verdict r wildcard hooks offer (.error (.naming e))
  | signature {key : String} (notHook : ¬"Hook".toList <:+: offer.name.toList) (keyed : r.Keyed wildcard offer key)
    (unsupported : offer.signature.classify = .error e) :
    Verdict r wildcard hooks offer (.error (.signature offer.name e))
  | route {key : String} (notHook : ¬"Hook".toList <:+: offer.name.toList) (keyed : r.Keyed wildcard offer key)
    (supported : offer.signature.classify = .ok convention) (isBare : Route.segments key = []) :
    Verdict r wildcard hooks offer (.error (.route ⟨key⟩))
  | admitted {key : String} (notHook : ¬"Hook".toList <:+: offer.name.toList) (keyed : r.Keyed wildcard offer key)
    (supported : offer.signature.classify = .ok convention) (hasSegments : Route.segments key ≠ []) :
    Verdict r wildcard hooks offer (.ok (key, ⟨offer.name, offer.call, offer.signature, convention, hooks⟩))

/--
Endpoints with an account of them: the keys and the records of those that are admitted, and the names of the others
with the reasons, both in the order of the endpoints.
-/
inductive Accounts (r : Registry σ) (wildcard : String) (hooks : Hooks σ) :
    List (Offer σ) → List (String × Record σ) → List (String × RegistrationError) → Prop
  | nil : Accounts r wildcard hooks [] [] []
  | admitted (verdict : r.Verdict wildcard hooks offer (.ok entry))
    (rest : Accounts r wildcard hooks offers entries skipped) :
    Accounts r wildcard hooks (offer :: offers) (entry :: entries) skipped
  | skipped (verdict : r.Verdict wildcard hooks offer (.error e))
    (rest : Accounts r wildcard hooks offers entries skipped) :
    Accounts r wildcard hooks (offer :: offers) entries ((offer.name, e) :: skipped)

section
variable {r : Registry σ} {wildcard : String} {hooks : Hooks σ} {offer : Offer σ} {offers : List (Offer σ)}
  {entries : List (String × Record σ)} {skipped : List (String × RegistrationError)}

theorem Keyed.key_eq {key : String} (h : r.Keyed wildcard offer key)
    (hname : ¬"Hook".toList <:+: offer.name.toList) : r.key wildcard offer = .ok key := by
  cases h with
  | written route => exact key_of_route route hname r wildcard
  | named unwritten named =>
    rw [key_of_unwritten unwritten hname, named]
    rfl

/-- Every endpoint meets a verdict, whatever the table holds. -/
theorem exists_verdict (r : Registry σ) (wildcard : String) (hooks : Hooks σ) (offer : Offer σ) :
    ∃ result, r.Verdict wildcard hooks offer result := by
  by_cases hname : "Hook".toList <:+: offer.name.toList
  . exact ⟨_, .hookName hname⟩
  have hrest : ∀ key, r.Keyed wildcard offer key → ∃ result, r.Verdict wildcard hooks offer result := by
    intro key hkeyed
    cases hclassify : offer.signature.classify with
    | error e => exact ⟨_, .signature hname hkeyed hclassify⟩
    | ok convention =>
      by_cases hsegments : Route.segments key = []
      . exact ⟨_, .route hname hkeyed hclassify hsegments⟩
      . exact ⟨_, .admitted hname hkeyed hclassify hsegments⟩
  cases hroute : offer.route with
  | some route => exact hrest _ (.written hroute)
  | none =>
    cases hnaming : r.naming offer.name with
    | error e => exact ⟨_, .naming hname hroute hnaming⟩
    | ok key => exact hrest key (.named hroute hnaming)

/-- The table decides nothing about an endpoint, it only takes its record. -/
theorem Verdict.registerOffer_eq {t : Table (Record σ)} {result : Except RegistrationError (String × Record σ)}
    (h : r.Verdict t.wildcard hooks offer result) :
    r.registerOffer t offer hooks = result.map fun (key, record) => (key, t.change (.add key record)) := by
  cases h with
  | hookName isHook => exact registerOffer_of_hookWord isHook r t hooks
  | naming notHook unwritten unnamed =>
    unfold registerOffer
    rw [key_of_unwritten unwritten notHook, unnamed]
    rfl
  | signature notHook keyed unsupported =>
    unfold registerOffer Offer.record
    rw [keyed.key_eq notHook, unsupported]
    rfl
  | route notHook keyed supported isBare =>
    unfold registerOffer
    rw [keyed.key_eq notHook, Offer.record_of_classify supported]
    simp only [bind, Except.bind, Except.mapError, Table.add_of_eq_nil t isBare, Except.map]
  | admitted notHook keyed supported hasSegments =>
    unfold registerOffer
    rw [keyed.key_eq notHook, Offer.record_of_classify supported]
    simp only [bind, Except.bind, Except.mapError, Table.add_of_ne_nil t hasSegments, pure, Except.pure, Except.map,
      Table.change_add, if_neg hasSegments]

/-- Every endpoint is in the account once. -/
theorem Accounts.length_add_length (h : r.Accounts wildcard hooks offers entries skipped) :
    entries.length + skipped.length = offers.length := by
  induction h with
  | nil => rfl
  | admitted _ _ ih =>
    rw [List.length_cons, List.length_cons, ← ih]
    omega
  | skipped _ _ ih =>
    rw [List.length_cons, List.length_cons, ← ih]
    omega

theorem Accounts.exists_of_mem (h : r.Accounts wildcard hooks offers entries skipped) {entry : String × Record σ}
    (hentry : entry ∈ entries) : ∃ offer ∈ offers, r.Verdict wildcard hooks offer (.ok entry) := by
  induction h with
  | nil => cases hentry
  | @admitted offer first offers entries skipped verdict rest ih =>
    cases hentry with
    | head => exact ⟨offer, List.mem_cons_self, verdict⟩
    | tail _ hmem =>
      obtain ⟨offer, hoffer, hverdict⟩ := ih hmem
      exact ⟨offer, List.mem_cons_of_mem _ hoffer, hverdict⟩
  | skipped _ _ ih =>
    obtain ⟨offer, hoffer, hverdict⟩ := ih hentry
    exact ⟨offer, List.mem_cons_of_mem _ hoffer, hverdict⟩

theorem Accounts.exists_of_mem_skipped (h : r.Accounts wildcard hooks offers entries skipped)
    {reason : String × RegistrationError} (hreason : reason ∈ skipped) :
    ∃ offer ∈ offers, reason.1 = offer.name ∧ r.Verdict wildcard hooks offer (.error reason.2) := by
  induction h with
  | nil => cases hreason
  | admitted _ _ ih =>
    obtain ⟨offer, hoffer, hverdict⟩ := ih hreason
    exact ⟨offer, List.mem_cons_of_mem _ hoffer, hverdict⟩
  | @skipped offer e offers entries skipped verdict rest ih =>
    cases hreason with
    | head => exact ⟨offer, List.mem_cons_self, rfl, verdict⟩
    | tail _ hmem =>
      obtain ⟨offer, hoffer, hverdict⟩ := ih hmem
      exact ⟨offer, List.mem_cons_of_mem _ hoffer, hverdict⟩

theorem Verdict.hasSegments {entry : String × Record σ} (h : r.Verdict wildcard hooks offer (.ok entry)) :
    Route.segments entry.1 ≠ [] := by
  cases h with
  | admitted _ _ _ hasSegments => exact hasSegments

theorem Verdict.hooks_eq {entry : String × Record σ} (h : r.Verdict wildcard hooks offer (.ok entry)) :
    entry.2.hooks = hooks := by
  cases h with
  | admitted => rfl

/-- A run over the endpoints reports each of them once and adds the admitted ones in order. -/
theorem exists_registerAll (r : Registry σ) (hooks : Hooks σ) (offers : List (Offer σ)) (t : Table (Record σ)) :
    ∃ entries skipped, r.Accounts t.wildcard hooks offers entries skipped ∧
      r.registerAll hooks offers t
        = (⟨entries.map (·.1), skipped⟩, (Change.adds entries).foldl Table.change t) := by
  induction offers generalizing t with
  | nil => exact ⟨[], [], .nil, rfl⟩
  | cons offer offers ih =>
    obtain ⟨result, hverdict⟩ := exists_verdict r t.wildcard hooks offer
    rw [registerAll, hverdict.registerOffer_eq]
    cases result with
    | ok entry =>
      -- an addition keeps the wildcard, so the endpoints that follow meet the same verdicts
      have hwildcard : (t.change (.add entry.1 entry.2)).wildcard = t.wildcard := by
        rw [Table.change_add]
        split
        . rfl
        . cases Key.ofText t.wildcard entry.1 <;> rfl
      obtain ⟨entries, skipped, haccounts, hregister⟩ := ih (t.change (.add entry.1 entry.2))
      rw [hwildcard] at haccounts
      refine ⟨entry :: entries, skipped, .admitted hverdict haccounts, ?_⟩
      simp only [Except.map, hregister]
      rfl
    | error e =>
      obtain ⟨entries, skipped, haccounts, hregister⟩ := ih t
      refine ⟨entries, (offer.name, e) :: skipped, .skipped hverdict haccounts, ?_⟩
      simp only [Except.map, hregister]

end

/-- The hooks of a registry are those that it was given, in the order in which it was given them. -/
theorem foldl_withHooks (r : Registry σ) (batches : List (Hooks σ)) :
    batches.foldl withHooks r
      =
    ⟨r.naming, ⟨r.hooks.pre ++ batches.flatMap Hooks.pre, r.hooks.param ++ batches.flatMap Hooks.param,
      r.hooks.result ++ batches.flatMap Hooks.result⟩⟩ := by
  induction batches generalizing r with
  | nil => simp
  | cons batch batches ih =>
    rw [List.foldl_cons, ih]
    simp [withHooks, Hooks.append]

/--
Each endpoint of a controller is in the report once, with its key if it is registered and with its name and
the reason if not, both in order. A reason is the first check that fails for the endpoint, and an endpoint that fails
none is registered. The table has changed only by the records of the registered ones, which were added in order. Each
of their keys finds the record of the last endpoint under this key, and each of their records has the hooks of the
controller and then those that the registry was given.
-/
theorem register_accounts (naming : String → Except Route.NameError String) (batches : List (Hooks σ))
    (wildcard : String) (changes : List (Change (Record σ))) (controller : Controller σ) :
    let r : Registry σ := batches.foldl withHooks ⟨naming, .empty⟩
    let hooks := controller.hooks.append r.hooks
    let (report, t) := r.register (.ofChanges wildcard changes) controller
    ∃ admitted, r.Accounts wildcard hooks controller.offers admitted report.skipped ∧
      report.registered = admitted.map (·.1) ∧
      report.registered.length + report.skipped.length = controller.offers.length ∧
      t = .ofChanges wildcard (changes ++ Change.adds admitted) ∧
      (∀ skipped ∈ report.skipped, ∃ offer ∈ controller.offers,
        skipped.1 = offer.name ∧ r.Verdict wildcard hooks offer (.error skipped.2)) ∧
      (∀ key ∈ report.registered, ∃ before last after, admitted = before ++ last :: after ∧
        Key.ofText wildcard last.1 = .ofText wildcard key ∧
        (∀ later ∈ after, Key.ofText wildcard later.1 ≠ .ofText wildcard key) ∧
        t.find? key = some ⟨last.2, []⟩) ∧
      ∀ entry ∈ admitted,
        entry.2.hooks.pre = controller.hooks.pre ++ batches.flatMap Hooks.pre ∧
        entry.2.hooks.param = controller.hooks.param ++ batches.flatMap Hooks.param ∧
        entry.2.hooks.result = controller.hooks.result ++ batches.flatMap Hooks.result := by
  intro r hooks
  have hwildcard : (Table.ofChanges wildcard changes).wildcard = wildcard :=
    (Table.keeps_ofChanges wildcard changes).wildcard
  obtain ⟨admitted, skipped, haccounts, hregister⟩ :=
    exists_registerAll r hooks controller.offers (.ofChanges wildcard changes)
  rw [hwildcard] at haccounts
  have hregister : r.register (.ofChanges wildcard changes) controller
      = (⟨admitted.map (·.1), skipped⟩, .ofChanges wildcard (changes ++ Change.adds admitted)) := by
    unfold register
    rw [hregister]
    unfold Table.ofChanges
    rw [List.foldl_append]
  rw [hregister]
  refine ⟨admitted, haccounts, rfl, ?_, rfl, fun _ => haccounts.exists_of_mem_skipped, ?_, ?_⟩
  . rw [List.length_map]
    exact haccounts.length_add_length
  . intro key hkey
    rw [List.mem_map] at hkey
    obtain ⟨entry, hentry, rfl⟩ := hkey
    -- a later endpoint may have replaced the record of this one, but its own key finds the last of them
    obtain ⟨before, last, after, hsplit, hlast, hafter⟩ := Route.exists_last ⟨entry, hentry, rfl⟩
    refine ⟨before, last, after, hsplit, hlast, hafter, ?_⟩
    have hmem : last ∈ admitted := by
      rw [hsplit]
      exact List.mem_append_right _ List.mem_cons_self
    obtain ⟨offer, _, hverdict⟩ := haccounts.exists_of_mem hmem
    rw [hsplit]
    rw [← hlast] at hafter
    exact Table.find?_ofChanges_adds changes hverdict.hasSegments hafter hlast.symm
  . intro entry hentry
    obtain ⟨offer, _, hverdict⟩ := haccounts.exists_of_mem hentry
    have hhooks : hooks = ⟨controller.hooks.pre ++ batches.flatMap Hooks.pre,
        controller.hooks.param ++ batches.flatMap Hooks.param,
        controller.hooks.result ++ batches.flatMap Hooks.result⟩ := by
      rw [show hooks = controller.hooks.append (batches.foldl withHooks ⟨naming, .empty⟩).hooks from rfl,
        foldl_withHooks]
      rfl
    rw [hverdict.hooks_eq, hhooks]
    exact ⟨rfl, rfl, rfl⟩

/-- Two endpoints of one key, of which the second is found, and three that fail a check each. -/
theorem register_accounts_overwritten :
    let controller : Controller Unit :=
      ⟨[.routed .get "/user" idle, .named "RunHook" idle, (Offer.routed .get "/user/" idle).withName "Second",
        .named "user" idle, .declared "GetBoth" ⟨[.context, .context], []⟩ fun _ => return .ok []], .empty⟩
    let registered := (Registry.ofWildcard "*").register (.ofChanges "*" []) controller
    registered.1.registered = ["get/user", "get/user"] ∧
      registered.1.skipped = [("RunHook", .hookName "RunHook"), ("user", .naming (.missingVerb "user")),
        ("GetBoth", .signature "GetBoth" (.duplicateParam "context"))] ∧
      registered.1.registered.length + registered.1.skipped.length = 5 ∧
      ∃ record, registered.2.find? "get/user" = some ⟨record, []⟩ ∧ record.name = "Second" := by
  intro controller registered
  obtain ⟨admitted, haccounts, hkeys, hlength, -, -, hfound, -⟩ :=
    register_accounts (Route.Naming.mk Route.Naming.defaultMarker "*").key [] "*" [] controller
  have hregistered : registered.1.registered = ["get/user", "get/user"] := by decide +kernel
  have hname : (registered.2.find? "get/user").map (·.value.name) = some "Second" := by decide +kernel
  have hmem : "get/user" ∈ registered.1.registered := by
    rw [hregistered]
    exact List.mem_cons_self
  obtain ⟨before, last, after, -, -, -, hlast⟩ := hfound "get/user" hmem
  refine ⟨hregistered, by decide +kernel, hlength, last.2, hlast, ?_⟩
  change registered.2.find? "get/user" = _ at hlast
  rw [hlast] at hname
  exact Option.some.inj hname

end Registry

end Signpost.Pipeline
