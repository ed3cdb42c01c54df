import Signpost.Proofs.Route.Families

/-!
This module contains runs of queries that clients put to one table. Clients that keep to families of their own get
the answers that they would get alone.
-/

namespace Signpost.Route

/-- A query to a table. -/
inductive Query (α : Type u) where
  | add (key : String) (value : α)
  | remove (path : String)
  | find (path : String)
  | contains (path : String)
  | startsWith (path : String)

/-- The path or the key that a query is about. -/
def Query.path : Query α → String
  | .add key _ => key
  | .remove path | .find path | .contains path | .startsWith path => path

/-- What is answered to a query. -/
inductive Answer (α : Type u) where
  | changed (previous : Except InvalidKey (Option α))
  | hit (hit : Option (Hit α))
  | told (yes : Bool)

/-- One of two clients. -/
inductive Client where
  | first
  | second
  deriving DecidableEq

namespace Table

def answer (t : Table α) : Query α → Answer α
  | .add key value => .changed ((t.add key value).map (·.1))
  | .remove path => .changed ((t.remove path).map (·.1))
  | .find path => .hit (t.find? path)
  | .contains path => .told (t.contains path)
  | .startsWith path => .told (t.startsWith path)

/-- The table after a query. -/
def after (t : Table α) : Query α → Table α
  | .add key value => t.change (.add key value)
  | .remove path => t.change (.remove path)
  | .find _ | .contains _ | .startsWith _ => t

/-- The answers to the queries of some clients, in the order in which they come. -/
def answers (t : Table α) : List (ι × Query α) → List (ι × Answer α)
  | [] => []
  | (client, query) :: moves => (client, t.answer query) :: (t.after query).answers moves

/-- The table after the queries of some clients. -/
def afterAll (t : Table α) (moves : List (ι × Query α)) : Table α :=
  moves.foldl (fun t move => t.after move.2) t

/-- The key that a query writes or takes out, with the value that it has afterwards. -/
def touched? (t : Table α) : Query α → Option (Key × Option α)
  | .add key value => if segments key = [] then none else some (.ofText t.wildcard key, some value)
  | .remove path => if segments path = [] then none else (t.target? path).map (·, none)
  | .find _ | .contains _ | .startsWith _ => none

/-- A query changes what is under the key that it touches, and nothing else. -/
theorem stored_after (t : Table α) (q : Query α) (key : Key) :
    (t.after q).stored key = ((t.touched? q).filter (·.1 = key)).elim (t.stored key) (·.2) := by
  cases q with
  | add text value =>
    rw [after, touched?, change_add]
    by_cases htext : segments text = []
    . rw [if_pos htext, if_pos htext]
      rfl
    . rw [if_neg htext, if_neg htext, stored_enter, Option.filter_some]
      by_cases hkey : key = .ofText t.wildcard text
      . simp [hkey]
      . simp [hkey, Ne.symm hkey]
  | remove path =>
    rw [after, touched?, change_remove]
    by_cases hpath : segments path = []
    . rw [if_pos hpath, if_pos hpath]
      rfl
    . rw [if_neg hpath, if_neg hpath]
      cases htarget : t.target? path with
      | none => rfl
      | some target =>
        obtain ⟨v, hv⟩ := Option.isSome_iff_exists.1 (isSome_stored_of_target? htarget)
        rw [Option.elim_some, stored_forget hv, Option.map_some, Option.filter_some]
        by_cases hkey : key = target
        . simp [hkey]
        . simp [hkey, Ne.symm hkey]
  | find path => rfl
  | contains path => rfl
  | startsWith path => rfl

section
variable {wildcard : String} {n : Nat} {leads leads' : List (List String)} {lead other : List String} {t t' : Table α}
  {q : Query α}

/-- A query only touches the family of its path. -/
theorem Covered.lead_of_touched? (h : t.Covered wildcard n leads) (hmem : lead ∈ leads) (hlead : lead ≠ [])
    (hq : lead <+: segments q.path) (htouched : t.touched? q = some (key, v)) : lead <+: key.segments := by
  cases q with
  | add text value =>
    rw [touched?] at htouched
    split at htouched
    . exact absurd htouched (by simp)
    . rw [Option.some.injEq, Prod.mk.injEq] at htouched
      rw [← htouched.1, Key.segments_ofText]
      exact hq
  | remove path =>
    rw [touched?] at htouched
    split at htouched
    . exact absurd htouched (by simp)
    . rw [Option.map_eq_some_iff] at htouched
      obtain ⟨target, htarget, heq⟩ := htouched
      rw [Prod.mk.injEq] at heq
      rw [← heq.1]
      exact h.lead_of_target? hmem hlead hq htarget
  | find path => exact absurd htouched (by simp [touched?])
  | contains path => exact absurd htouched (by simp [touched?])
  | startsWith path => exact absurd htouched (by simp [touched?])

theorem exists_keeps_after (h : ∃ r, t.Keeps wildcard r) (q : Query α) : ∃ r, (t.after q).Keeps wildcard r := by
  obtain ⟨r, hkeeps⟩ := h
  cases q with
  | add key value => exact ⟨_, hkeeps.change (.add key value)⟩
  | remove path => exact ⟨_, hkeeps.change (.remove path)⟩
  | find path => exact ⟨r, hkeeps⟩
  | contains path => exact ⟨r, hkeeps⟩
  | startsWith path => exact ⟨r, hkeeps⟩

theorem Covered.after (h : t.Covered wildcard n leads) (hmem : lead ∈ leads) (hlead : lead ≠ [])
    (hq : lead <+: segments q.path) : (t.after q).Covered wildcard n leads where
  keeps := exists_keeps_after h.keeps q
  length := h.length
  literal := h.literal
  led := by
    intro key hkey
    rw [stored_after] at hkey
    cases htouched : (t.touched? q).filter (·.1 = key) with
    | none =>
      rw [htouched] at hkey
      exact h.led key hkey
    | some entry =>
      rw [Option.filter_eq_some_iff, decide_eq_true_eq] at htouched
      rw [← htouched.2]
      exact ⟨lead, hmem, h.lead_of_touched? hmem hlead hq htouched.1⟩

/-- What a query does in the family of its path, it does in every table that is alike there. -/
theorem Alike.touched?_eq (h : Alike wildcard n leads leads' lead t t') (hq : lead <+: segments q.path) :
    t.touched? q = t'.touched? q := by
  cases q with
  | add key value => rw [touched?, touched?, h.covered.wildcard_eq, h.covered'.wildcard_eq]
  | remove path =>
    have htarget : t.target? path = t'.target? path := h.target?_eq hq
    rw [touched?, touched?, htarget]
  | find path => rfl
  | contains path => rfl
  | startsWith path => rfl

theorem Alike.segments_ne_nil (h : Alike wildcard n leads leads' lead t t') (hpath : lead <+: segments path) :
    segments path ≠ [] := by
  intro hnil
  rw [hnil, List.prefix_nil] at hpath
  exact h.ne_nil hpath

theorem Alike.answer_eq (h : Alike wildcard n leads leads' lead t t') (hq : lead <+: segments q.path) :
    t.answer q = t'.answer q := by
  cases q with
  | add key value =>
    have hne : segments key ≠ [] := h.segments_ne_nil hq
    have hkey : lead <+: (Key.ofText wildcard key).segments := by
      rw [Key.segments_ofText]
      exact hq
    rw [answer, answer, add_of_ne_nil t hne, add_of_ne_nil t' hne, h.covered.wildcard_eq,
      h.covered'.wildcard_eq, h.agrees _ hkey]
    rfl
  | remove path =>
    have hne : segments path ≠ [] := h.segments_ne_nil hq
    have hstored : (t.target? path).bind t.stored = (t'.target? path).bind t'.stored := h.stored_target?_eq hq
    rw [answer, answer, remove_of_ne_nil t hne, remove_of_ne_nil t' hne, hstored]
    rfl
  | find path =>
    have hfind : t.find? path = t'.find? path := h.find?_eq hq
    rw [answer, answer, hfind]
  | contains path =>
    have hcontains : t.contains path = t'.contains path := h.contains_eq hq
    rw [answer, answer, hcontains]
  | startsWith path =>
    have hstarts : t.startsWith path = t'.startsWith path := h.startsWith_eq hq
    rw [answer, answer, hstarts]

theorem Alike.after (h : Alike wildcard n leads leads' lead t t') (hq : lead <+: segments q.path) :
    Alike wildcard n leads leads' lead (t.after q) (t'.after q) where
  ne_nil := h.ne_nil
  mem := h.mem
  mem' := h.mem'
  covered := h.covered.after h.mem h.ne_nil hq
  covered' := h.covered'.after h.mem' h.ne_nil hq
  agrees := by
    intro key hkey
    rw [stored_after, stored_after, h.touched?_eq hq, h.agrees key hkey]

/-- A query about another family changes nothing in this one. -/
theorem Alike.after_other (h : Alike wildcard n leads leads' lead t t') (hmem : other ∈ leads) (hne : other ≠ lead)
    (hq : other <+: segments q.path) : Alike wildcard n leads leads' lead (t.after q) t' := by
  have hother : other ≠ [] := by
    intro hnil
    apply h.ne_nil
    rw [← List.length_eq_zero_iff, h.covered.length lead h.mem, ← h.covered.length other hmem, hnil]
    rfl
  refine ⟨h.ne_nil, h.mem, h.mem', h.covered.after hmem hother hq, h.covered', ?_⟩
  intro key hkey
  rw [stored_after]
  cases htouched : (t.touched? q).filter (·.1 = key) with
  | none => exact h.agrees key hkey
  | some entry =>
    rw [Option.filter_eq_some_iff, decide_eq_true_eq] at htouched
    have hentry := h.covered.lead_of_touched? hmem hother hq htouched.1
    rw [htouched.2] at hentry
    exact absurd (h.covered.lead_unique h.mem hmem hkey hentry) hne

end

/-! ## Runs -/

section
variable {wildcard : String} {n : Nat} {leads leads' : List (List String)} {lead : ι → List String} {t t' : Table α}
  [DecidableEq ι] {client : ι}

/-- A client gets the answers that it would get alone, whatever the others ask in between. -/
theorem Alike.run (h : Alike wildcard n leads leads' (lead client) t t') (hne : ∀ i, i ≠ client → lead i ≠ lead client)
    {moves : List (ι × Query α)} (hmem : ∀ move ∈ moves, lead move.1 ∈ leads)
    (hmoves : ∀ move ∈ moves, lead move.1 <+: segments move.2.path) :
    (t.answers moves).filter (·.1 = client) = t'.answers (moves.filter (·.1 = client)) ∧
      Alike wildcard n leads leads' (lead client) (t.afterAll moves)
        (t'.afterAll (moves.filter (·.1 = client))) := by
  induction moves generalizing t t' with
  | nil => exact ⟨rfl, h⟩
  | cons move moves ih =>
    obtain ⟨i, q⟩ := move
    rw [List.forall_mem_cons] at hmem hmoves
    by_cases hi : i = client
    . subst hi
      obtain ⟨hanswers, halike⟩ := ih (h.after hmoves.1) hmem.2 hmoves.2
      rw [List.filter_cons_of_pos (by simp), answers, answers, List.filter_cons_of_pos (by simp), hanswers,
        h.answer_eq hmoves.1]
      exact ⟨rfl, halike⟩
    . obtain ⟨hanswers, halike⟩ := ih (h.after_other hmem.1 (hne i hi) hmoves.1) hmem.2 hmoves.2
      rw [List.filter_cons_of_neg (by simp [hi]), answers, List.filter_cons_of_neg (by simp [hi])]
      exact ⟨hanswers, halike⟩

end

section
variable {wildcard : String} {n : Nat}

/-- A table that is covered by two leads has the keys of two tables that are alike in one family each. -/
theorem Alike.entries_perm {lead other : List String} {t t₁ t₂ : Table α} (hne : lead ≠ other)
    (h₁ : Alike wildcard n [lead, other] [lead] lead t t₁) (h₂ : Alike wildcard n [lead, other] [other] other t t₂) :
    t.entries.Perm (t₁.entries ++ t₂.entries) := by
  obtain ⟨r, hkeeps⟩ := h₁.covered.keeps
  obtain ⟨r₁, hkeeps₁⟩ := h₁.covered'.keeps
  obtain ⟨r₂, hkeeps₂⟩ := h₂.covered'.keeps
  have hown₁ : ∀ {key v}, t₁.stored key = some v → lead <+: key.segments := by
    intro key v hv
    obtain ⟨found, hfound, hkey⟩ := h₁.covered'.led key (hv ▸ rfl)
    exact List.mem_singleton.1 hfound ▸ hkey
  have hown₂ : ∀ {key v}, t₂.stored key = some v → other <+: key.segments := by
    intro key v hv
    obtain ⟨found, hfound, hkey⟩ := h₂.covered'.led key (hv ▸ rfl)
    exact List.mem_singleton.1 hfound ▸ hkey
  rw [List.perm_ext_iff_of_nodup hkeeps.nodup_entries]
  . rintro ⟨key, v⟩
    rw [List.mem_append, hkeeps.mem_entries_iff_stored, hkeeps₁.mem_entries_iff_stored,
      hkeeps₂.mem_entries_iff_stored]
    constructor
    . intro hv
      obtain ⟨found, hfound, hkey⟩ := h₁.covered.led key (hv ▸ rfl)
      rw [List.mem_cons, List.mem_singleton] at hfound
      obtain rfl | rfl := hfound
      . exact .inl (h₁.agrees key hkey ▸ hv)
      . exact .inr (h₂.agrees key hkey ▸ hv)
    . rintro (hv | hv)
      . rw [h₁.agrees key (hown₁ hv), hv]
      . rw [h₂.agrees key (hown₂ hv), hv]
  . apply List.Nodup.append hkeeps₁.nodup_entries hkeeps₂.nodup_entries
    rintro ⟨key, v⟩ hfirst hsecond
    rw [hkeeps₁.mem_entries_iff_stored] at hfirst
    rw [hkeeps₂.mem_entries_iff_stored] at hsecond
    exact hne (h₁.covered.lead_unique h₂.mem h₁.mem (hown₂ hsecond) (hown₁ hfirst))

theorem covered_empty {leads : List (List String)} (hlength : ∀ lead ∈ leads, lead.length = n)
    (hliteral : ∀ lead ∈ leads, wildcard ∉ lead) : (empty wildcard : Table α).Covered wildcard n leads where
  keeps := ⟨.empty, .empty wildcard⟩
  length := hlength
  literal := hliteral
  led := by
    intro key hkey
    cases key with
    | fixed text => simp [stored, empty] at hkey
    | pattern key => simp [stored, empty, Node.find?_empty] at hkey

theorem alike_empty {leads : List (List String)} {lead : List String} (hmem : lead ∈ leads) (hne : lead ≠ [])
    (hlength : ∀ lead ∈ leads, lead.length = n) (hliteral : ∀ lead ∈ leads, wildcard ∉ lead) :
    Alike wildcard n leads [lead] lead (empty wildcard : Table α) (empty wildcard) where
  ne_nil := hne
  mem := hmem
  mem' := List.mem_singleton_self lead
  covered := covered_empty hlength hliteral
  covered' := covered_empty (List.forall_mem_singleton.2 (hlength lead hmem))
    (List.forall_mem_singleton.2 (hliteral lead hmem))
  agrees := fun _ _ => rfl

/--
Two clients that keep to families of their own do not notice each other, in whatever order their queries come. In
the end the table has the keys of both.
-/
theorem answers_of_clients {lead : Client → List String} (hlength : (lead .first).length = (lead .second).length)
    (hne : lead .first ≠ lead .second) (hliteral : ∀ client, wildcard ∉ lead client)
    (moves : List (Client × Query α)) (hmoves : ∀ move ∈ moves, lead move.1 <+: segments move.2.path) :
    let t : Table α := empty wildcard
    let own client := moves.filter (·.1 = client)
    (∀ client, (t.answers moves).filter (·.1 = client) = t.answers (own client)) ∧
      (t.afterAll moves).size = (t.afterAll (own .first)).size + (t.afterAll (own .second)).size ∧
      (t.afterAll moves).keys.Perm ((t.afterAll (own .first)).keys ++ (t.afterAll (own .second)).keys) := by
  have hmem : ∀ client, lead client ∈ [lead .first, lead .second] := by
    intro client
    cases client <;> simp
  have hdiffer : ∀ client i, i ≠ client → lead i ≠ lead client := by
    intro client i hi
    cases client with
    | first =>
      cases i with
      | first => exact absurd rfl hi
      | second => exact hne.symm
    | second =>
      cases i with
      | first => exact hne
      | second => exact absurd rfl hi
  have hsize : ∀ client, (lead client).length = (lead .first).length := by
    intro client
    cases client with
    | first => rfl
    | second => exact hlength.symm
  have hsome : ∀ client, lead client ≠ [] := by
    intro client hnil
    have hempty : ∀ i, lead i = [] := by
      intro i
      rw [← List.length_eq_zero_iff, hsize i, ← hsize client, hnil]
      rfl
    exact hne ((hempty .first).trans (hempty .second).symm)
  intro t own
  have halike : ∀ client, Alike wildcard (lead .first).length [lead .first, lead .second] [lead client]
      (lead client) t t := by
    intro client
    exact alike_empty (hmem client) (hsome client) (by simp [hsize]) (by simp [hliteral])
  have hrun := fun client => (halike client).run (hdiffer client) (fun move _ => hmem move.1) hmoves
  have hperm := (hrun .first).2.entries_perm hne (hrun .second).2
  obtain ⟨r, hkeeps⟩ := (hrun .first).2.covered.keeps
  obtain ⟨r₁, hkeeps₁⟩ := (hrun .first).2.covered'.keeps
  obtain ⟨r₂, hkeeps₂⟩ := (hrun .second).2.covered'.keeps
  refine ⟨fun client => (hrun client).1, ?_, ?_⟩
  . rw [hkeeps.size_eq, hkeeps₁.size_eq, hkeeps₂.size_eq, hperm.length_eq, List.length_append]
  . have hkeys := hperm.map fun entry => entry.1.text
    rw [List.map_append] at hkeys
    exact (keys_perm _).trans (hkeys.trans ((keys_perm _).symm.append (keys_perm _).symm))

theorem answers_of_clients_shared_nodes :
    let lead : Client → List String := fun client => if client = .first then ["get", "a"] else ["get", "b"]
    let moves : List (Client × Query Nat) :=
      [(.first, .add "get/a/*" 1), (.second, .add "/get/b/*/c" 2), (.first, .remove "get/a/x"),
        (.second, .find "get/b/y/c"), (.first, .startsWith "get/a"), (.second, .contains "get/b/c")]
    let t : Table Nat := empty "*"
    (∀ move ∈ moves, lead move.1 <+: segments move.2.path) ∧
      (t.answers moves).filter (·.1 = .second)
        = [(.second, .changed (.ok none)), (.second, .hit (some ⟨2, ["y"]⟩)), (.second, .told false)] ∧
      (t.afterAll moves).size = 1 ∧ (t.afterAll moves).keys = ["get/b/*/c"] := by
  intro lead moves t
  have hmoves : ∀ move ∈ moves, lead move.1 <+: segments move.2.path := by decide +kernel
  have hlead : ∀ client, "*" ∉ lead client := by
    intro client
    cases client <;> decide
  have hne : lead .first ≠ lead .second := by decide
  obtain ⟨hanswers, hsize, hkeys⟩ := answers_of_clients rfl hne hlead moves hmoves
  refine ⟨hmoves, hanswers .second, ?_, ?_⟩
  . rw [hsize]
    decide +kernel
  . have hown : (t.afterAll (moves.filter (·.1 = .first))).keys ++ (t.afterAll (moves.filter (·.1 = .second))).keys
        = ["get/b/*/c"] := by
      decide +kernel
    rw [hown] at hkeys
    exact List.perm_singleton.1 hkeys

end

end Table

end Signpost.Route
