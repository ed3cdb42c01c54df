import Signpost.Proofs.Http.Delimiter

/-!
This module contains the reading of a multipart body place by place, and what is read of a body of which only the front
has arrived: the parts whose closing delimiter has arrived with it, as they are in the whole body.
-/

namespace Signpost.Http.Multipart

/-- A stretch of a body, from one place up to another. -/
structure Stretch where
  start : Nat
  stop : Nat
  deriving DecidableEq

namespace Stretch

def bytes (body : Bytes) (s : Stretch) : Bytes :=
  (body.drop s.start).take (s.stop - s.start)

/-- The place right after the delimiter that closes the stretch. -/
def closed (delimiter : Bytes) (s : Stretch) : Nat :=
  s.stop + delimiter.length

/-- The part that the stretch is, if its head names it. -/
def part? (body : Bytes) (s : Stretch) : Option Part :=
  Multipart.part? (s.bytes body)

end Stretch

/--
The rounds of reading from the place right after a delimiter on. In each round the next delimiter is looked for, which
closes the stretch that begins here. Two dashes here end the reading, and so does a rest without a delimiter.
-/
inductive Rounds (delimiter body : Bytes) : Nat → List Stretch → Prop
  | dashed (here : dashes <+: body.drop i) : Rounds delimiter body i []
  | absent (going : ¬dashes <+: body.drop i) (none : ¬delimiter <:+: body.drop i) : Rounds delimiter body i []
  | round (going : ¬dashes <+: body.drop i) (next : Text.IsNext delimiter body i j)
    (more : Rounds delimiter body (j + delimiter.length) stretches) : Rounds delimiter body i (⟨i, j⟩ :: stretches)

/-- The reading of a body begins right after its first delimiter. -/
inductive Reads (delimiter body : Bytes) : List Stretch → Prop
  | absent (none : ¬delimiter <:+: body) : Reads delimiter body []
  | begin (first : Text.IsNext delimiter body 0 j) (rounds : Rounds delimiter body (j + delimiter.length) stretches) :
    Reads delimiter body stretches

/-! ## One reading -/

section
variable {delimiter body : Bytes} {stretches : List Stretch} {i : Nat}

/-- Every round leads to a later place of the body, so there is a last one. -/
theorem exists_rounds (hne : delimiter ≠ []) (body : Bytes) (i : Nat) :
    ∃ stretches, Rounds delimiter body i stretches := by
  by_cases hdashes : dashes <+: body.drop i
  . exact ⟨_, .dashed hdashes⟩
  . by_cases hoccurs : delimiter <:+: body.drop i
    . obtain ⟨j, hnext⟩ := Text.exists_isNext hoccurs
      have hpos := List.length_pos_iff.2 hne
      have hle := hnext.le
      have hlength := Text.add_length_le_of_prefix_drop hne hnext.occurs
      obtain ⟨stretches, hmore⟩ := exists_rounds hne body (j + delimiter.length)
      exact ⟨_, .round hdashes hnext hmore⟩
    . exact ⟨_, .absent hdashes hoccurs⟩
termination_by body.length - i

theorem Rounds.unique {others : List Stretch} (h : Rounds delimiter body i stretches)
    (h' : Rounds delimiter body i others) : stretches = others := by
  induction h generalizing others with
  | dashed here =>
    cases h' with
    | dashed => rfl
    | absent => rfl
    | round going => exact absurd here going
  | absent _ none =>
    cases h' with
    | dashed => rfl
    | absent => rfl
    | round _ next => exact absurd next.isInfix none
  | round going next _ ih =>
    cases h' with
    | dashed here => exact absurd here going
    | absent _ none => exact absurd next.isInfix none
    | round _ next' more' =>
      cases next.unique next'
      rw [ih more']

/-- A stretch lies between the place where the reading began and a delimiter that is in the body. -/
theorem Rounds.bounds (hne : delimiter ≠ []) (h : Rounds delimiter body i stretches) :
    ∀ s ∈ stretches, i ≤ s.start ∧ s.start ≤ s.stop ∧ s.closed delimiter ≤ body.length ∧
      delimiter <+: body.drop s.stop := by
  induction h with
  | dashed => exact nofun
  | absent => exact nofun
  | round _ next _ ih =>
    rw [List.forall_mem_cons]
    constructor
    . exact ⟨Nat.le_refl _, next.le, Text.add_length_le_of_prefix_drop hne next.occurs, next.occurs⟩
    . intro s hs
      have hle := next.le
      have hstart := (ih s hs).1
      exact ⟨by omega, (ih s hs).2⟩

/-- Every round takes at least as many bytes as the delimiter has. -/
theorem Rounds.length_mul_le (hne : delimiter ≠ []) (h : Rounds delimiter body i stretches) (hi : i ≤ body.length) :
    i + stretches.length * delimiter.length ≤ body.length := by
  induction h with
  | dashed => simpa using hi
  | absent => simpa using hi
  | round _ next _ ih =>
    have hle := next.le
    have hlength := ih (Text.add_length_le_of_prefix_drop hne next.occurs)
    rw [List.length_cons, Nat.succ_mul]
    omega

theorem Rounds.partsAfter_eq (hne : delimiter ≠ []) (h : Rounds delimiter body i stretches) :
    partsAfter delimiter hne (body.drop i) = stretches.filterMap (Stretch.part? body) := by
  induction h with
  | dashed here => exact partsAfter_of_closing hne (Text.isSome_afterLead_iff.2 here)
  | absent _ none =>
    apply partsAfter_of_cutAt_eq_none hne
    rw [← Option.not_isSome_iff_eq_none, Text.isSome_cutAt_iff]
    exact none
  | @round i j stretches going next _ ih =>
    have hdashes : (Text.afterLead dashes (body.drop i)).isSome = false := by
      rw [← Bool.not_eq_true, Text.isSome_afterLead_iff]
      exact going
    rw [partsAfter_of_cutAt hne hdashes next.cutAt_eq, ih, List.filterMap_cons]
    change (Stretch.part? body ⟨i, j⟩).toList ++ _ = _
    cases Stretch.part? body ⟨i, j⟩ <;> rfl

theorem exists_reads (hne : delimiter ≠ []) (body : Bytes) : ∃ stretches, Reads delimiter body stretches := by
  by_cases hoccurs : delimiter <:+: body
  . obtain ⟨j, hfirst⟩ := Text.exists_isNext (i := 0) hoccurs
    obtain ⟨stretches, hrounds⟩ := exists_rounds hne body (j + delimiter.length)
    exact ⟨stretches, .begin hfirst hrounds⟩
  . exact ⟨[], .absent hoccurs⟩

namespace Reads

theorem unique {others : List Stretch} (h : Reads delimiter body stretches) (h' : Reads delimiter body others) :
    stretches = others := by
  cases h with
  | absent none =>
    cases h' with
    | absent => rfl
    | begin first => exact absurd first.isInfix none
  | begin first rounds =>
    cases h' with
    | absent none => exact absurd first.isInfix none
    | begin first' rounds' =>
      cases first.unique first'
      exact rounds.unique rounds'

theorem bounds (hne : delimiter ≠ []) (h : Reads delimiter body stretches) :
    ∀ s ∈ stretches, s.start ≤ s.stop ∧ s.closed delimiter ≤ body.length ∧ delimiter <+: body.drop s.stop := by
  cases h with
  | absent => exact nofun
  | begin _ rounds => exact fun s hs => (rounds.bounds hne s hs).2

theorem length_mul_le (hne : delimiter ≠ []) (h : Reads delimiter body stretches) :
    stretches.length * delimiter.length ≤ body.length := by
  cases h with
  | absent => simp
  | begin first rounds =>
    have hlength := rounds.length_mul_le hne (Text.add_length_le_of_prefix_drop hne first.occurs)
    omega

end Reads

end

theorem Reads.parts_eq {boundary : String} {body : Bytes} {stretches : List Stretch}
    (h : Reads (delimiter boundary) body stretches) :
    parts boundary body = stretches.filterMap (Stretch.part? body) := by
  unfold parts
  cases h with
  | absent none =>
    rw [← Text.isSome_cutAt_iff, Option.not_isSome_iff_eq_none] at none
    rw [none]
    rfl
  | begin first rounds =>
    have hcut := first.cutAt_eq
    rw [List.drop_zero] at hcut
    rw [hcut]
    exact rounds.partsAfter_eq (delimiter_ne_nil boundary)

/-! ## The front of a body -/

/-- The stretches behind a place are not closed before it. -/
theorem Rounds.filter_eq_nil {delimiter body : Bytes} {stretches : List Stretch} {i n : Nat} (hne : delimiter ≠ [])
    (h : Rounds delimiter body i stretches) (hn : n < i) : stretches.filter (·.closed delimiter ≤ n) = [] := by
  rw [List.filter_eq_nil_iff]
  intro s hs hclosed
  have hbounds := h.bounds hne s hs
  have hle : s.stop + delimiter.length ≤ n := of_decide_eq_true hclosed
  omega

/-- The stretches that are closed before a place are the first ones. -/
theorem Rounds.filter_prefix {delimiter body : Bytes} {stretches : List Stretch} {i : Nat} (hne : delimiter ≠ [])
    (h : Rounds delimiter body i stretches) (n : Nat) : stretches.filter (·.closed delimiter ≤ n) <+: stretches := by
  induction h with
  | dashed => exact List.nil_prefix
  | absent => exact List.nil_prefix
  | @round i j _ _ _ rounds ih =>
    by_cases hj : Stretch.closed delimiter ⟨i, j⟩ ≤ n
    . rw [List.filter_cons, if_pos (decide_eq_true hj), List.cons_prefix_cons]
      exact ⟨rfl, ih⟩
    . rw [List.filter_cons, if_neg (mt of_decide_eq_true hj), rounds.filter_eq_nil hne (Nat.lt_of_not_le hj)]
      exact List.nil_prefix

theorem Reads.filter_prefix {delimiter body : Bytes} {stretches : List Stretch} (hne : delimiter ≠ [])
    (h : Reads delimiter body stretches) (n : Nat) : stretches.filter (·.closed delimiter ≤ n) <+: stretches := by
  cases h with
  | absent => exact List.nil_prefix
  | begin _ rounds => exact rounds.filter_prefix hne n

section
variable {boundary : String} {sent more : Bytes} {stretches : List Stretch} {i : Nat}

/-- What is left of dashes that have not arrived as a whole is shorter than every delimiter. -/
theorem not_infix_of_dashes (hdashes : dashes <+: (sent ++ more).drop i) (hcut : ¬dashes <+: sent.drop i) :
    ¬delimiter boundary <:+: sent.drop i := by
  have hshort : ¬i + dashes.length ≤ sent.length := by
    intro hlength
    exact hcut ((Text.prefix_drop_append_iff hlength more).1 hdashes)
  have htwo : dashes.length = 2 := rfl
  intro hoccurs
  have hlength := hoccurs.length_le
  rw [List.length_drop, delimiter, List.length_append] at hlength
  omega

/-- The rounds over the front of a body are those whose closing delimiter is in the front. -/
theorem Rounds.arrived (h : Rounds (delimiter boundary) (sent ++ more) i stretches) :
    Rounds (delimiter boundary) sent i (stretches.filter (·.closed (delimiter boundary) ≤ sent.length)) := by
  have hne := delimiter_ne_nil boundary
  induction h with
  | @dashed i here =>
    by_cases hdashes : dashes <+: sent.drop i
    . exact .dashed hdashes
    . exact .absent hdashes (not_infix_of_dashes here hdashes)
  | absent going none =>
    refine .absent ?_ ?_
    . exact fun hdashes => going (Text.prefix_drop_append hdashes more)
    . exact fun hoccurs => none (Text.infix_drop_append hoccurs more)
  | @round i j stretches going next rounds ih =>
    have hdashes : ¬dashes <+: sent.drop i := fun hdashes => going (Text.prefix_drop_append hdashes more)
    by_cases hj : Stretch.closed (delimiter boundary) ⟨i, j⟩ ≤ sent.length
    . rw [List.filter_cons, if_pos (decide_eq_true hj)]
      exact .round hdashes ((Text.IsNext.append_iff hj more).1 next) ih
    . -- the later stretches begin behind a delimiter that has not arrived
      rw [List.filter_cons, if_neg (mt of_decide_eq_true hj), rounds.filter_eq_nil hne (Nat.lt_of_not_le hj)]
      exact .absent hdashes (next.not_infix_of_append hne (Nat.lt_of_not_le hj))

theorem Reads.arrived (h : Reads (delimiter boundary) (sent ++ more) stretches) :
    Reads (delimiter boundary) sent (stretches.filter (·.closed (delimiter boundary) ≤ sent.length)) := by
  have hne := delimiter_ne_nil boundary
  cases h with
  | absent none =>
    refine .absent ?_
    intro hoccurs
    exact none (hoccurs.trans (List.prefix_append _ _).isInfix)
  | @begin j _ first rounds =>
    by_cases hj : j + (delimiter boundary).length ≤ sent.length
    . exact .begin ((Text.IsNext.append_iff hj more).1 first) rounds.arrived
    . rw [rounds.filter_eq_nil hne (Nat.lt_of_not_le hj)]
      exact .absent (first.not_infix_of_append hne (Nat.lt_of_not_le hj))

/-- A stretch that has arrived is not changed by what arrives later. -/
theorem Stretch.part?_append {s : Stretch} (hstart : s.start ≤ s.stop) (hstop : s.stop ≤ sent.length) (more : Bytes) :
    s.part? (sent ++ more) = s.part? sent := by
  have hlength : s.stop - s.start ≤ (sent.drop s.start).length := by
    rw [List.length_drop]
    omega
  unfold Stretch.part? bytes
  rw [List.drop_append_of_le_length (by omega), List.take_append_of_le_length hlength]

theorem Stretch.exists_data_of_part? {body : Bytes} {s : Stretch} {part : Part} (h : s.part? body = some part) :
    ∃ data, part.ReadsFrom data ∧ data <:+: s.bytes body := by
  obtain ⟨data, hreads, hsuffix⟩ := Multipart.exists_data_of_part? h
  refine ⟨data, hreads, ?_⟩
  cases hsuffix with
  | inl hend => exact hend.isInfix
  | inr hline => exact (List.prefix_append data crlf).isInfix.trans hline.isInfix

theorem Reads.parts_front (h : Reads (delimiter boundary) (sent ++ more) stretches) :
    parts boundary sent
      =
    (stretches.filter (·.closed (delimiter boundary) ≤ sent.length)).filterMap (Stretch.part? (sent ++ more)) := by
  rw [h.arrived.parts_eq]
  apply List.filterMap_congr
  intro s hs
  have hbounds := h.arrived.bounds (delimiter_ne_nil boundary) s hs
  have hstop : s.stop ≤ sent.length := (Nat.le_add_right _ _).trans hbounds.2.1
  rw [Stretch.part?_append hbounds.1 hstop]

end

/--
Of the front of a body those parts are read whose closing delimiter is in the front, and each of them as it is in the
whole body, so the fields and the files are the first ones of the whole body. The reading of a body is the only one
that there is. It takes no more rounds than delimiters fit into the body, every stretch and the delimiter that closes it
lie within the body, and the data of a part lies within its stretch.
-/
theorem parse_of_front (boundary : String) (sent more : Bytes) :
    ∃ stretches, Reads (delimiter boundary) (sent ++ more) stretches ∧
      (∀ others, Reads (delimiter boundary) (sent ++ more) others → others = stretches) ∧
      stretches.length * (delimiter boundary).length ≤ (sent ++ more).length ∧
      (∀ s ∈ stretches, s.start ≤ s.stop ∧ s.closed (delimiter boundary) ≤ (sent ++ more).length ∧
        delimiter boundary <+: (sent ++ more).drop s.stop) ∧
      (∀ s ∈ stretches, ∀ part, s.part? (sent ++ more) = some part →
        ∃ data, part.ReadsFrom data ∧ data <:+: s.bytes (sent ++ more)) ∧
      parts boundary (sent ++ more) = stretches.filterMap (Stretch.part? (sent ++ more)) ∧
      parts boundary sent
        = (stretches.filter (·.closed (delimiter boundary) ≤ sent.length)).filterMap
          (Stretch.part? (sent ++ more)) ∧
      (parse boundary sent).fields <+: (parse boundary (sent ++ more)).fields ∧
      (parse boundary sent).files <+: (parse boundary (sent ++ more)).files := by
  have hne := delimiter_ne_nil boundary
  obtain ⟨stretches, h⟩ := exists_reads hne (sent ++ more)
  have hprefix : parts boundary sent <+: parts boundary (sent ++ more) := by
    rw [h.parts_front, h.parts_eq]
    exact (h.filter_prefix hne _).filterMap _
  refine ⟨stretches, h, fun others hothers => hothers.unique h, h.length_mul_le hne, h.bounds hne, ?_, h.parts_eq,
    h.parts_front, ?_, ?_⟩
  . intro s _ part
    exact Stretch.exists_data_of_part?
  . unfold parse Form.ofParts
    exact hprefix.filterMap _
  . unfold parse Form.ofParts
    exact hprefix.filterMap _

end Signpost.Http.Multipart
