import RpcSpec.Dsl.FieldOrder
set_option autoImplicit false

/-!
# A request, field by field

Where the fields of a spec keep out of each other's keys, a request is parsed as if every
field had been given it by itself: it is accepted when each of them accepts it, refused as
the first that refuses it does, and rewritten under the keys of each as that one rewrites
them.

`TypedSpec.fieldByField` proves the three parts, collected in `FieldByField`, of every
spec whose fields are independent.
-/

namespace RpcSpec.Dsl

open RpcSpec.Foundation

variable {Input : Type} [Build] [LibXrpl]

/-- The field, given the request by itself, accepts it, whatever has been parsed so far. -/
def Field.Accepts (field : Field Input) (root : Json) : Prop :=
  ∀ out, ∃ out' root', field.parseOne out root = .ok out' root'

/-- The field, given the request by itself, refuses it. -/
def Field.Refuses (field : Field Input) (root : Json) (failure : Failure) : Prop :=
  ∀ out, ∃ root', field.parseOne out root = .error failure root'

namespace Field

variable {field : Field Input} {root : Json}

/-- A field whose outcome is an update accepts the document. -/
theorem accepts_of_result {update : Input → Input}
    (h : (field.outcome root).result = .ok update) : field.Accepts root := fun _ =>
  ⟨_, _, parseOne_eq_ok_iff.mpr ⟨update, h, rfl, rfl⟩⟩

/-- A field whose outcome is a failure refuses the document with it. -/
theorem refuses_of_result {failure : Failure}
    (h : (field.outcome root).result = .error failure) : field.Refuses root failure := fun out => by
  rw [field.parseOne_eq, Outcome.run, h]
  exact ⟨_, rfl⟩

theorem result_of_accepts [InputAggregate Input] (h : field.Accepts root) :
    ∃ update, (field.outcome root).result = .ok update := by
  obtain ⟨_, _, hrun⟩ := h InputAggregate.init
  obtain ⟨update, hupdate, -⟩ := parseOne_eq_ok_iff.mp hrun
  exact ⟨update, hupdate⟩

/-- What the field leaves of the request does not depend on what has been parsed so far. -/
theorem endState_parseOne (field : Field Input) (out : Input) (root : Json) :
    endState (field.parseOne out) root =
      root.putChild (field.outcome root).value (field.outcome root).target := by
  simp only [endState, field.parseOne_eq, Outcome.run]
  cases (field.outcome root).result <;> rfl

end Field

/-! ## Outcomes one after another -/

omit [Build] [LibXrpl] in
/-- Outcomes that are all updates give an input. -/
theorem collect_eq_ok_of_forall {outcomes : List (Outcome Input)}
    (h : ∀ outcome ∈ outcomes, ∃ update, outcome.result = .ok update) (out : Input) :
    ∃ input, collect outcomes out = .ok input := by
  induction outcomes generalizing out with
  | nil => exact ⟨out, rfl⟩
  | cons outcome rest ih =>
      obtain ⟨update, hupdate⟩ := h outcome (by simp)
      rw [collect_cons, hupdate]
      exact ih (fun o ho => h o (by simp [ho])) (update out)

omit [Build] [LibXrpl] in
theorem forall_of_collect_eq_ok {outcomes : List (Outcome Input)} {out input : Input}
    (h : collect outcomes out = .ok input) :
    ∀ outcome ∈ outcomes, ∃ update, outcome.result = .ok update := by
  induction outcomes generalizing out with
  | nil => simp
  | cons outcome rest ih =>
      rw [collect_cons] at h
      cases hresult : outcome.result with
      | error failure =>
          rw [hresult] at h
          cases h
      | ok update =>
          rw [hresult] at h
          exact List.forall_mem_cons.mpr ⟨⟨update, hresult⟩, ih h⟩

omit [Build] [LibXrpl] in
/-- A list of outcomes that fails does so at the first that does. -/
theorem first_error_of_collect {fields : List (Field Input)}
    {outcomeOf : Field Input → Outcome Input} {out : Input} {failure : Failure}
    (h : collect (fields.map outcomeOf) out = .error failure) :
    ∃ before field after, fields = before ++ field :: after ∧
      (∀ g ∈ before, ∃ update, (outcomeOf g).result = .ok update) ∧
      (outcomeOf field).result = .error failure := by
  induction fields generalizing out with
  | nil => cases h
  | cons f rest ih =>
      rw [List.map_cons, collect_cons] at h
      cases hresult : (outcomeOf f).result with
      | error failure' =>
          rw [hresult] at h
          cases h
          exact ⟨[], f, rest, rfl, by simp, hresult⟩
      | ok update =>
          rw [hresult] at h
          obtain ⟨before, field, after, rfl, hbefore, hfield⟩ := ih h
          exact ⟨f :: before, field, after, rfl,
            List.forall_mem_cons.mpr ⟨⟨update, hresult⟩, hbefore⟩, hfield⟩

omit [Build] [LibXrpl] in
theorem collect_append_cons {before after : List (Outcome Input)} {outcome : Outcome Input}
    {out input : Input} (h : collect (before ++ outcome :: after) out = .ok input) :
    ∃ mid update, collect before out = .ok mid ∧ outcome.result = .ok update ∧
      collect after (update mid) = .ok input := by
  induction before generalizing out with
  | nil =>
      rw [List.nil_append, collect_cons] at h
      cases hresult : outcome.result with
      | error failure =>
          rw [hresult] at h
          cases h
      | ok update =>
          rw [hresult] at h
          exact ⟨out, update, rfl, rfl, h⟩
  | cons first rest ih =>
      rw [List.cons_append, collect_cons] at h
      rw [collect_cons]
      cases hfirst : first.result with
      | error failure =>
          rw [hfirst] at h
          cases h
      | ok update =>
          rw [hfirst] at h
          exact ih h

theorem collect_keeps {fields : List (Field Input)} {β : Type} {read : Input → β} {root : Json}
    (h : ∀ f ∈ fields, f.Keeps read) {out input : Input}
    (hrun : collect (fields.map (·.outcome root)) out = .ok input) : read input = read out := by
  refine collect_preserves (P := fun input => read input = read out) ?_ rfl hrun
  intro o ho update hupdate mid hmid
  obtain ⟨f, hf, rfl⟩ := List.mem_map.mp ho
  exact ((h f hf).update hupdate mid).trans hmid

/-! ## A spec -/

namespace TypedSpec

variable [InputAggregate Input]

/-- The spec does with the request what its fields do with it, each by itself. -/
structure FieldByField (spec : TypedSpec Input) (root : Json) : Prop where
  accepts : (∃ input root', spec.parse root = .ok input root') ↔
    ∀ field ∈ effectiveFields spec.fields, field.Accepts root
  /-- what one field alone assigns to is, of an accepted request, what that field makes it -/
  members : ∀ {β : Type} (read : Input → β), ∀ field ∈ effectiveFields spec.fields,
    (∀ g ∈ effectiveFields spec.fields, g ≠ field → g.Keeps read) →
    field.Respects (fun out out' => read out = read out') →
    ∀ input root', spec.parse root = .ok input root' →
      ∃ out root'', field.parseOne InputAggregate.init root = .ok out root'' ∧
        read input = read out
  /-- the first field that refuses the request says why -/
  refuses : ∀ failure root', spec.parse root = .error failure root' →
    ∃ before field after, effectiveFields spec.fields = before ++ field :: after ∧
      (∀ g ∈ before, g.Accepts root) ∧ field.Refuses root failure
  /-- an accepted request is left, under the keys of a field, as that field leaves it -/
  documents : ∀ input root', spec.parse root = .ok input root' →
    ∀ field ∈ effectiveFields spec.fields, ∀ key ∈ field.ownKeys, ∀ out,
      root'.member? key = (endState (field.parseOne out) root).member? key

/-- A spec of independent fields accepts, refuses and writes field by field. -/
theorem fieldByField {spec : TypedSpec Input} (hindependent : independent spec.fields = true)
    (root : Json) : spec.FieldByField root where
  accepts := by
    constructor
    · rintro ⟨input, root', hrun⟩ field hmem
      obtain ⟨hcollect, -⟩ := (parse_eq_ok_iff hindependent).mp hrun
      obtain ⟨update, hupdate⟩ := forall_of_collect_eq_ok hcollect (field.outcome root)
        (List.mem_map_of_mem hmem)
      exact Field.accepts_of_result hupdate
    · intro haccepts
      have hresults : ∀ outcome ∈ spec.outcomes root, ∃ update, outcome.result = .ok update :=
        List.forall_mem_map.mpr fun field hmem =>
          Field.result_of_accepts (haccepts field hmem)
      obtain ⟨input, hcollect⟩ := collect_eq_ok_of_forall hresults InputAggregate.init
      exact ⟨input, _, (parse_eq_ok_iff hindependent).mpr ⟨hcollect, rfl⟩⟩
  members read field hmem hothers hrespects input root' hrun := by
    obtain ⟨hcollect, -⟩ := (parse_eq_ok_iff hindependent).mp hrun
    obtain ⟨before, after, heq⟩ := List.append_of_mem hmem
    have hkeys : ((lastWins Field.key spec.fields).map Field.key).Nodup :=
      nodup_map_key_lastWins spec.fields
    rw [← effectiveFields_eq_lastWins, heq] at hkeys
    have hnodup := List.nodup_append.mp hkeys.of_map
    rw [outcomes, heq, List.map_append, List.map_cons] at hcollect
    obtain ⟨mid, update, hbefore, hupdate, hafter⟩ := collect_append_cons hcollect
    refine ⟨_, _, Field.parseOne_eq_ok_iff.mpr ⟨update, hupdate, rfl, rfl⟩, ?_⟩
    have hmid : read mid = read InputAggregate.init :=
      collect_keeps (fun g hg => hothers g (by simp [heq, hg]) fun hsame =>
        hnodup.2.2 g hg field (by simp) hsame) hbefore
    have hinput : read input = read (update mid) :=
      collect_keeps (fun g hg => hothers g (by simp [heq, hg]) fun hsame =>
        (List.nodup_cons.mp hnodup.2.1).1 (hsame ▸ hg)) hafter
    exact hinput.trans (hrespects.update hupdate _ _ hmid)
  refuses failure root' hrun := by
    have hcollect : collect (spec.outcomes root) InputAggregate.init = .error failure := by
      rw [← answer_parse hindependent, hrun]
      rfl
    obtain ⟨before, field, after, heq, hbefore, hfield⟩ := first_error_of_collect hcollect
    refine ⟨before, field, after, heq, fun g hg => ?_, Field.refuses_of_result hfield⟩
    obtain ⟨update, hupdate⟩ := hbefore g hg
    exact Field.accepts_of_result hupdate
  documents input root' hrun field hmem key hkey out := by
    obtain ⟨-, rfl⟩ := (parse_eq_ok_iff hindependent).mp hrun
    rw [Field.endState_parseOne]
    exact member?_written (pairwise_apart hindependent) hmem hkey

end TypedSpec

end RpcSpec.Dsl
