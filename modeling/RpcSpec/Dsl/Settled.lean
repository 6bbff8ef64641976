import RpcSpec.Dsl.ParseFrame
set_option autoImplicit false

/-!
# Parsing what a parse has left

Items that take what they have left for what it is make a spec whose parse, run on the
document a parse has left, returns the same `Input` and writes nothing new.

`TypedSpec.parse_again` is the result. `Normalizes` is what it asks for, of the items, of
the fields and of the spec, and `Normalizes.of_writers` leaves only the fields that
rewrite to be looked at.
-/

namespace RpcSpec.Dsl

open RpcSpec.Foundation FieldView

variable {Input : Type} {α : Type}

/-! ## Items -/

/-- Run on what they have left, the items leave it as it is. -/
def Stable (items : List (Item α)) : Prop :=
  ∀ v v', runProcessors items v = .ok () v' → runProcessors items v' = .ok () v'

theorem stable_of_noPaths {items : List (Item α)} (h : itemsPaths items = []) : Stable items := by
  intro v v' hrun
  obtain rfl := (endState_of_ok hrun).symm.trans (runProcessors_readOnly h v)
  exact hrun

/-! ## Fields -/

namespace Field

/-- The items of the field are stable. -/
def Settles : Field Input → Prop
  | .bound field => Stable field.items
  | .aliased _ field => Stable field.items
  | .ledgerSelector _ => True
  | .unbound field => Stable field.items

theorem settles_of_noPaths {field : Field Input} (h : field.modifierPaths = []) :
    field.Settles := by
  cases field with
  | bound field => exact stable_of_noPaths h
  | aliased alternateKey field => exact stable_of_noPaths h
  | ledgerSelector member => trivial
  | unbound field => exact stable_of_noPaths h

end Field

/-- The view of a key, once what the items left is written back. -/
theorem rootChild_putChild {items : List (Item α)} (hframes : AllModifiers Frames items)
    (root : Json) (key : String) :
    let v := endState (runProcessors items) (rootChild root key)
    rootChild (root.putChild v.value key) key = v := by
  obtain ⟨hkey, hparts⟩ := runProcessors_moves hframes (rootChild root key)
  generalize endState (runProcessors items) (rootChild root key) = v at hkey hparts
  obtain ⟨k, value⟩ := v
  obtain rfl : k = key := hkey
  have hmember : (root.putChild value k).member? k = value :=
    Json.member?_putChild_same hparts.isSome
  exact congrArg (FieldView.mk k) hmember

/-- A field that has returned leaves its outcome where it stands. -/
theorem outcomeAt_again {field : BoundField Input} (hframes : AllModifiers Frames field.items)
    (hstable : Stable field.items) {key : String} {root : Json} {update : Input → Input}
    (hok : (field.outcomeAt key root).result = .ok update) :
    field.outcomeAt key (root.putChild (field.outcomeAt key root).value key) =
      field.outcomeAt key root := by
  cases hskipped : skipsField field.items root with
  | true => simp only [BoundField.outcomeAt, hskipped, if_true, Json.putChild_member?]
  | false =>
      have hchild := rootChild_putChild hframes root key
      simp only [BoundField.outcomeAt, hskipped, Bool.false_eq_true, if_false,
        skipsField_congr ((samePresence_putChild root _ key).guarded _), hchild] at hok ⊢
      unfold BoundField.onView at hok ⊢
      cases hrun : runProcessors field.items (rootChild root key) with
      | error failure v => simp [hrun] at hok
      | ok _ v =>
          have hagain := hstable _ _ hrun
          rw [endState_of_ok hrun, endState_of_ok hagain, hagain]

variable [Build] [LibXrpl]

theorem Field.outcome_again {field : Field Input} (hframes : field.ModifiersFrame)
    (hsettles : field.Settles) {root : Json} {update : Input → Input}
    (hok : (field.outcome root).result = .ok update) :
    field.outcome (root.putChild (field.outcome root).value (field.outcome root).target) =
      field.outcome root := by
  cases field with
  | bound field => exact outcomeAt_again hframes hsettles hok
  | aliased alternateKey field =>
      simp only [outcome, outcomeAliased] at hok ⊢
      simp only [present_congr (samePresence_putChild root _ _)]
      cases halternate : (rootChild root alternateKey).present with
      | false =>
          rw [halternate] at hok
          exact outcomeAt_again hframes hsettles hok
      | true =>
          cases hkey : (rootChild root field.key).present with
          | false =>
              rw [halternate, hkey] at hok
              exact outcomeAt_again hframes hsettles hok
          | true =>
              rw [halternate, hkey] at hok
              cases hok
  | ledgerSelector member =>
      simp only [outcome, outcomeSelector, Json.putChild_member?]
  | unbound field =>
      have hchild := rootChild_putChild hframes root field.key
      simp only [outcome, outcomeUnbound, hchild] at hok ⊢
      cases hrun : runProcessors field.items (rootChild root field.key) with
      | error failure v => simp [hrun] at hok
      | ok _ v =>
          have hagain := hsettles _ _ hrun
          rw [endState_of_ok hrun, endState_of_ok hagain, hagain]

/-! ## Specs -/

omit [Build] [LibXrpl] in
/-- Where all return, each does. -/
theorem result_of_collect {outcomes : List (Outcome Input)} {out input : Input}
    (h : collect outcomes out = .ok input) {outcome : Outcome Input}
    (hmem : outcome ∈ outcomes) : ∃ update, outcome.result = .ok update := by
  induction outcomes generalizing out with
  | nil => cases hmem
  | cons first rest ih =>
      rw [collect_cons] at h
      cases hfirst : first.result with
      | error failure =>
          rw [hfirst] at h
          cases h
      | ok update =>
          rw [hfirst] at h
          rcases List.mem_cons.mp hmem with rfl | hmem
          · exact ⟨update, hfirst⟩
          · exact ih h hmem

omit [Build] [LibXrpl] in
/-- Writing what is there changes nothing. -/
theorem written_eq_self {outcomes : List (Outcome Input)} {root : Json}
    (h : ∀ outcome ∈ outcomes, root.member? outcome.target = outcome.value) :
    written outcomes root = root := by
  induction outcomes with
  | nil => rfl
  | cons outcome rest ih =>
      change written rest (root.putChild outcome.value outcome.target) = root
      rw [← h outcome (by simp), Json.putChild_member?]
      exact ih fun other hother => h other (by simp [hother])

namespace TypedSpec

variable [InputAggregate Input] {spec : TypedSpec Input}

/-- What a parse has left parses to the same `Input`, and stays as it is. -/
theorem parse_again (hframes : ∀ f ∈ spec.fields, f.ModifiersFrame)
    (hsettles : ∀ f ∈ spec.fields, f.Settles) (hindependent : independent spec.fields = true)
    {root root' : Json} {input : Input} (hrun : spec.parse root = .ok input root') :
    spec.parse root' = .ok input root' := by
  obtain ⟨hcollect, rfl⟩ := (parse_eq_ok_iff hindependent).mp hrun
  have hsame := samePresence_written (spec.outcomes root) root
  have hapart := pairwise_apart hindependent
  have hagain : ∀ f ∈ effectiveFields spec.fields,
      f.outcome (written (spec.outcomes root) root) = f.outcome root := by
    intro f hf
    have hfield := mem_of_mem_effectiveFields hf
    obtain ⟨update, hupdate⟩ := result_of_collect hcollect (List.mem_map_of_mem hf)
    rw [← Field.outcome_again (hframes f hfield) (hsettles f hfield) hupdate]
    have hput := samePresence_putChild root (f.outcome root).value (f.outcome root).target
    refine Field.outcome_congr ((hput.symm.trans hsame).fieldGuarded _) ?_
    exact fun key hkey => member?_written hapart hf hkey
  have houtcomes : spec.outcomes (written (spec.outcomes root) root) = spec.outcomes root :=
    List.map_congr_left hagain
  refine (parse_eq_ok_iff hindependent).mpr ⟨by rwa [houtcomes], ?_⟩
  rw [houtcomes]
  refine (written_eq_self ?_).symm
  intro outcome hmem
  obtain ⟨f, hf, rfl⟩ := List.mem_map.mp hmem
  refine (member?_written hapart hf (f.target_mem_ownKeys root)).trans ?_
  have hparts := f.outcome_within (hframes f (mem_of_mem_effectiveFields hf)) root
  exact Json.member?_putChild_same hparts.isSome

end TypedSpec

/-! ## What is asked of the fields of a spec -/

/-- The items put scalars in the place of leaves, and take what they have left for what
it is. -/
structure Normalizes (items : List (Item α)) : Prop where
  frames : AllModifiers Frames items
  stable : Stable items

namespace Field

omit [Build] [LibXrpl]

/-- What the field rewrites stays in its frame and is settled by one run. -/
def Normalizes (field : Field Input) : Prop := field.ModifiersFrame ∧ field.Settles

theorem normalizes_of_not_rewrites {field : Field Input} (h : field.rewrites = false) :
    field.Normalizes :=
  ⟨modifiersFrame_of_noPaths (modifierPaths_of_not_rewrites h),
    settles_of_noPaths (modifierPaths_of_not_rewrites h)⟩

theorem normalizes_field {Value : Type} {key : String} {member : Member Input Value}
    {items : List (Item Value)} {conv : Converter Value} {unguarded}
    (h : Dsl.Normalizes items) : (field key member items conv unguarded).Normalizes :=
  ⟨h.frames, h.stable⟩

end Field

namespace TypedSpec

variable [InputAggregate Input] {spec : TypedSpec Input}

omit [Build] [LibXrpl]

/-- What `leavesFrame` and `parse_again` rely on. -/
structure Normalizes (spec : TypedSpec Input) : Prop where
  fields : ∀ f ∈ spec.fields, f.Normalizes
  independent : independent spec.fields = true
  onlyBound : onlyBoundRewrite spec.fields = true

/-- Only the fields that rewrite need a proof of their own. -/
theorem Normalizes.of_writers (writers : List (Field Input))
    (hwriters : spec.fields.filter Field.rewrites = writers)
    (hindependent : Dsl.independent spec.fields = true)
    (honlyBound : onlyBoundRewrite spec.fields = true)
    (h : writers.Forall Field.Normalizes) : spec.Normalizes := by
  refine ⟨?_, hindependent, honlyBound⟩
  intro f hf
  cases hrewrites : f.rewrites with
  | false => exact Field.normalizes_of_not_rewrites hrewrites
  | true =>
      refine List.forall_iff_forall_mem.mp h f ?_
      rw [← hwriters, List.mem_filter]
      exact ⟨hf, hrewrites⟩

end TypedSpec

end RpcSpec.Dsl
