import RpcSpec.Dsl.KeyTexts
set_option autoImplicit false

/-!
# Lists of items that name the key only in their texts

What the functions of the items do under two keys carries over to the runs and to the
checks of whole lists of items.  Below a section the keys are those of its fields, so
nothing is asked of the items there.

`itemsAlike_of_keyInTexts` makes such a list alike to itself under another key, and
`runChecks_keyed` says the same of its warnings.
-/

namespace RpcSpec.Dsl

open RpcSpec.Foundation

variable {α : Type} {K : String → String → Prop}

mutual

/-- The functions of the item use the key only in the texts of errors. -/
def Item.KeyInTexts (K : String → String → Prop) : Item α → Prop
  | .requirement verify => Dsl.KeyInTexts K verify
  | .modifier modify => RunsMatch (SameValue K) (SameFailure K) Eq modify modify
  | .withCustomError wrapped _ _ => wrapped.KeyInTexts K
  | .ifType _ subItems => ItemsKeyInTexts K subItems
  | .serverConditional _ inners => ItemsKeyInTexts K inners
  | _ => True

/-- Every item of the list uses the key in texts only. -/
def ItemsKeyInTexts (K : String → String → Prop) : List (Item α) → Prop
  | [] => True
  | item :: rest => item.KeyInTexts K ∧ ItemsKeyInTexts K rest

end

/-! ## Runs -/

/-- The fields of a section run on what is below the value, under keys of their own. -/
theorem processNested_same (subFields : List (FieldSpec α)) :
    RunsMatch (SameValue K) (SameFailure K) Eq (processNested subFields)
      (processNested subFields) := by
  induction subFields with
  | nil => simpa only [processNested] using .pure rfl
  | cons field rest ih =>
      obtain ⟨key, items⟩ := field
      rw [processNested]
      refine RunsMatch.bind (R := Eq) ?_ fun _ _ _ => ih
      refine (RunsMatch.same SameFailure.refl (runProcessors items)).zoom
        (fun v v' hv => (hv.child key).symm) ?_
      rintro v v' child _ hv rfl
      refine ⟨?_, hv.key⟩
      simp only [FieldView.putChild, hv.value]

theorem Item.Alike.section_same (subFields : List (FieldSpec α)) :
    (Item.section_ subFields).Alike K (SameFailure K) (.section_ subFields) where
  isRequirement := rfl
  isModifier := rfl
  verify v v' _ := by simpa only [Item.verify] using .ok rfl
  modify := by
    simp only [Item.modify]
    refine .get_bind ?_
    intro v v' hv
    rw [hv.present, hv.isObject]
    split
    · exact .pure rfl
    · split
      · exact .throw (.refl _)
      · exact processNested_same subFields

mutual

/-- An item that uses its key in texts only is alike to itself under another key. -/
theorem Item.KeyInTexts.alike : ∀ {item : Item α}, item.KeyInTexts K →
    item.Alike K (SameFailure K) item
  | .requirement verify, h => by
      rw [Item.KeyInTexts] at h
      exact .requirement h
  | .modifier modify, h => by
      rw [Item.KeyInTexts] at h
      exact .modifier h
  | .withCustomError wrapped code message, h => by
      rw [Item.KeyInTexts] at h
      exact .withCustomError (Item.KeyInTexts.alike h) (SameFailure.custom code message)
  | .ifType t subItems, h => by
      rw [Item.KeyInTexts] at h
      exact .ifType (itemsAlike_of_keyInTexts h) t
  | .serverConditional active inners, h => by
      rw [Item.KeyInTexts] at h
      exact .serverConditional (itemsAlike_of_keyInTexts h) active
  | .section_ subFields, _ => .section_same subFields
  | .deprecated, _ => .of_neither rfl rfl rfl rfl (fun _ _ => ⟨rfl, rfl⟩) ⟨rfl, rfl⟩
  | .guard _, _ => .of_neither rfl rfl rfl rfl (fun _ _ => ⟨rfl, rfl⟩) ⟨rfl, rfl⟩
  | .defaultTo _, _ => .of_neither rfl rfl rfl rfl (fun _ _ => ⟨rfl, rfl⟩) ⟨rfl, rfl⟩

theorem itemsAlike_of_keyInTexts : ∀ {items : List (Item α)}, ItemsKeyInTexts K items →
    ItemsAlike K (SameFailure K) items items
  | [], _ => .nil
  | item :: rest, h => by
      rw [ItemsKeyInTexts] at h
      exact .cons (Item.KeyInTexts.alike h.1) (itemsAlike_of_keyInTexts h.2)

end

/-! ## Checks -/

/-- The same warning, but for the keys it names. -/
structure SameWarning (K : String → String → Prop) (warning warning' : Warning) : Prop where
  code : warning'.code = warning.code
  field : SameText K warning.field warning'.field
  message : SameText K warning.message warning'.message

theorem SameWarning.refl (warning : Warning) : SameWarning K warning warning :=
  ⟨rfl, .same _, .same _⟩

section Checks

variable [Build] {v v' : FieldView}

mutual

/-- A check only asks whether the field is there. -/
theorem Item.check_keyed (hv : SameValue K v v') : ∀ item : Item α,
    Option.Rel (SameWarning K) (item.check v) (item.check v')
  | .deprecated => by
      simp only [Item.check, hv.present]
      split
      · exact .some ⟨rfl, .key hv.key, deprecatedMessage_sameText hv.key⟩
      · exact .none
  | .serverConditional active inners => by
      simp only [Item.check]
      split
      · exact firstCheck_keyed hv inners
      · exact .none
  | .requirement _ => by simpa only [Item.check] using .none
  | .modifier _ => by simpa only [Item.check] using .none
  | .guard _ => by simpa only [Item.check] using .none
  | .defaultTo _ => by simpa only [Item.check] using .none
  | .withCustomError _ _ _ => by simpa only [Item.check] using .none
  | .ifType _ _ => by simpa only [Item.check] using .none
  | .section_ _ => by simpa only [Item.check] using .none

/-- The first warning under either key differs in the key only. -/
theorem firstCheck_keyed (hv : SameValue K v v') : ∀ items : List (Item α),
    Option.Rel (SameWarning K) (firstCheck items v) (firstCheck items v')
  | [] => by simpa only [firstCheck] using .none
  | item :: rest => by
      rw [firstCheck, firstCheck]
      have hitem := Item.check_keyed hv item
      have hrest := firstCheck_keyed hv rest
      generalize item.check v = warning, item.check v' = warning' at hitem
      cases hitem with
      | some h => exact .some h
      | none => exact hrest

end

theorem runChecks_keyed (hv : SameValue K v v') (items : List (Item α)) :
    List.Forall₂ (SameWarning K) (runChecks items v) (runChecks items v') := by
  induction items with
  | nil => exact .nil
  | cons item rest ih =>
      rw [runChecks, runChecks, List.filterMap_cons, List.filterMap_cons]
      have hitem := item.check_keyed hv
      generalize item.check v = warning, item.check v' = warning' at hitem
      cases hitem with
      | some h => exact .cons h ih
      | none => exact ih

end Checks

end RpcSpec.Dsl
