import RpcSpec.Dsl.Completeness
set_option autoImplicit false

/-!
# Deprecation warnings

The fields a spec looks up at a request, at the root and below sections, and the warnings
that those marked as deprecated call for.  `check` walks the fields of the root alone:
`Section` has no part in it, and `FieldSpec::checkNested` is not called.

`check_complete_iff` says for which requests `check` is complete: its warnings are those
of all the deprecated fields looked up just where none of these is below a section.
-/

namespace RpcSpec.Dsl

open RpcSpec.Foundation FieldView

variable {Input : Type} {α : Type}

/-! ## The deprecated item -/

mutual

/-- How often the item is `deprecated`, in force for the server that is built.  What
`withCustomError` and `ifType` hold are processors, not checks of the field. -/
def Item.deprecatedCount : Item α → Nat
  | .deprecated => 1
  | .serverConditional active inners => if active then deprecatedCount inners else 0
  | _ => 0

def deprecatedCount : List (Item α) → Nat
  | [] => 0
  | item :: rest => item.deprecatedCount + deprecatedCount rest

end

/-- A field at the place where it is looked up. -/
structure Occurrence where
  isDeprecated : Bool
  view : FieldView

/-- The field that has the items, found as the view. -/
def occurrence (items : List (Item α)) (view : FieldView) : Occurrence :=
  ⟨deprecatedCount items != 0, view⟩

/-- The warning a deprecated field calls for where it is there. -/
def Occurrence.warning? [Build] (o : Occurrence) : Option Warning :=
  if o.isDeprecated && o.view.present then
    some ⟨.warnRpcDeprecated, o.view.key, deprecatedMessage o.view.key⟩
  else none

theorem Occurrence.warning?_eq_none_iff [Build] {o : Occurrence} :
    o.warning? = none ↔ (o.isDeprecated = true → o.view.present = false) := by
  unfold warning?
  cases o.isDeprecated <;> cases o.view.present <;> simp

/-! ## Fields looked up -/

mutual

/-- The fields of the sections in the item that are looked up in the value, in the order
they are declared in. -/
def Item.nested : Item α → FieldView → List Occurrence
  | .section_ subFields, fieldView =>
      if fieldView.isObject then fieldsNested subFields fieldView else []
  | .ifType type subItems, fieldView =>
      if fieldView.is type then itemsNested subItems fieldView else []
  | .withCustomError wrapped _ _, fieldView => wrapped.nested fieldView
  | .serverConditional active inners, fieldView =>
      if active then itemsNested inners fieldView else []
  | _, _ => []

/-- The deprecated fields inside sections of the items. -/
def itemsNested : List (Item α) → FieldView → List Occurrence
  | [], _ => []
  | item :: rest, fieldView => item.nested fieldView ++ itemsNested rest fieldView

/-- The deprecated fields inside the subfields. -/
def fieldsNested : List (FieldSpec α) → FieldView → List Occurrence
  | [], _ => []
  | .mk key items :: rest, fieldView =>
      occurrence items (fieldView.child key) :: itemsNested items (fieldView.child key) ++
        fieldsNested rest fieldView

end

/-- What stands under the key of a field: the field itself. -/
def BoundField.ownAt (field : BoundField Input) (key : String) (root : Json) : List Occurrence :=
  if skipsField field.items root then [] else [occurrence field.items (rootChild root key)]

/-- The deprecated fields inside the field's sections, when the field is not skipped. -/
def BoundField.nestedAt (field : BoundField Input) (key : String) (root : Json) :
    List Occurrence :=
  if skipsField field.items root then [] else itemsNested field.items (rootChild root key)

/-- The spelling the request is taken to use. -/
def BoundField.selectedKey (field : BoundField Input) (alternateKey : String) (root : Json) :
    String :=
  if (rootChild root alternateKey).present then alternateKey else field.key

namespace Field

/-- The field at the root, where it is not skipped. -/
def own : Field Input → Json → List Occurrence
  | .bound field, root => field.ownAt field.key root
  | .aliased alternateKey field, root => field.ownAt (field.selectedKey alternateKey root) root
  | .ledgerSelector _, _ => []
  | .unbound field, root => [occurrence field.items (rootChild root field.key)]

/-- The fields of its sections. -/
def nested : Field Input → Json → List Occurrence
  | .bound field, root => field.nestedAt field.key root
  | .aliased alternateKey field, root =>
      field.nestedAt (field.selectedKey alternateKey root) root
  | .ledgerSelector _, _ => []
  | .unbound field, root => itemsNested field.items (rootChild root field.key)

def deprecatedCount : Field Input → Nat
  | .bound field => Dsl.deprecatedCount field.items
  | .aliased _ field => Dsl.deprecatedCount field.items
  | .ledgerSelector _ => 0
  | .unbound field => Dsl.deprecatedCount field.items

end Field

/-- Every deprecated field that is looked up and there, a field ahead of those below it. -/
def deprecations [Build] (effective : List (Field Input)) (root : Json) : Warnings :=
  effective.flatMap fun field =>
    (field.own root ++ field.nested root).filterMap Occurrence.warning?

/-- No field carries `deprecated` twice. -/
def DeprecatedOnce (effective : List (Field Input)) : Prop :=
  ∀ field ∈ effective, field.deprecatedCount ≤ 1

/-- No deprecated field of a section is there. -/
def NoneNested (effective : List (Field Input)) (root : Json) : Prop :=
  ∀ field ∈ effective, ∀ o ∈ field.nested root,
    o.isDeprecated = true → o.view.present = false

/-- The fields that survive `forEachEffectiveField`. -/
def UntypedSpec.effective (spec : UntypedSpec) : List (Field Unit) :=
  (lastWins FieldSpec.key spec.fields).map .unbound

/-- The fields that count. -/
def TypedSpec.effective [InputAggregate Input] (spec : TypedSpec Input) : List (Field Input) :=
  effectiveFields spec.fields

/-! ## What the checks warn of -/

section Checks

variable [Build]

mutual

theorem Item.check_eq (fieldView : FieldView) : ∀ item : Item α,
    item.check fieldView = (Occurrence.mk (item.deprecatedCount != 0) fieldView).warning?
  | .deprecated => by simp [Item.check, Item.deprecatedCount, Occurrence.warning?]
  | .serverConditional active inners => by
      rw [Item.check, Item.deprecatedCount]
      cases active with
      | true => exact firstCheck_eq fieldView inners
      | false => simp [Occurrence.warning?]
  | .requirement _ => by simp [Item.check, Item.deprecatedCount, Occurrence.warning?]
  | .modifier _ => by simp [Item.check, Item.deprecatedCount, Occurrence.warning?]
  | .guard _ => by simp [Item.check, Item.deprecatedCount, Occurrence.warning?]
  | .defaultTo _ => by simp [Item.check, Item.deprecatedCount, Occurrence.warning?]
  | .withCustomError _ _ _ => by simp [Item.check, Item.deprecatedCount, Occurrence.warning?]
  | .ifType _ _ => by simp [Item.check, Item.deprecatedCount, Occurrence.warning?]
  | .section_ _ => by simp [Item.check, Item.deprecatedCount, Occurrence.warning?]

theorem firstCheck_eq (fieldView : FieldView) : ∀ items : List (Item α),
    firstCheck items fieldView = (occurrence items fieldView).warning?
  | [] => by simp [firstCheck, occurrence, deprecatedCount, Occurrence.warning?]
  | item :: rest => by
      rw [firstCheck, Item.check_eq fieldView item, firstCheck_eq fieldView rest, occurrence,
        occurrence, deprecatedCount]
      unfold Occurrence.warning?
      cases item.deprecatedCount with
      | zero => simp
      | succ n => cases fieldView.present <;> simp

end

theorem runChecks_cons (item : Item α) (rest : List (Item α)) (fieldView : FieldView) :
    runChecks (item :: rest) fieldView =
      (item.check fieldView).toList ++ runChecks rest fieldView := by
  rw [runChecks, runChecks, List.filterMap_cons]
  cases item.check fieldView <;> rfl

/-- Items that hold `deprecated` once warn once. -/
theorem runChecks_eq {items : List (Item α)} (honce : deprecatedCount items ≤ 1)
    (fieldView : FieldView) :
    runChecks items fieldView = (occurrence items fieldView).warning?.toList := by
  induction items with
  | nil => simp [runChecks, occurrence, deprecatedCount, Occurrence.warning?]
  | cons item rest ih =>
      rw [deprecatedCount] at honce
      rw [runChecks_cons, ih (by omega), Item.check_eq]
      -- of the item and the rest one at most holds it
      obtain hzero | hone : item.deprecatedCount = 0 ∨ item.deprecatedCount = 1 := by omega
      · simp [occurrence, deprecatedCount, Occurrence.warning?, hzero]
      · have hnone : deprecatedCount rest = 0 := by omega
        simp [occurrence, deprecatedCount, Occurrence.warning?, hone, hnone]

theorem Field.check_eq {field : Field Input} (honce : field.deprecatedCount ≤ 1) (root : Json) :
    field.check root = (field.own root).filterMap Occurrence.warning? := by
  cases field with
  | bound field =>
      have hchecks := runChecks_eq honce (rootChild root field.key)
      rw [check, BoundField.checkAt, own, BoundField.ownAt]
      cases skipsField field.items root with
      | true => rfl
      | false => exact hchecks
  | aliased alternateKey field =>
      have hchecks := runChecks_eq honce (rootChild root (field.selectedKey alternateKey root))
      rw [check, checkAliased, BoundField.checkAt, own, BoundField.ownAt]
      cases skipsField field.items root with
      | true => rfl
      | false => exact hchecks
  | ledgerSelector member => rfl
  | unbound field => exact runChecks_eq honce (rootChild root field.key)

end Checks

/-! ## Completeness -/

/-- Parts added to the lists of a `flatMap` show, wherever they stand. -/
theorem flatMap_eq_append_iff.{u} {β : Type u} {γ : Type} {f g : β → List γ} {l : List β} :
    l.flatMap f = l.flatMap (fun b => f b ++ g b) ↔ ∀ b ∈ l, g b = [] := by
  induction l with
  | nil => simp
  | cons b rest ih =>
      have hle (l : List β) :
          (l.flatMap f).length ≤ (l.flatMap fun b => f b ++ g b).length := by
        induction l with
        | nil => simp
        | cons b rest ih =>
            simp only [List.flatMap_cons, List.length_append]
            omega
      simp only [List.flatMap_cons, List.append_assoc, List.append_cancel_left_eq,
        List.mem_cons, forall_eq_or_imp]
      constructor
      · intro heq
        have hlength := congrArg List.length heq
        rw [List.length_append] at hlength
        have hnil : g b = [] := List.length_eq_zero_iff.mp (by have := hle rest; omega)
        rw [hnil, List.nil_append] at heq
        exact ⟨hnil, ih.mp heq⟩
      · intro hnil
        rw [hnil.1, List.nil_append]
        exact ih.mpr hnil.2

section Completeness

variable [Build]

theorem checks_eq_iff {effective : List (Field Input)} (honce : DeprecatedOnce effective)
    (root : Json) : (effective.flatMap fun field => field.check root) =
      deprecations effective root ↔ NoneNested effective root := by
  have hown : (effective.flatMap fun field => field.check root) =
      effective.flatMap fun field => (field.own root).filterMap Occurrence.warning? :=
    List.flatMap_congr fun field hfield => Field.check_eq (honce field hfield) root
  rw [hown]
  simp only [deprecations, List.filterMap_append]
  refine flatMap_eq_append_iff.trans ?_
  simp only [List.filterMap_eq_nil_iff, Occurrence.warning?_eq_none_iff, NoneNested]

theorem UntypedSpec.check_eq (spec : UntypedSpec) (root : Json) :
    spec.check root = spec.effective.flatMap fun field => field.check root := by
  rw [check, accumulate_append, effective, List.flatMap_map]
  rfl

/-- The warnings of a spec whose fields carry `deprecated` once at most are complete just
at the requests with no deprecated field below a section. -/
theorem check_complete_iff [InputAggregate Input] :
    (∀ spec : UntypedSpec, DeprecatedOnce spec.effective → ∀ root,
      (spec.check root = deprecations spec.effective root ↔ NoneNested spec.effective root)) ∧
    ∀ spec : TypedSpec Input, DeprecatedOnce spec.effective → ∀ root,
      (spec.check root = deprecations spec.effective root ↔ NoneNested spec.effective root) := by
  refine ⟨fun spec honce root => ?_, fun spec honce root => checks_eq_iff honce root⟩
  rw [spec.check_eq]
  exact checks_eq_iff honce root

end Completeness

namespace UntypedSpec

/-- A deprecated field at the root and one below a section. -/
def kNestedSpec : UntypedSpec :=
  ⟨[.mk "ledger" [deprecated], .mk "params" [section_ [.mk "ident" [deprecated]]]]⟩

theorem kNestedSpec_deprecatedOnce : DeprecatedOnce kNestedSpec.effective := by
  intro field hfield
  have heffective : kNestedSpec.effective = [.unbound (.mk "ledger" [deprecated]),
      .unbound (.mk "params" [section_ [.mk "ident" [deprecated]]])] := rfl
  simp only [heffective, List.mem_cons, List.not_mem_nil, or_false] at hfield
  rcases hfield with rfl | rfl <;>
    simp [Field.deprecatedCount, FieldSpec.items, deprecatedCount, deprecated, section_,
      Item.deprecatedCount]

theorem kNestedSpec_complete_iff :
    (∀ root, @check .clio kNestedSpec root = @deprecations _ .clio kNestedSpec.effective root ↔
      NoneNested kNestedSpec.effective root) ∧
    ∀ root, @TypedSpec.check _ _ .clio ToggleInput.kInputSpecV1 root =
      @deprecations _ .clio ToggleInput.kInputSpecV1.effective root ↔
        NoneNested ToggleInput.kInputSpecV1.effective root := by
  obtain ⟨hspec, htyped⟩ := @check_complete_iff ToggleInput .clio _
  refine ⟨hspec kNestedSpec kNestedSpec_deprecatedOnce, htyped ToggleInput.kInputSpecV1 ?_⟩
  intro field hfield
  obtain rfl := List.mem_singleton.mp (mem_of_mem_effectiveFields hfield)
  simp [Field.deprecatedCount, Dsl.field, deprecatedCount]

/-- A request with one deprecated field at the root and one inside a section. -/
def nestedRequest : Json := .object [("ledger", .null), ("params", .object [("ident", .null)])]

/-- Both deprecated fields are there, and the one in the section is not warned of. -/
theorem kNestedSpec_incomplete :
    DeprecatedOnce kNestedSpec.effective ∧
      @check .clio kNestedSpec nestedRequest =
        [⟨.warnRpcDeprecated, "ledger", "Field 'ledger' is deprecated."⟩] ∧
      @deprecations _ .clio kNestedSpec.effective nestedRequest =
        [⟨.warnRpcDeprecated, "ledger", "Field 'ledger' is deprecated."⟩,
          ⟨.warnRpcDeprecated, "ident", "Field 'ident' is deprecated."⟩] ∧
      @check .clio kNestedSpec nestedRequest ≠
        @deprecations _ .clio kNestedSpec.effective nestedRequest := by
  have hcheck : @check .clio kNestedSpec nestedRequest =
      [⟨.warnRpcDeprecated, "ledger", "Field 'ledger' is deprecated."⟩] := rfl
  have hdeprecations : @deprecations _ .clio kNestedSpec.effective nestedRequest =
      [⟨.warnRpcDeprecated, "ledger", "Field 'ledger' is deprecated."⟩,
        ⟨.warnRpcDeprecated, "ident", "Field 'ident' is deprecated."⟩] := rfl
  refine ⟨kNestedSpec_deprecatedOnce, hcheck, hdeprecations, ?_⟩
  intro heq
  have hlength := congrArg List.length heq
  rw [hcheck, hdeprecations] at hlength
  exact absurd hlength (by decide)

end UntypedSpec

end RpcSpec.Dsl
