import RpcSpec.Dsl.Locality
import RpcSpec.Foundation.Matching
set_option autoImplicit false

/-!
# Items that do alike

Two items run on one value, found under two keys.  `K` says which pairs of keys are
meant and `E` how the errors may differ; with the full relation for `E` all that counts
is what is accepted, and what it is rewritten to.

`ItemsAlike.runProcessors` carries alikeness from the functions of the items to a whole
run; each combinator has its lemma, so that a list of items is shown alike by naming its
parts.
-/

namespace RpcSpec.Dsl

open RpcSpec.Foundation

variable {α : Type}

/-- One value, found under two keys in the relation. -/
structure SameValue (K : String → String → Prop) (v v' : FieldView) : Prop where
  value : v'.value = v.value
  key : K v.key v'.key

/-- The items have the same roles, and play them alike. -/
structure Item.Alike (K : String → String → Prop) (E : Failure → Failure → Prop)
    (item item' : Item α) : Prop where
  isRequirement : item'.isRequirement = item.isRequirement
  isModifier : item'.isModifier = item.isModifier
  verify : ∀ v v', SameValue K v v' → Matches E Eq (item.verify v) (item'.verify v')
  modify : RunsMatch (SameValue K) E Eq item.modify item'.modify

/-- Item by item. -/
def ItemsAlike (K : String → String → Prop) (E : Failure → Failure → Prop)
    (items items' : List (Item α)) : Prop :=
  List.Forall₂ (Item.Alike K E) items items'

/-- Field by field, each under its own key. -/
def SectionAlike (K : String → String → Prop) (E : Failure → Failure → Prop)
    (subFields subFields' : List (FieldSpec α)) : Prop :=
  List.Forall₂ (fun field field' => field'.key = field.key ∧
    ItemsAlike K E field.items field'.items) subFields subFields'

variable {K : String → String → Prop} {E : Failure → Failure → Prop}

namespace SameValue

variable {v v' : FieldView}

/-- Fields with the same value are present together. -/
theorem present (h : SameValue K v v') : v'.present = v.present := by
  rw [FieldView.present, h.value, FieldView.present]

/-- They have the same JSON type. -/
theorem is (h : SameValue K v v') (t : JsonType) : v'.is t = v.is t := by
  obtain ⟨key, value⟩ := v
  obtain ⟨key', value'⟩ := v'
  obtain rfl : value' = value := h.value
  rfl

theorem isObject (h : SameValue K v v') : v'.isObject = v.isObject := h.is .object

/-- Below the value only its own keys are seen. -/
theorem child (h : SameValue K v v') (key : String) : v'.child key = v.child key := by
  rw [FieldView.child, h.value, FieldView.child]

end SameValue

/-! ## Steps of a requirement -/

section Steps

variable {code code' : CombinedError} {message message' : String}

/-- Two rejections under one condition match when their errors do. -/
theorem rejectIf_match (h : E (unexpected code message) (unexpected code' message'))
    (bad : Bool) : Matches E Eq (rejectIf bad code message) (rejectIf bad code' message') := by
  cases bad with
  | true => exact .error h
  | false => exact .ok rfl

/-- Two readings that fail together match when their errors do. -/
theorem orReject_match {β : Type} (h : E (unexpected code message) (unexpected code' message'))
    (decoded : Option β) :
    Matches E Eq (orReject decoded code message) (orReject decoded code' message') := by
  cases decoded with
  | none => exact .error h
  | some b => exact .ok rfl

/-- A body that runs on present fields only matches another when the bodies match. -/
theorem ifPresent_match {v v' : FieldView} (hv : SameValue K v v') {body body' : MaybeError}
    (h : Matches E Eq body body') : Matches E Eq (ifPresent v body) (ifPresent v' body') := by
  unfold ifPresent
  rw [hv.present]
  split
  · exact .ok rfl
  · exact h

end Steps

/-! ## Runs of items -/

/-- Alike items are both checks, both modifiers, or both neither, and run in step. -/
theorem Item.Alike.callIfProcessor {item item' : Item α} (h : item.Alike K E item') :
    RunsMatch (SameValue K) E Eq (callIfProcessor item) (Dsl.callIfProcessor item') := by
  unfold Dsl.callIfProcessor
  rw [h.isRequirement, h.isModifier]
  split
  · exact .get_bind fun v v' hv => .monadLift (h.verify v v' hv)
  · split
    · exact h.modify
    · exact .pure rfl

namespace ItemsAlike

variable {items items' : List (Item α)}

/-- Alike lists process a field in step. -/
theorem runProcessors (h : ItemsAlike K E items items') :
    RunsMatch (SameValue K) E Eq (runProcessors items) (Dsl.runProcessors items') := by
  induction h with
  | nil => simpa only [runProcessors_nil] using .pure rfl
  | cons hitem _ ih =>
      rw [runProcessors_cons, runProcessors_cons]
      exact hitem.callIfProcessor.bind fun _ _ _ => ih

theorem anyRequirement_eq (h : ItemsAlike K E items items') :
    anyRequirement items' = anyRequirement items := by
  induction h with
  | nil => rfl
  | cons hitem _ ih => rw [anyRequirement, anyRequirement, hitem.isRequirement, ih]

theorem anyModifier_eq (h : ItemsAlike K E items items') :
    anyModifier items' = anyModifier items := by
  induction h with
  | nil => rfl
  | cons hitem _ ih => rw [anyModifier, anyModifier, hitem.isModifier, ih]

/-- The requirements of alike lists give matching verdicts. -/
theorem verifyAll (h : ItemsAlike K E items items') {v v' : FieldView} (hv : SameValue K v v') :
    Matches E Eq (verifyAll items v) (Dsl.verifyAll items' v') := by
  induction h with
  | nil => simpa only [Dsl.verifyAll] using .ok rfl
  | cons hitem _ ih =>
      rw [Dsl.verifyAll, Dsl.verifyAll, hitem.isRequirement]
      split
      · exact (hitem.verify v v' hv).bind fun _ _ _ => ih
      · exact ih

/-- The modifiers of alike lists rewrite a field in step. -/
theorem modifyAll (h : ItemsAlike K E items items') :
    RunsMatch (SameValue K) E Eq (modifyAll items) (Dsl.modifyAll items') := by
  induction h with
  | nil => simpa only [Dsl.modifyAll] using .pure rfl
  | cons hitem _ ih =>
      rw [Dsl.modifyAll, Dsl.modifyAll, hitem.isModifier]
      split
      · exact hitem.modify.bind fun _ _ _ => ih
      · exact ih

end ItemsAlike

/-- Alike sections process the members of an object in step. -/
theorem processNested_match (hK : ∀ key, K key key) {subFields subFields' : List (FieldSpec α)}
    (h : SectionAlike K E subFields subFields') :
    RunsMatch (SameValue K) E Eq (processNested subFields) (processNested subFields') := by
  induction h with
  | nil => simpa only [processNested] using .pure rfl
  | @cons field field' _ _ hfield _ ih =>
      obtain ⟨key, items⟩ := field
      obtain ⟨key', items'⟩ := field'
      obtain ⟨hkey, hitems⟩ := hfield
      obtain rfl : key' = key := hkey
      rw [processNested, processNested]
      refine RunsMatch.bind (R := Eq) ?_ fun _ _ _ => ih
      refine hitems.runProcessors.zoom ?_ ?_
      · intro v v' hv
        exact ⟨congrArg FieldView.value (hv.child key'), hK key'⟩
      · intro v v' child child' hv hchild
        refine ⟨?_, hv.key⟩
        simp only [FieldView.putChild, hv.value, hchild.value]

/-! ## Combinators -/

namespace Item.Alike

/-- What plays no role is alike. -/
theorem of_neither {item item' : Item α} (hrequirement : item.isRequirement = false)
    (hmodifier : item.isModifier = false) (hrequirement' : item'.isRequirement = false)
    (hmodifier' : item'.isModifier = false)
    (hverify : ∀ v v', item.verify v = .ok () ∧ item'.verify v' = .ok ())
    (hmodify : item.modify = pure () ∧ item'.modify = pure ()) : item.Alike K E item' where
  isRequirement := by rw [hrequirement, hrequirement']
  isModifier := by rw [hmodifier, hmodifier']
  verify v v' _ := by
    rw [(hverify v v').1, (hverify v v').2]
    exact .ok rfl
  modify := by
    rw [hmodify.1, hmodify.2]
    exact .pure rfl

/-- Two requirements are alike when their checks match on every field. -/
theorem requirement {verify verify' : FieldView → MaybeError}
    (h : ∀ v v', SameValue K v v' → Matches E Eq (verify v) (verify' v')) :
    (Item.requirement verify : Item α).Alike K E (.requirement verify') where
  isRequirement := by simp only [Item.isRequirement]
  isModifier := by simp only [Item.isModifier]
  verify v v' hv := by simpa only [Item.verify] using h v v' hv
  modify := by simpa only [Item.modify] using .pure rfl

/-- Two modifiers are alike when they run in step. -/
theorem modifier {modify modify' : EStateM Failure FieldView Unit}
    (h : RunsMatch (SameValue K) E Eq modify modify') :
    (Item.modifier modify : Item α).Alike K E (.modifier modify') where
  isRequirement := by simp only [Item.isRequirement]
  isModifier := by simp only [Item.isModifier]
  verify v v' hv := by simpa only [Item.verify] using .ok rfl
  modify := by simpa only [Item.modify] using h

/-- A replaced error keeps items alike when the replacements match. -/
theorem withCustomError {wrapped wrapped' : Item α} (h : wrapped.Alike K E wrapped')
    {code code' : CombinedError} {message message' : String}
    (hE : ∀ e e', E e e' → E (customFailure code message e) (customFailure code' message' e')) :
    (withCustomError wrapped code message).Alike K E (Dsl.withCustomError wrapped' code' message')
    where
  isRequirement := by simpa only [Dsl.withCustomError, Item.isRequirement] using h.isRequirement
  isModifier := by simpa only [Dsl.withCustomError, Item.isModifier] using h.isModifier
  verify v v' hv := by
    simpa only [Dsl.withCustomError, Item.verify] using (h.verify v v' hv).mapError hE
  modify := by simpa only [Dsl.withCustomError, Item.modify] using h.modify.mapFailure hE

theorem ifType {items items' : List (Item α)} (h : ItemsAlike K E items items') (t : JsonType) :
    (ifType t items).Alike K E (Dsl.ifType t items') where
  isRequirement := by simp only [Dsl.ifType, Item.isRequirement]
  isModifier := by simp only [Dsl.ifType, Item.isModifier]
  verify v v' _ := by simpa only [Dsl.ifType, Item.verify] using .ok rfl
  modify := by
    simp only [Dsl.ifType, Item.modify]
    refine .get_bind ?_
    intro v v' hv
    rw [hv.present, hv.is t]
    split
    · exact .pure rfl
    · exact h.runProcessors

/-- Sections with alike subfields are alike. -/
theorem section_ (hK : ∀ key, K key key) (hE : ∀ e, E e e)
    {subFields subFields' : List (FieldSpec α)} (h : SectionAlike K E subFields subFields') :
    (section_ subFields).Alike K E (Dsl.section_ subFields') where
  isRequirement := by simp only [Dsl.section_, Item.isRequirement]
  isModifier := by simp only [Dsl.section_, Item.isModifier]
  verify v v' _ := by simpa only [Dsl.section_, Item.verify] using .ok rfl
  modify := by
    simp only [Dsl.section_, Item.modify]
    refine .get_bind ?_
    intro v v' hv
    rw [hv.present, hv.isObject]
    split
    · exact .pure rfl
    · split
      · exact .throw (hE _)
      · exact processNested_match hK h

/-- Build-conditional lists are alike when their items are and both are active together. -/
theorem serverConditional {items items' : List (Item α)} (h : ItemsAlike K E items items')
    (active : Bool) :
    (Item.serverConditional active items).Alike K E (.serverConditional active items') where
  isRequirement := by simpa only [Item.isRequirement] using h.anyRequirement_eq
  isModifier := by simpa only [Item.isModifier] using h.anyModifier_eq
  verify v v' hv := by
    simp only [Item.verify]
    split
    · exact h.verifyAll hv
    · exact .ok rfl
  modify := by
    simp only [Item.modify]
    split
    · exact h.modifyAll
    · exact .pure rfl

theorem single {item item' : Item α} (h : item.Alike K E item') :
    ItemsAlike K E [item] [item'] := .cons h .nil

end Item.Alike

end RpcSpec.Dsl
