import RpcSpec.Dsl.Overrides
import Mathlib.Data.List.GetD
import Mathlib.Data.List.Nodup
import Mathlib.Data.List.Perm.Subperm
set_option autoImplicit false

/-!
# What the completeness guard of a typed spec covers

The constructor of `TypedSpec` counts the members the fields bind, over all the
fields.  The walks only come to the last field of each key.  A member of the
`Input` is thus left unbound where every field that binds it is overridden.

`covers_iff_overridesKeepMembers` says when every member is bound by a field that counts:
where each field that is overridden is overridden by one that binds the same member.
-/

namespace RpcSpec.Dsl

open RpcSpec.Foundation

variable {Input : Type}

/-! ## The members of an `Input` -/

/-- The names of the members of an `Input` aggregate. -/
class InputMembers (Input : Type) [InputAggregate Input] where
  names : List String
  nodup : names.Nodup
  length_names : names.length = InputAggregate.memberCount Input

/-- Every pointer to a member points to a member. -/
def BindsMembers [InputAggregate Input] [InputMembers Input] (fields : List (Field Input)) : Prop :=
  ∀ field ∈ fields, ∀ name, field.memberName? = some name → name ∈ InputMembers.names Input

/-- Every member is bound by a field that is dispatched. -/
def Covers [InputAggregate Input] [InputMembers Input] (fields : List (Field Input)) : Prop :=
  ∀ name ∈ InputMembers.names Input,
    ∃ field ∈ effectiveFields fields, field.memberName? = some name

/-- A field whose key no later field has. -/
def NotOverridden (fields : List (Field Input)) (field : Field Input) : Prop :=
  ∃ before after, fields = before ++ field :: after ∧ field.key ∉ after.map Field.key

/-- Where a bound field is overridden, one that is not binds its member. -/
def OverridesKeepMembers (fields : List (Field Input)) : Prop :=
  ∀ before field after, fields = before ++ field :: after → field.key ∈ after.map Field.key →
    ∀ name, field.memberName? = some name →
      ∃ other, NotOverridden fields other ∧ other.memberName? = some name

/-! ## What the constructor counts -/

/-- The members the fields bind, each once. -/
def boundMembers (fields : List (Field Input)) : List String :=
  (fields.filterMap Field.memberName?).eraseDups

theorem mem_boundMembers {fields : List (Field Input)} {name : String} :
    name ∈ boundMembers fields ↔ ∃ field ∈ fields, field.memberName? = some name := by
  simp [boundMembers]

theorem distinctBoundMemberCount_concat (fields : List (Field Input)) (field : Field Input) :
    distinctBoundMemberCount (fields ++ [field]) = distinctBoundMemberCount fields +
      if field.memberName?.isSome && !(fields.map Field.memberName?).contains field.memberName?
      then 1 else 0 := by
  simp only [distinctBoundMemberCount, List.map_append, List.map_cons, List.map_nil]
  generalize fields.map Field.memberName? = names
  rw [List.length_append, List.length_singleton, List.range_succ, List.countP_append]
  congr 1
  · apply List.countP_congr
    intro i hi
    have hlt : i < names.length := List.mem_range.mp hi
    rw [List.getD_append _ _ _ _ hlt, List.take_append_of_le_length hlt.le]
  · simp [List.countP_singleton]

/-- The guard counts each bound member once. -/
theorem distinctBoundMemberCount_eq (fields : List (Field Input)) :
    distinctBoundMemberCount fields = (boundMembers fields).length := by
  induction fields using List.reverseRecOn with
  | nil => rfl
  | append_singleton fields field ih =>
      rw [distinctBoundMemberCount_concat, ih]
      unfold boundMembers
      rw [List.filterMap_append]
      cases hname : field.memberName? with
      | none => simp [hname]
      | some name =>
          have hmem : (fields.map Field.memberName?).contains (some name) =
              decide (name ∈ fields.filterMap Field.memberName?) := by simp [List.mem_filterMap]
          rw [hmem, List.filterMap_cons, hname, List.filterMap_nil, eraseDups_concat,
            List.length_append]
          by_cases h : name ∈ fields.filterMap Field.memberName? <;> simp [h]

theorem nodup_boundMembers (fields : List (Field Input)) : (boundMembers fields).Nodup := by
  have hnodup : (firstKeys id (fields.filterMap Field.memberName?)).Nodup := nodup_firstKeys _
  rwa [firstKeys, List.map_id] at hnodup

section

variable [InputAggregate Input] [InputMembers Input]

/-- The guard does see to it that some field binds each member. -/
theorem bound_of_complete {spec : TypedSpec Input} (hbinds : BindsMembers spec.fields)
    {name : String} (hname : name ∈ InputMembers.names Input) :
    ∃ field ∈ spec.fields, field.memberName? = some name := by
  have hsub : boundMembers spec.fields ⊆ InputMembers.names Input := by
    intro name hname
    obtain ⟨field, hfield, hbound⟩ := mem_boundMembers.mp hname
    exact hbinds field hfield name hbound
  have hlength : (InputMembers.names Input).length ≤ (boundMembers spec.fields).length := by
    rw [InputMembers.length_names, ← spec.complete, distinctBoundMemberCount_eq]
  have hperm := ((nodup_boundMembers spec.fields).subperm hsub).perm_of_length_le hlength
  exact mem_boundMembers.mp (hperm.mem_iff.mpr hname)

omit [InputAggregate Input] [InputMembers Input] in
theorem mem_effectiveFields_iff {fields : List (Field Input)} {field : Field Input} :
    field ∈ effectiveFields fields ↔ NotOverridden fields field := by
  rw [effectiveFields_eq_lastWins, mem_lastWins, NotOverridden]

/-- The members are covered just where no override loses one. -/
theorem covers_iff_overridesKeepMembers (spec : TypedSpec Input)
    (hbinds : BindsMembers spec.fields) :
    Covers spec.fields ↔ OverridesKeepMembers spec.fields := by
  constructor
  · intro hcovers before field after heq _ name hname
    have hmember := hbinds field (heq ▸ by simp) name hname
    obtain ⟨other, hother, hsame⟩ := hcovers name hmember
    exact ⟨other, mem_effectiveFields_iff.mp hother, hsame⟩
  · intro hkeep name hname
    obtain ⟨field, hfield, hbound⟩ := bound_of_complete hbinds hname
    obtain ⟨before, after, heq⟩ := List.append_of_mem hfield
    by_cases hkey : field.key ∈ after.map Field.key
    · obtain ⟨other, hother, hsame⟩ := hkeep before field after heq hkey name hbound
      exact ⟨other, mem_effectiveFields_iff.mpr hother, hsame⟩
    · exact ⟨field, mem_effectiveFields_iff.mpr ⟨before, after, heq, hkey⟩, hbound⟩

end

/-! ## A member that an override loses -/

/-- An `Input` with one member. -/
structure ToggleInput where
  strict : JsonBool

namespace ToggleInput

instance : InputAggregate ToggleInput := ⟨⟨false⟩, 1⟩

instance : InputMembers ToggleInput := ⟨["strict"], by simp, rfl⟩

/-- The one member of the input. -/
def strictMember : Member ToggleInput JsonBool := ⟨"strict", fun out strict => { out with strict }⟩

/-- Binds the one member. -/
def kInputSpecV1 : TypedSpec ToggleInput := ⟨[field "strict" strictMember [] jsonBool], by rfl⟩

/-- The bound field overridden by one that only warns. -/
def kInputSpecV2 : TypedSpec ToggleInput :=
  extend kInputSpecV1 [unboundField "strict" [deprecated]] (by rfl)

theorem kInputSpecV2_binds : BindsMembers kInputSpecV2.fields := by
  intro bound hbound name hname
  change bound ∈ [field "strict" strictMember [] jsonBool, unboundField "strict" [deprecated]]
    at hbound
  rcases List.mem_pair.mp hbound with rfl | rfl
  · obtain rfl : "strict" = name := Option.some.inj hname
    exact List.mem_singleton_self _
  · cases hname

theorem kInputSpecV2_covers_iff :
    Covers kInputSpecV2.fields ↔ OverridesKeepMembers kInputSpecV2.fields :=
  covers_iff_overridesKeepMembers kInputSpecV2 kInputSpecV2_binds

theorem kInputSpecV2_not_covers : ¬ Covers kInputSpecV2.fields := by
  intro hcovers
  obtain ⟨bound, hbound, hname⟩ := hcovers "strict" (List.mem_singleton_self _)
  have heffective : effectiveFields kInputSpecV2.fields =
      [unboundField "strict" [deprecated]] := rfl
  rw [heffective, List.mem_singleton] at hbound
  subst hbound
  cases hname

/-- A spec whose constructor succeeds may leave a member unbound. -/
theorem override_loses_member :
    ¬ ∀ spec : TypedSpec ToggleInput, BindsMembers spec.fields → Covers spec.fields :=
  fun h => kInputSpecV2_not_covers (h kInputSpecV2 kInputSpecV2_binds)

end ToggleInput

end RpcSpec.Dsl
