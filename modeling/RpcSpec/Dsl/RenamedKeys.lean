import RpcSpec.Dsl.Json
set_option autoImplicit false

/-!
# Objects with their keys renamed

Renaming commutes with looking up a key and with writing below it, as long as no other
key of the object gets its name.

`Json.Separates` is the condition; `member?_renameKeys` and `renameKeys_putChild` are the
two laws, from which the runs under renamed keys are compared.
-/

namespace RpcSpec.Dsl

variable {rename : String → String} {key : String}

section Members

variable {members : List (String × Json)}

/-- The members with their keys renamed. -/
def renameMembers (rename : String → String) (members : List (String × Json)) :
    List (String × Json) :=
  members.map fun entry => (rename entry.1, entry.2)

/-- A member is found under its new name when no other gets that name. -/
theorem lookup_renameMembers
    (h : ∀ entry ∈ members, rename entry.1 = rename key → entry.1 = key) :
    (renameMembers rename members).lookup (rename key) = members.lookup key := by
  induction members with
  | nil => rfl
  | cons entry rest ih =>
      have hbeq : (rename key == rename entry.1) = (key == entry.1) := by
        rw [Bool.eq_iff_iff, beq_iff_eq, beq_iff_eq]
        exact ⟨fun hrename => (h entry (by simp) hrename.symm).symm, congrArg rename⟩
      have hrest := ih fun other hother => h other (by simp [hother])
      rw [renameMembers] at hrest ⊢
      rw [List.map_cons, List.lookup_cons, List.lookup_cons, hbeq, hrest]

theorem renameMembers_putMember (value : Json)
    (h : ∀ entry ∈ members, rename entry.1 = rename key → entry.1 = key) :
    renameMembers rename (putMember key value members) =
      putMember (rename key) value (renameMembers rename members) := by
  induction members with
  | nil => rfl
  | cons entry rest ih =>
      obtain ⟨k, old⟩ := entry
      have hrest := ih fun other hother => h other (by simp [hother])
      have hiff : rename k = rename key ↔ k = key :=
        ⟨h (k, old) (by simp), congrArg rename⟩
      by_cases hk : k = key
      · simp [renameMembers, putMember, hk]
      · simp only [renameMembers, putMember, hk, hiff, if_false, List.map_cons] at hrest ⊢
        rw [hrest]

end Members

namespace Json

/-- The object with its keys renamed; any other document stays as it is. -/
def renameKeys (rename : String → String) : Json → Json
  | .object members => .object (renameMembers rename members)
  | json => json

/-- No other key that is there gets the name of this one. -/
def Separates (rename : String → String) (key : String) (json : Json) : Prop :=
  ∀ other, (json.member? other).isSome = true → rename other = rename key → other = key

theorem Separates.of_injective (h : Function.Injective rename) (key : String) (json : Json) :
    Separates rename key json := fun _ _ heq => h heq

theorem Separates.members {members : List (String × Json)}
    (h : Separates rename key (.object members)) :
    ∀ entry ∈ members, rename entry.1 = rename key → entry.1 = key := by
  intro entry hentry
  refine h entry.1 ?_
  rw [member?, List.lookup_isSome_iff]
  exact ⟨entry, hentry, beq_self_eq_true entry.1⟩

/-- The same on documents. -/
theorem member?_renameKeys {json : Json} (h : Separates rename key json) :
    (json.renameKeys rename).member? (rename key) = json.member? key := by
  cases json with
  | object members => exact lookup_renameMembers h.members
  | _ => rfl

/-- A key that no key is renamed to is not there. -/
theorem member?_renameKeys_eq_none (h : ∀ other, rename other ≠ key) (json : Json) :
    (json.renameKeys rename).member? key = none := by
  cases json with
  | object members =>
      change (renameMembers rename members).lookup key = none
      rw [List.lookup_eq_none_iff]
      rintro _ hentry
      obtain ⟨entry, -, rfl⟩ := List.mem_map.mp hentry
      exact bne_iff_ne.mpr (h entry.1).symm
  | _ => rfl

/-- A member may be put back before or after the renaming. -/
theorem renameKeys_putChild {json : Json} (h : Separates rename key json)
    (value : Option Json) :
    (json.putChild value key).renameKeys rename =
      (json.renameKeys rename).putChild value (rename key) := by
  cases json with
  | object members =>
      cases value with
      | none => rfl
      | some v => exact congrArg Json.object (renameMembers_putMember v h.members)
  | _ => rfl

end Json

end RpcSpec.Dsl
