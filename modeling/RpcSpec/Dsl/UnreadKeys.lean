import RpcSpec.Dsl.ParseFrame
import RpcSpec.Foundation.Lockstep
set_option autoImplicit false

/-!
# Keys a field does not read

Two requests that differ only under some keys are the same to a field that neither reads
one of these keys nor has a guard on one: it answers alike, warns alike, and leaves what
stands under them.

`Field.Ignores` is the condition, and `Ignores.lockstep`, `Ignores.check_eq` and
`Ignores.keeps` are its three consequences.
-/

namespace RpcSpec.Dsl

open RpcSpec.Foundation FieldView

variable {Input : Type}

/-! ## Requests that differ under some keys -/

/-- The requests agree under every other key. -/
def AgreeOff (keys : List String) (root root' : Json) : Prop :=
  ∀ key, key ∉ keys → root'.member? key = root.member? key

/-- What stands under the keys is as it was. -/
def KeepsUnder (keys : List String) (root root' : Json) : Prop :=
  ∀ key ∈ keys, root'.member? key = root.member? key

theorem KeepsUnder.refl (keys : List String) (root : Json) : KeepsUnder keys root root :=
  fun _ _ => rfl

theorem KeepsUnder.trans {keys : List String} (root root' root'' : Json)
    (h : KeepsUnder keys root root') (h' : KeepsUnder keys root' root'') :
    KeepsUnder keys root root'' := fun key hkey => (h' key hkey).trans (h key hkey)

section Requests

variable {keys : List String} {root root' : Json} {target : String}

/-- A member written on both sides keeps them in agreement off the keys. -/
theorem AgreeOff.putChild (h : AgreeOff keys root root') (value : Option Json)
    (htarget : target ∉ keys) :
    AgreeOff keys (root.putChild value target) (root'.putChild value target) := by
  intro key hkey
  by_cases hne : key = target
  · rw [hne, Json.member?_putChild_self, Json.member?_putChild_self, h target htarget]
  · rw [Json.member?_putChild_ne hne, Json.member?_putChild_ne hne, h key hkey]

theorem KeepsUnder.putChild (root : Json) (value : Option Json) (htarget : target ∉ keys) :
    KeepsUnder keys root (root.putChild value target) := by
  intro key hkey
  have hne : key ≠ target := by
    rintro rfl
    exact htarget hkey
  exact Json.member?_putChild_ne hne _ _

end Requests

/-! ## Fields -/

namespace Field

/-- Whether a guard of the field asks for the key. -/
def guardsKey (key : String) : Field Input → Bool
  | .bound field => anyGuardsKey key field.items
  | .aliased _ field => anyGuardsKey key field.items
  | .ledgerSelector _ => false
  | .unbound _ => false

/-- The field does not read the keys, and none of its guards asks for one. -/
structure Ignores (keys : List String) (field : Field Input) : Prop where
  own : ∀ key ∈ keys, key ∉ field.ownKeys
  guards : ∀ key ∈ keys, field.guardsKey key = false

variable {keys : List String} {field : Field Input} {root root' : Json}

theorem sameGuarded_of_agreeOff (hguards : ∀ key ∈ keys, field.guardsKey key = false)
    (hoff : AgreeOff keys root root') : field.SameGuarded root root' := by
  have hpresent (key : String) (hkey : field.guardsKey key = true) :
      (rootChild root' key).present = (rootChild root key).present := by
    refine congrArg Option.isSome (hoff key ?_)
    intro hmem
    rw [hguards key hmem] at hkey
    cases hkey
  cases field with
  | bound field => exact hpresent
  | aliased alternateKey field => exact hpresent
  | ledgerSelector member => trivial
  | unbound field => trivial

variable [Build] [LibXrpl]

namespace Ignores

/-- The outcome does not depend on members the field ignores. -/
theorem outcome_eq (h : field.Ignores keys) (hoff : AgreeOff keys root root') :
    field.outcome root' = field.outcome root :=
  outcome_congr (sameGuarded_of_agreeOff h.guards hoff) fun key hown =>
    hoff key fun hmem => h.own key hmem hown

omit [LibXrpl] in
/-- Nor do the warnings. -/
theorem check_eq (h : field.Ignores keys) (hoff : AgreeOff keys root root') :
    field.check root' = field.check root :=
  check_congr (sameGuarded_of_agreeOff h.guards hoff) fun key hown =>
    congrArg Option.isSome (hoff key fun hmem => h.own key hmem hown)

theorem target_not_mem (h : field.Ignores keys) (root : Json) :
    (field.outcome root).target ∉ keys := fun hmem =>
  h.own _ hmem (field.target_mem_ownKeys root)

theorem lockstep (h : field.Ignores keys) (out : Input) :
    Lockstep (AgreeOff keys) (field.parseOne out) := by
  intro root root' hoff
  have houtcome := h.outcome_eq hoff
  have hput := hoff.putChild (field.outcome root).value (h.target_not_mem root)
  simp only [endState, field.parseOne_eq, Outcome.run, houtcome]
  cases (field.outcome root).result <;> exact ⟨rfl, hput⟩

/-- The members the field ignores stay as they were sent. -/
theorem keeps (h : field.Ignores keys) (out : Input) :
    Moves (KeepsUnder keys) (field.parseOne out) := by
  intro root
  have hput := KeepsUnder.putChild root (field.outcome root).value (h.target_not_mem root)
  simp only [endState, field.parseOne_eq, Outcome.run]
  cases (field.outcome root).result <;> exact hput

end Ignores

end Field

end RpcSpec.Dsl
