import RpcSpec.Dsl.UnreadKeys
import RpcSpec.Dsl.AliasRenaming
set_option autoImplicit false

/-!
# What a spec reads of a request

The fields that are dispatched read the values under their own keys, and of the keys their
guards ask for whether they are there.  Whatever else a request holds, and in whatever order,
is neither looked at nor touched.

`seesOnly_of_sameRead` is the result: two requests that agree on these keys are answered
alike, with the same warnings, and keep every other member.
-/

namespace RpcSpec.Dsl

open RpcSpec.Foundation FieldView

variable {Input : Type}

/-! ## One field -/

namespace Field

/-- Nothing the field looks at is different in the other request. -/
structure SameRead (field : Field Input) (root root' : Json) : Prop where
  own : ∀ key ∈ field.ownKeys, root'.member? key = root.member? key
  guards : field.SameGuarded root root'

section Writes

variable {field : Field Input} {root root' : Json}

theorem SameGuarded.of_presence {next next' : Json} (h : field.SameGuarded root root')
    (hnext : SamePresence root next) (hnext' : SamePresence root' next') :
    field.SameGuarded next next' := by
  cases field with
  | bound field => exact fun key hkey => (hnext' key).trans ((h key hkey).trans (hnext key).symm)
  | aliased alternateKey field =>
      exact fun key hkey => (hnext' key).trans ((h key hkey).trans (hnext key).symm)
  | ledgerSelector member => trivial
  | unbound field => trivial

/-- Writing the same under one key keeps two requests alike to a field that sees them
alike, if under that key they are the same. -/
theorem SameRead.putChild (h : field.SameRead root root') {target : String}
    (htarget : root'.member? target = root.member? target) (value : Option Json) :
    field.SameRead (root.putChild value target) (root'.putChild value target) where
  own key hkey := by
    by_cases hne : key = target
    · rw [hne, Json.member?_putChild_self, Json.member?_putChild_self, htarget]
    · rw [Json.member?_putChild_ne hne, Json.member?_putChild_ne hne, h.own key hkey]
  guards := h.guards.of_presence (samePresence_putChild root value target)
    (samePresence_putChild root' value target)

end Writes

variable [Build] [LibXrpl]

theorem keepsUnder {field : Field Input} {keys : List String}
    (h : ∀ key ∈ keys, key ∉ field.ownKeys) (out : Input) :
    Moves (KeepsUnder keys) (field.parseOne out) := by
  intro root
  have htarget : (field.outcome root).target ∉ keys := fun hmem =>
    h _ hmem (field.target_mem_ownKeys root)
  have hput := KeepsUnder.putChild root (field.outcome root).value htarget
  simp only [endState, field.parseOne_eq, Outcome.run]
  cases (field.outcome root).result <;> exact hput

end Field

/-! ## A spec -/

namespace TypedSpec

variable [InputAggregate Input]

/-- Nothing that a field of the spec looks at is different in the other request. -/
def SameRead (spec : TypedSpec Input) (root root' : Json) : Prop :=
  ∀ field ∈ effectiveFields spec.fields, field.SameRead root root'

/-- No field that is dispatched has the key for its own. -/
def NotOwn (spec : TypedSpec Input) (key : String) : Prop :=
  ∀ field ∈ effectiveFields spec.fields, key ∉ field.ownKeys

variable [Build] [LibXrpl]

/-- A field of the spec keeps two requests alike to the others. -/
theorem SameRead.parseOne {spec : TypedSpec Input} {field : Field Input}
    (hmem : field ∈ effectiveFields spec.fields) (out : Input) :
    Lockstep spec.SameRead (field.parseOne out) := by
  intro root root' h
  have houtcome := Field.outcome_congr (h field hmem).guards (h field hmem).own
  have htarget := (h field hmem).own _ (field.target_mem_ownKeys root)
  have hput : spec.SameRead (root.putChild (field.outcome root).value (field.outcome root).target)
      (root'.putChild (field.outcome root).value (field.outcome root).target) :=
    fun other hother => (h other hother).putChild htarget _
  simp only [endState, field.parseOne_eq, Outcome.run, houtcome]
  cases (field.outcome root).result <;> exact ⟨rfl, hput⟩

/-- What the spec does with a request, as far as a caller sees it. -/
structure SeesOnly (spec : TypedSpec Input) (root root' : Json) : Prop where
  answers : answer (spec.parse root') = answer (spec.parse root)
  warnings : spec.check root' = spec.check root
  /-- the requests are left alike -/
  documents : spec.SameRead (endState spec.parse root) (endState spec.parse root')
  /-- what no field has for its own is left as it was -/
  others : ∀ key, spec.NotOwn key →
    (endState spec.parse root').member? key = root'.member? key

/-- Requests in which nothing is different that the spec reads are parsed alike, warned of
alike and left alike, whatever else they hold. -/
theorem seesOnly_of_sameRead (spec : TypedSpec Input) {root root' : Json}
    (h : spec.SameRead root root') : spec.SeesOnly root root' where
  answers := ((Lockstep.foldlM (fun out _ hmem => SameRead.parseOne hmem out)
    InputAggregate.init) root root' h).1.symm
  documents := ((Lockstep.foldlM (fun out _ hmem => SameRead.parseOne hmem out)
    InputAggregate.init) root root' h).2
  warnings := List.flatMap_congr fun field hmem =>
    Field.check_congr (h field hmem).guards fun key hkey =>
      congrArg Option.isSome ((h field hmem).own key hkey)
  others key hkey := by
    have hmoves := Moves.foldlM (KeepsUnder.refl [key]) KeepsUnder.trans
      (fun out field hmem => Field.keepsUnder (by simpa using hkey field hmem) out)
      InputAggregate.init
    exact hmoves root' key (List.mem_singleton_self key)

end TypedSpec

namespace ToggleInput

/-- A field that is skipped where another key is there. -/
def kGuardedSpec : TypedSpec ToggleInput := ⟨[.bound (strictField [ifAbsent "guard"] rfl)], by rfl⟩

/-- A request with the field and its guard's key. -/
def guardedRequest : Json := .object [("strict", .bool true), ("guard", .null)]

/-- The same members, one of them with another value, and one more. -/
def paddedRequest : Json :=
  .object [("id", .int64 7), ("guard", .bool true), ("strict", .bool true)]

theorem kGuardedSpec_seesOnly :
    @TypedSpec.SeesOnly _ _ .clio hexLib kGuardedSpec guardedRequest paddedRequest := by
  refine @TypedSpec.seesOnly_of_sameRead _ _ .clio hexLib kGuardedSpec _ _ ?_
  intro field hmem
  obtain rfl := List.mem_singleton.mp (mem_of_mem_effectiveFields hmem)
  refine ⟨?_, fun key hkey => ?_⟩
  · intro key hkey
    obtain rfl := List.mem_singleton.mp hkey
    rfl
  · have hguard : "guard" = key := by
      simpa [strictField, ifAbsent, anyGuardsKey, Item.guardsKey] using hkey
    rw [← hguard]
    rfl

end ToggleInput

end RpcSpec.Dsl
