import RpcSpec.Foundation.Agreement
import RpcSpec.Dsl.Locality
import RpcSpec.Dsl.Modifiers
set_option autoImplicit false

/-!
# Specs that narrow others

A spec narrows another when it accepts no more: what it accepts the other accepts with
the same `Input` and the same request left, and both warn alike.  A spec made by `extend`
narrows its base when each override narrows the field it takes the place of.

`TypedSpec.narrows_extend` is the rule, and `narrows_field` reduces it to the items and
the converter of a field that is overridden.
-/

namespace RpcSpec.Dsl

open RpcSpec.Foundation FieldView

/-- What the first converter returns the second returns too. -/
def Converter.Narrows {Value : Type} (conv conv' : Converter Value) : Prop :=
  ∀ v value, conv.parse v = .ok value → conv'.parse v = .ok value

variable [Build] [LibXrpl] {Input : Type}

/-- What the first field accepts the second accepts, to the same effect. -/
structure Field.Narrows (f g : Field Input) : Prop where
  key : f.key = g.key
  parseOne : ∀ out root input root', f.parseOne out root = .ok input root' →
    g.parseOne out root = .ok input root'
  check : ∀ root, f.check root = g.check root

theorem Field.Narrows.refl (f : Field Input) : f.Narrows f :=
  ⟨rfl, fun _ _ _ _ h => h, fun _ => rfl⟩

/-- What the first spec accepts the second accepts with the same `Input`, leaving the same
request, and the two warn alike. -/
structure TypedSpec.Narrows [InputAggregate Input] (spec spec' : TypedSpec Input) : Prop where
  parse : ∀ root input root', spec.parse root = .ok input root' → spec'.parse root = .ok input root'
  check : ∀ root, spec.check root = spec'.check root

theorem foldlM_parseOne_narrows {fields fields' : List (Field Input)}
    (h : List.Forall₂ Field.Narrows fields fields') {out input : Input} {root root' : Json}
    (hrun : fields.foldlM (fun out field => field.parseOne out) out root = .ok input root') :
    fields'.foldlM (fun out field => field.parseOne out) out root = .ok input root' := by
  induction h generalizing out root with
  | nil => exact hrun
  | @cons f g rest rest' hfield _ ih =>
      rw [List.foldlM_cons] at hrun ⊢
      change EStateM.bind _ _ root = _ at hrun
      change EStateM.bind _ _ root = _
      unfold EStateM.bind at hrun ⊢
      cases hone : f.parseOne out root with
      | error failure root₁ =>
          rw [hone] at hrun
          cases hrun
      | ok out₁ root₁ =>
          rw [hone] at hrun
          rw [hfield.parseOne _ _ _ _ hone]
          exact ih hrun

theorem narrows_extend [InputAggregate Input] {base : TypedSpec Input} {extra : List (Field Input)}
    {complete} (h : ∀ f ∈ extra, ∃ g, lastWith Field.key base.fields f.key = some g ∧ f.Narrows g) :
    (extend base extra complete).Narrows base := by
  have hfields := forall₂_lastWins_append Field.Narrows.refl (fun f g hfg => hfg.key) h
  rw [← effectiveFields_eq_lastWins, ← effectiveFields_eq_lastWins] at hfields
  refine ⟨fun root input root' => foldlM_parseOne_narrows hfields, fun root => ?_⟩
  rw [TypedSpec.check, TypedSpec.check, extend]
  generalize effectiveFields (base.fields ++ extra) = fields at hfields
  generalize effectiveFields base.fields = fields' at hfields
  induction hfields with
  | nil => rfl
  | cons hfield _ ih => rw [List.flatMap_cons, List.flatMap_cons, hfield.check, ih]

/-! ## Overrides that only check -/

omit [Build] [LibXrpl] in
theorem parseAt_narrows {f g : BoundField Input} {key : String} (hpaths : itemsPaths f.items = [])
    (hpaths' : itemsPaths g.items = [])
    (hskips : ∀ root, skipsField f.items root = skipsField g.items root)
    (hview : ∀ v update, f.onView v = .ok update → g.onView v = .ok update) {out input : Input}
    {root root' : Json} (h : f.parseAt key out root = .ok input root') :
    g.parseAt key out root = .ok input root' := by
  rw [BoundField.parseAt_eq] at h ⊢
  have hvalue : (f.outcomeAt key root).value = (g.outcomeAt key root).value := by
    rw [Field.value_outcomeAt_of_noPaths hpaths, Field.value_outcomeAt_of_noPaths hpaths']
  have hresult : ∀ update, (f.outcomeAt key root).result = .ok update →
      (g.outcomeAt key root).result = .ok update := by
    intro update hupdate
    rw [BoundField.outcomeAt, ← hskips]
    rw [BoundField.outcomeAt] at hupdate
    dsimp only at hupdate ⊢
    split
    · rwa [if_pos ‹_›] at hupdate
    · rw [if_neg ‹_›] at hupdate
      exact hview _ update hupdate
  rw [Outcome.run] at h ⊢
  cases hupdate : (f.outcomeAt key root).result with
  | error failure =>
      rw [hupdate] at h
      cases h
  | ok update =>
      rw [hupdate] at h
      rw [hresult update hupdate, ← hvalue]
      exact h

/-- An override under the same name and for the same member, whose checks accept no more
and whose converter narrows the other one. -/
theorem narrows_field {Value : Type} {key : String} {member : Member Input Value}
    {items items' : List (Item Value)} {conv conv' : Converter Value} {unguarded unguarded'}
    (hpaths : itemsPaths items = []) (hpaths' : itemsPaths items' = [])
    (hskips : ∀ root, skipsField items root = skipsField items' root)
    (hchecks : ∀ v, runChecks items v = runChecks items' v)
    (hdefaults : (⟨key, member, items, conv, unguarded⟩ : BoundField Input).applyDefaults =
      (⟨key, member, items', conv', unguarded'⟩ : BoundField Input).applyDefaults)
    (hitems : ∀ v, runProcessors items v = .ok () v →
      (v.present = true → Returns (conv.parse v)) → runProcessors items' v = .ok () v)
    (hconv : conv.Narrows conv') :
    (field key member items conv unguarded).Narrows (field key member items' conv' unguarded') where
  key := rfl
  check root := by
    change BoundField.checkAt _ key root = BoundField.checkAt _ key root
    simp only [BoundField.checkAt, hskips, hchecks]
  parseOne out root input root' h := by
    refine parseAt_narrows hpaths hpaths' hskips ?_ h
    intro v update hupdate
    unfold BoundField.onView at hupdate ⊢
    dsimp only at hupdate ⊢
    cases hrun : runProcessors items v with
    | error failure v' =>
        rw [hrun] at hupdate
        cases hupdate
    | ok _ v' =>
        obtain rfl := (endState_of_ok hrun).symm.trans (runProcessors_readOnly hpaths v)
        rw [hrun] at hupdate
        dsimp only at hupdate
        cases hpresent : v'.present with
        | false =>
            rw [hitems v' hrun (by simp [hpresent])]
            simp only [hpresent, Bool.not_false, if_true] at hupdate ⊢
            rw [← hupdate, hdefaults]
        | true =>
            simp only [hpresent, Bool.not_true, Bool.false_eq_true, if_false] at hupdate
            cases hvalue : conv.parse v' with
            | error failure =>
                rw [hvalue] at hupdate
                cases hupdate
            | ok value =>
                rw [hitems v' hrun fun _ => ⟨value, hvalue⟩]
                simp only [hpresent, Bool.not_true, Bool.false_eq_true, if_false]
                rw [hconv v' value hvalue, ← hupdate, hvalue]

end RpcSpec.Dsl
