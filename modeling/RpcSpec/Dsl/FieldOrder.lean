import RpcSpec.Foundation.Interchange
import RpcSpec.Dsl.Comparison
set_option autoImplicit false

/-!
# The order of the fields

Fields that keep out of each other's keys may be moved past each other as long as those
bound to one member keep their order: the same requests are accepted, with the same `Input`
and rewritten in the same way, and the same warnings come, in the order of the fields.  Only
which of several errors is reported depends on it.

`Apart.interchange` moves one field past its neighbour and
`TypedSpec.sameButOrder_of_reorder` any number of fields, with the rules for reorderings.
-/

namespace RpcSpec.Dsl

open RpcSpec.Foundation

variable {Input : Type}

/-! ## Writing under two keys -/

/-- Members under different keys may be written in either order. -/
theorem putMember_comm {key key' : String} (hne : key ≠ key') (value value' : Json)
    (members : List (String × Json)) :
    putMember key value (putMember key' value' members) =
      putMember key' value' (putMember key value members) := by
  induction members with
  | nil => rfl
  | cons entry rest ih =>
      obtain ⟨k, old⟩ := entry
      by_cases hk : k = key
      · have hk' : k ≠ key' := fun h => hne (hk.symm.trans h)
        simp [putMember, hk, hne]
      · by_cases hk' : k = key'
        · simp [putMember, hk', hne.symm]
        · simp [putMember, hk, hk', ih]

theorem Json.putChild_comm {key key' : String} (hne : key ≠ key') (value value' : Option Json)
    (json : Json) : (json.putChild value' key').putChild value key =
      (json.putChild value key).putChild value' key' := by
  cases json with
  | object members =>
      cases value <;> cases value' <;> simp [putChild, putMember_comm hne]
  | _ => rfl

namespace Field

/-- The two fields are bound to different members: it does not matter which is assigned to
first. -/
def MembersCommute (f g : Field Input) : Prop :=
  f.OfMember fun member => g.OfMember fun member' => ∀ out value value',
    member'.assign (member.assign out value) value' =
      member.assign (member'.assign out value') value

variable [Build] [LibXrpl] {f g : Field Input}

/-- The updates of two fields with commuting members commute. -/
theorem MembersCommute.update (h : f.MembersCommute g) {root root' : Json}
    {update update' : Input → Input} (hf : (f.outcome root).result = .ok update)
    (hg : (g.outcome root').result = .ok update') (out : Input) :
    update' (update out) = update (update' out) := by
  have hassign : f.OfMember fun member => ∀ out value,
      update' (member.assign out value) = member.assign (update' out) value := by
    refine h.imp fun member hmember => ?_
    refine update_induction (Q := fun update' => ∀ out value,
      update' (member.assign out value) = member.assign (update' out) value)
      (fun _ _ => rfl) (hmember.imp fun member' hcommute u value' hu out value => ?_) hg
    dsimp only
    rw [hu, hcommute]
  refine update_induction (Q := fun update => ∀ out, update' (update out) = update (update' out))
    (fun _ => rfl) (hassign.imp fun member hmember u value hu out => ?_) hf out
  dsimp only
  rw [hmember, hu]

/-- A field succeeds with exactly the input and the document of its outcome. -/
theorem parseOne_eq_ok_iff {out input : Input} {root root' : Json} :
    f.parseOne out root = .ok input root' ↔
      ∃ update, (f.outcome root).result = .ok update ∧ update out = input ∧
        root.putChild (f.outcome root).value (f.outcome root).target = root' := by
  rw [f.parseOne_eq, Outcome.run]
  cases (f.outcome root).result with
  | ok update => simp
  | error failure => simp

end Field

variable [Build] [LibXrpl] {f g : Field Input}

/-- What one field writes the other does not see. -/
theorem Apart.outcome_eq (h : Apart f g) (root : Json) :
    g.outcome (root.putChild (f.outcome root).value (f.outcome root).target) =
      g.outcome root := by
  refine Field.outcome_congr ((samePresence_putChild root _ _).fieldGuarded g) fun key hkey => ?_
  cases hrewrites : f.rewrites with
  | false =>
      rw [Field.value_of_noPaths (Field.modifierPaths_of_not_rewrites hrewrites),
        Json.putChild_member?]
  | true =>
      refine Json.member?_putChild_ne ?_ _ _
      rintro rfl
      exact h (.inl hrewrites) _ (f.target_mem_ownKeys root) hkey

/-- The two fields write in either order to the same end. -/
theorem Apart.written_comm (h : Apart f g) (root : Json) :
    (root.putChild (f.outcome root).value (f.outcome root).target).putChild
      (g.outcome root).value (g.outcome root).target =
    (root.putChild (g.outcome root).value (g.outcome root).target).putChild
      (f.outcome root).value (f.outcome root).target := by
  by_cases hrewrites : f.rewrites = true ∨ g.rewrites = true
  · refine Json.putChild_comm ?_ _ _ _
    intro hsame
    exact h hrewrites _ (f.target_mem_ownKeys root) (hsame ▸ g.target_mem_ownKeys root)
  · obtain ⟨hf, hg⟩ := not_or.mp hrewrites
    have hf := Field.modifierPaths_of_not_rewrites (Bool.eq_false_iff.mpr hf)
    have hg := Field.modifierPaths_of_not_rewrites (Bool.eq_false_iff.mpr hg)
    simp only [Field.value_of_noPaths hf, Field.value_of_noPaths hg, Json.putChild_member?]

theorem Apart.interchange (h : Apart f g) (hmembers : f.MembersCommute g) :
    Interchange (fun out => f.parseOne out) (fun out => g.parseOne out) := by
  have hbefore := h.outcome_eq
  have hafter := (symm h : Apart g f).outcome_eq
  intro out root input root'
  simp only [seq_eq_ok_iff, Field.parseOne_eq_ok_iff]
  constructor
  · rintro ⟨_, _, ⟨update, hf, rfl, rfl⟩, update', hg, rfl, rfl⟩
    rw [hbefore] at hg ⊢
    refine ⟨_, _, ⟨update', hg, rfl, rfl⟩, update, ?_, ?_, ?_⟩
    · rw [hafter, hf]
    · exact (hmembers.update hf hg out).symm
    · rw [hafter, h.written_comm]
  · rintro ⟨_, _, ⟨update', hg, rfl, rfl⟩, update, hf, rfl, rfl⟩
    rw [hafter] at hf ⊢
    refine ⟨_, _, ⟨update, hf, rfl, rfl⟩, update', ?_, ?_, ?_⟩
    · rw [hbefore, hg]
    · exact hmembers.update hf hg out
    · rw [hbefore, h.written_comm]

namespace TypedSpec

variable [InputAggregate Input]

/-- The two accept the same, to the same effect, and warn of the same. -/
structure SameButOrder (spec spec' : TypedSpec Input) : Prop where
  accepts : ∀ root input root',
    spec.parse root = .ok input root' ↔ spec'.parse root = .ok input root'
  warnings : ∀ root, (spec.check root).Perm (spec'.check root)

/-- A spec whose fields keep out of each other's keys is the same with any of the fields it
dispatches moved past fields that are bound to other members. -/
theorem sameButOrder_of_reorder {spec spec' : TypedSpec Input}
    (hindependent : independent spec.fields = true)
    (h : Reorder Field.MembersCommute (effectiveFields spec.fields)
      (effectiveFields spec'.fields)) : spec.SameButOrder spec' where
  accepts root input root' := by
    have hapart := h.and_pairwise (pairwise_apart hindependent) fun _ _ => symm
    exact foldlM_eq_ok_iff_of_reorder hapart
      fun f g hfg => hfg.2.interchange hfg.1
  warnings root := h.perm.flatMap_right _

end TypedSpec

end RpcSpec.Dsl
