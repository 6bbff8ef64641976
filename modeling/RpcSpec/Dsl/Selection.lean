import RpcSpec.Dsl.Comparison
import RpcSpec.Dsl.FaultFree
set_option autoImplicit false

/-!
# Members read from the request

What a parse leaves in a member that one field feeds: nothing where the keys of the field
are not there, and otherwise what the value under one of them stands for.

`TypedSpec.SetBy` says that one field feeds the member, and `SetBy.selects` what a parse
then leaves in it.
-/

namespace RpcSpec.Dsl

open RpcSpec.Foundation FieldView

variable {Input Value : Type}

/-- The member is set where a key is there, to what the value under the key stands for. -/
structure Selects (keys : List String) (R : FieldView → Value → Prop) (root : Json)
    (member : Option Value) : Prop where
  unset : member = none ↔ ∀ key ∈ keys, (rootChild root key).present = false
  reads : ∀ value, member = some value →
    ∃ key ∈ keys, (rootChild root key).present = true ∧ R (rootChild root key) value

namespace BoundField

/-- What the field makes of the key it is looked up by. -/
theorem outcomeAt_cases {field : BoundField Input} {R : FieldView → field.Value → Prop}
    (hyields : Yields field.items field.conv R) (hdefault : field.applyDefaults = id)
    {key : String} {root : Json} (hskips : skipsField field.items root = false)
    {update : Input → Input} (h : (field.outcomeAt key root).result = .ok update) :
    ((rootChild root key).present = false ∧ update = id) ∨
      ((rootChild root key).present = true ∧ ∃ value, R (rootChild root key) value ∧
        update = fun out => field.member.assign out value) := by
  obtain ⟨hskipped, -⟩ | ⟨v, hrun, hcases⟩ := update_cases h
  · rw [hskips] at hskipped
    cases hskipped
  have hafter := hyields (rootChild root key)
  rw [SafeRun, hrun] at hafter
  obtain ⟨⟨-, hpresent⟩, hconv⟩ := hafter
  obtain ⟨hv, rfl⟩ | ⟨hv, value, hvalue, rfl⟩ := hcases
  · exact .inl ⟨hpresent.symm.trans hv, hdefault⟩
  · exact .inr ⟨hpresent.symm.trans hv, value, (hconv hv).of_ok hvalue, rfl⟩

end BoundField

section Reads

variable [Build] [LibXrpl]

/-- The field sets the member where one of the keys is there, and does nothing else. -/
def Field.Reads (f : Field Input) (get : Input → Option Value) (keys : List String)
    (R : FieldView → Value → Prop) : Prop :=
  ∀ root update, (f.outcome root).result = .ok update →
    ((∀ key ∈ keys, (rootChild root key).present = false) ∧ update = id) ∨
      ∃ key ∈ keys, (rootChild root key).present = true ∧
        ∃ value, R (rootChild root key) value ∧ ∀ out, get (update out) = some value

variable {get : Input → Option Value} {key : String} {member : Member Input Value}
  {items : List (Item Value)} {conv : Converter Value} {R : FieldView → Value → Prop} {unguarded}

theorem field_reads (hyields : Yields items conv R)
    (hget : ∀ out value, get (member.assign out value) = some value)
    (hdefault : (⟨key, member, items, conv, unguarded⟩ : BoundField Input).applyDefaults = id)
    (hskips : ∀ root, skipsField items root = false) :
    (field key member items conv unguarded).Reads get [key] R := by
  intro root update hupdate
  obtain ⟨habsent, rfl⟩ | ⟨hpresent, value, hvalue, rfl⟩ :=
    BoundField.outcomeAt_cases hyields hdefault (hskips root) hupdate
  · exact .inl ⟨by simpa using habsent, rfl⟩
  · exact .inr ⟨key, List.mem_singleton_self key, hpresent, value, hvalue, (hget · value)⟩

/-- Of the two keys of an alias one may be there. -/
theorem alias_reads {alternateKey : String} (hyields : Yields items conv R)
    (hget : ∀ out value, get (member.assign out value) = some value)
    (hdefault : (⟨key, member, items, conv, unguarded⟩ : BoundField Input).applyDefaults = id)
    (hskips : ∀ root, skipsField items root = false) :
    (alias_ alternateKey key member items conv unguarded).Reads get [key, alternateKey] R := by
  intro root update hupdate
  change (outcomeAliased alternateKey _ root).result = _ at hupdate
  unfold outcomeAliased at hupdate
  cases halternate : (rootChild root alternateKey).present with
  | false =>
      rw [halternate] at hupdate
      obtain ⟨habsent, rfl⟩ | ⟨hpresent, value, hvalue, rfl⟩ :=
        BoundField.outcomeAt_cases hyields hdefault (hskips root) hupdate
      · exact .inl ⟨by simpa using ⟨habsent, halternate⟩, rfl⟩
      · exact .inr ⟨key, by simp, hpresent, value, hvalue, (hget · value)⟩
  | true =>
      rw [halternate, if_pos rfl] at hupdate
      split at hupdate
      · cases hupdate
      · obtain ⟨habsent, -⟩ | ⟨hpresent, value, hvalue, rfl⟩ :=
          BoundField.outcomeAt_cases hyields hdefault (hskips root) hupdate
        · rw [halternate] at habsent
          cases habsent
        · exact .inr ⟨alternateKey, by simp, hpresent, value, hvalue, (hget · value)⟩

/-- Of the fields of the spec it is this one, and no other, that sets what is read. -/
structure TypedSpec.SetBy [InputAggregate Input] {β : Type} (spec : TypedSpec Input)
    (read : Input → β) (f : Field Input) : Prop where
  independent : independent spec.fields = true
  effective : f ∈ effectiveFields spec.fields
  others : ∀ g ∈ spec.fields, g.key = f.key ∨ g.Keeps read

namespace TypedSpec.SetBy

variable [InputAggregate Input] {spec : TypedSpec Input} {β : Type} {read : Input → β}
  {f g : Field Input} {root root' : Json} {input : Input}

omit [Build] [LibXrpl] in
/-- Where the keys of the fields differ all fields are dispatched. -/
theorem of_nodup (hkeys : (spec.fields.map Field.key).Nodup)
    (hindependent : Dsl.independent spec.fields = true) (hmem : f ∈ spec.fields)
    (hothers : ∀ g ∈ spec.fields, g.key = f.key ∨ g.Keeps read) : spec.SetBy read f :=
  ⟨hindependent, mem_effectiveFields_of_nodup hkeys hmem, hothers⟩

omit [Build] [LibXrpl] in
/-- The field at an index of a spec that is written out. -/
theorem of_index (i : Nat) (hkeys : decide (spec.fields.map Field.key).Nodup = true)
    (hindependent : Dsl.independent spec.fields = true) (hmem : spec.fields[i]? = some f)
    (hothers : ∀ g ∈ spec.fields, g.key = f.key ∨ g.Keeps read) : spec.SetBy read f :=
  of_nodup (of_decide_eq_true hkeys) hindependent (List.mem_of_getElem? hmem) hothers

omit [Build] [LibXrpl] in
/-- Fields under other keys may be added. -/
theorem extend {extra : List (Field Input)} {complete} (hset : spec.SetBy read f)
    (hindependent : Dsl.independent (spec.fields ++ extra) = true)
    (hkey : f.key ∉ extra.map Field.key) (hextra : ∀ g ∈ extra, g.Keeps read) :
    (Dsl.extend spec extra complete).SetBy read f where
  independent := hindependent
  effective := mem_effectiveFields_append hset.effective hkey
  others g hg := (List.mem_append.mp hg).elim (hset.others g) fun hg => .inr (hextra g hg)

omit [Build] [LibXrpl] in
theorem eq_or_keeps (hset : spec.SetBy read f) (hg : g ∈ effectiveFields spec.fields) :
    g = f ∨ g.Keeps read :=
  (hset.others g (mem_of_mem_effectiveFields hg)).imp_left
    (eq_of_mem_effectiveFields hset.effective hg)

/-- What the field sets the member to holds of the member. -/
theorem holds {Q : β → Prop} (hset : spec.SetBy read f)
    (hsets : ∀ update, (f.outcome root).result = .ok update → ∀ out, Q (read (update out)))
    (hrun : spec.parse root = .ok input root') : Q (read input) := by
  obtain ⟨hcollect, -⟩ := (TypedSpec.parse_eq_ok_iff hset.independent).mp hrun
  refine collect_establishes (P := fun out => Q (read out)) (List.mem_map_of_mem hset.effective)
    hsets (fun o ho update hupdate out hout => ?_) hcollect
  obtain ⟨g, hg, rfl⟩ := List.mem_map.mp ho
  obtain rfl | hkeeps := hset.eq_or_keeps hg
  · exact hsets update hupdate out
  · rwa [hkeeps.update hupdate out]

/-- What the field comes to is what the member is. -/
theorem member_eq {b : β} (hset : spec.SetBy read f)
    (hsets : ∀ update, (f.outcome root).result = .ok update → ∀ out, read (update out) = b)
    (hrun : spec.parse root = .ok input root') : read input = b :=
  hset.holds (Q := (· = b)) hsets hrun

/-- A member that the field leaves alone is what it was at the start. -/
theorem init (hset : spec.SetBy read f) (hkeeps : ∀ update, (f.outcome root).result = .ok update →
    ∀ out, read (update out) = read out) (hrun : spec.parse root = .ok input root') :
    read input = read InputAggregate.init := by
  obtain ⟨hcollect, -⟩ := (TypedSpec.parse_eq_ok_iff hset.independent).mp hrun
  refine collect_preserves (P := fun out => read out = read InputAggregate.init) ?_ rfl hcollect
  intro o ho update hupdate out hout
  obtain ⟨g, hg, rfl⟩ := List.mem_map.mp ho
  obtain rfl | hkeeps' := hset.eq_or_keeps hg
  · exact (hkeeps update hupdate out).trans hout
  · exact (hkeeps'.update hupdate out).trans hout

end TypedSpec.SetBy

section Present

variable {root : Json} {json : Json} {value : Value}

/-- Items that only check leave the converter the value that is there. -/
theorem field_outcome_of_present (hskips : skipsField items root = false)
    (hpaths : itemsPaths items = []) (hjson : root.member? key = some json)
    {update : Input → Input}
    (h : ((field key member items conv unguarded).outcome root).result = .ok update) :
    ∃ value, conv.parse ⟨key, some json⟩ = .ok value ∧
      update = fun out => member.assign out value := by
  obtain ⟨hskipped, -⟩ | ⟨v, hrun, hcases⟩ := BoundField.update_cases h
  · rw [hskips] at hskipped
    cases hskipped
  obtain rfl : v = rootChild root key :=
    (endState_of_ok hrun).symm.trans (runProcessors_readOnly hpaths _)
  have hchild : rootChild root key = ⟨key, some json⟩ := by rw [rootChild, hjson]
  rw [hchild] at hcases
  obtain ⟨habsent, -⟩ | ⟨-, hvalue⟩ := hcases
  · cases habsent
  · exact hvalue

/-- Where the items let the value pass, the field assigns what the converter reads. -/
theorem field_parseOne_of_passes (hskips : skipsField items root = false)
    (hjson : root.member? key = some json)
    (hitems : runProcessors items ⟨key, some json⟩ = .ok () ⟨key, some json⟩)
    (hvalue : conv.parse ⟨key, some json⟩ = .ok value) (out : Input) :
    (field key member items conv unguarded).parseOne out root =
      .ok (member.assign out value) root := by
  have hchild : rootChild root key = ⟨key, some json⟩ := by rw [rootChild, hjson]
  have houtcome : (field key member items conv unguarded).outcome root =
      ⟨key, root.member? key, .ok fun out => member.assign out value⟩ := by
    change BoundField.outcomeAt _ key root = _
    simp only [BoundField.outcomeAt, hskips, Bool.false_eq_true, if_false, hchild,
      BoundField.onView, hitems, endState_of_ok hitems, hjson, hvalue]
    rfl
  rw [Field.parseOne_eq, houtcome, Outcome.run_unchanged]

end Present

/-- The member that one field of the spec reads. -/
theorem TypedSpec.SetBy.selects [InputAggregate Input] {spec : TypedSpec Input} {f : Field Input}
    {keys : List String} (hset : spec.SetBy get f) (hreads : f.Reads get keys R)
    (hinit : get InputAggregate.init = none) {root root' : Json} {input : Input}
    (hrun : spec.parse root = .ok input root') : Selects keys R root (get input) := by
  by_cases habsent : ∀ key ∈ keys, (rootChild root key).present = false
  · have hnone : get input = none := by
      refine (hset.init (fun update hupdate out => ?_) hrun).trans hinit
      obtain ⟨-, rfl⟩ | ⟨key, hkey, hpresent, -⟩ := hreads root update hupdate
      · rfl
      · rw [habsent key hkey] at hpresent
        cases hpresent
    exact ⟨⟨fun _ => habsent, fun _ => hnone⟩, by simp [hnone]⟩
  · have hsets : ∀ update, (f.outcome root).result = .ok update → ∀ out, ∃ value,
        get (update out) = some value ∧
          ∃ key ∈ keys, (rootChild root key).present = true ∧ R (rootChild root key) value := by
      intro update hupdate out
      obtain ⟨hnone, -⟩ | ⟨key, hkey, hpresent, value, hvalue, hget⟩ := hreads root update hupdate
      · exact absurd hnone habsent
      · exact ⟨value, hget out, key, hkey, hpresent, hvalue⟩
    obtain ⟨value, hget, hvalue⟩ := hset.holds (Q := fun member => ∃ value,
      member = some value ∧
        ∃ key ∈ keys, (rootChild root key).present = true ∧ R (rootChild root key) value)
      hsets hrun
    refine ⟨⟨by simp [hget], fun h => absurd h habsent⟩, fun value' hvalue' => ?_⟩
    obtain rfl := Option.some.inj (hget.symm.trans hvalue')
    exact hvalue

end Reads

end RpcSpec.Dsl
