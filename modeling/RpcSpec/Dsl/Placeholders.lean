import RpcSpec.Dsl.UnreadKeys
import RpcSpec.Dsl.Verdicts
set_option autoImplicit false

/-!
# Placeholders

Values that a field reads as if nothing were there.  A spec then answers a request as it
answers the request without them.

`TypedSpec.SetBy.readsAsAbsent` is the rule: a value that its field reads as nothing may
be dropped from the request, and the answer stays the same.
-/

namespace RpcSpec.Dsl

open RpcSpec.Foundation FieldView

variable {Input Value β : Type}

/-! ## Requests without some members -/

/-- The other request is the first without some of these members. -/
def LeavesOut (blanks : List (String × Json)) (root root' : Json) : Prop :=
  ∀ key, root'.member? key = root.member? key ∨
    root'.member? key = none ∧ ∃ blank, (key, blank) ∈ blanks ∧ root.member? key = some blank

/-- The request without what stands under a key. -/
def Json.dropMember (key : String) : Json → Json
  | .object members => .object (members.filter fun entry => entry.1 ≠ key)
  | other => other

theorem Json.member?_dropMember_self (key : String) (root : Json) :
    (root.dropMember key).member? key = none := by
  cases root with
  | object members =>
      change List.lookup key _ = none
      rw [List.lookup_eq_none_iff]
      intro entry hentry
      have hne : entry.1 ≠ key := by simpa using (List.mem_filter.mp hentry).2
      simpa using Ne.symm hne
  | _ => rfl

theorem Json.member?_dropMember_ne {key other : String} (hne : other ≠ key) (root : Json) :
    (root.dropMember key).member? other = root.member? other := by
  cases root with
  | object members =>
      change List.lookup other (members.filter fun entry => entry.1 ≠ key) =
        List.lookup other members
      induction members with
      | nil => rfl
      | cons entry rest ih =>
          obtain ⟨k, value⟩ := entry
          by_cases hk : k = key
          · have hother : (other == k) = false := by simpa [hk] using hne
            rw [List.filter_cons_of_neg (by simpa using hk), ih, List.lookup_cons, hother]
          · rw [List.filter_cons_of_pos (by simpa using hk), List.lookup_cons, List.lookup_cons, ih]
  | _ => rfl

theorem leavesOut_dropMember {key : String} {blank root : Json}
    (h : root.member? key = some blank) : LeavesOut [(key, blank)] root (root.dropMember key) := by
  intro other
  by_cases hne : other = key
  · subst hne
    exact .inr ⟨root.member?_dropMember_self other, blank, by simp, h⟩
  · exact .inl (root.member?_dropMember_ne hne)

/-! ## Specs -/

section Specs

variable [InputAggregate Input] [Build] [LibXrpl] {spec : TypedSpec Input}

/-- The answer does not depend on whether these members are there. -/
def TypedSpec.ReadsAsAbsent (spec : TypedSpec Input) (blanks : List (String × Json)) : Prop :=
  ∀ root root', LeavesOut blanks root root' →
    answer (spec.parse root') = answer (spec.parse root)

/-- One member after another may be left out. -/
theorem TypedSpec.ReadsAsAbsent.cons {entry : String × Json} {blanks : List (String × Json)}
    (h : spec.ReadsAsAbsent [entry]) (hrest : spec.ReadsAsAbsent blanks) :
    spec.ReadsAsAbsent (entry :: blanks) := by
  obtain ⟨key, blank⟩ := entry
  intro root root' hout
  by_cases hdrop : root'.member? key = none ∧ root.member? key = some blank
  · refine (hrest (root.dropMember key) root' fun other => ?_).trans
      (h root _ (leavesOut_dropMember hdrop.2))
    by_cases hne : other = key
    · subst hne
      exact .inl (hdrop.1.trans (root.member?_dropMember_self other).symm)
    · rw [root.member?_dropMember_ne hne]
      exact (hout other).imp_right fun ⟨hnone, value, hmem, hvalue⟩ =>
        ⟨hnone, value, (List.mem_cons.mp hmem).resolve_left (by simp [hne]), hvalue⟩
  · refine hrest root root' fun other => (hout other).imp_right ?_
    rintro ⟨hnone, value, hmem, hvalue⟩
    refine ⟨hnone, value, (List.mem_cons.mp hmem).resolve_left ?_, hvalue⟩
    rintro ⟨⟩
    exact hdrop ⟨hnone, hvalue⟩

/-- No field but the one under the key reads it or has a guard on it. -/
def TypedSpec.readOnce (spec : TypedSpec Input) (key : String) : Bool :=
  spec.fields.all fun f => f.key == key || !f.ownKeys.contains key && !f.guardsKey key

omit [InputAggregate Input] [Build] [LibXrpl] in
theorem TypedSpec.ignores_of_readOnce [InputAggregate Input] {spec : TypedSpec Input} {key : String}
    (h : spec.readOnce key = true) {f : Field Input} (hmem : f ∈ spec.fields)
    (hne : f.key ≠ key) : f.Ignores [key] := by
  have hf := List.all_eq_true.mp h f hmem
  simp only [beq_eq_false_iff_ne.mpr hne, Bool.false_or, Bool.and_eq_true, Bool.not_eq_true',
    List.contains_eq_mem, decide_eq_false_iff_not] at hf
  exact ⟨by simpa using hf.1, by simpa using hf.2⟩

variable {key : String} {member : Member Input Value} {items : List (Item Value)}
  {conv : Converter Value} {unguarded} {read : Input → β}

/-- A placeholder whose value is assigned where the default would be. -/
theorem TypedSpec.SetBy.readsAsAbsent
    (hset : spec.SetBy read (field key member items conv unguarded))
    (honce : spec.readOnce key = true) (hskips : ∀ root, skipsField items root = false)
    {blank : Json} {value : Value}
    (hblank : resolve items conv ⟨key, some blank⟩ = some (some value))
    (habsent : resolve items conv ⟨key, none⟩ = some none) {Q : β → Prop}
    (hinit : Q (read InputAggregate.init))
    (hassign : ∀ out, Q (read out) → Q (read (member.assign out value)) ∧
      member.assign out value =
        BoundField.applyDefaults ⟨key, member, items, conv, unguarded⟩ out) :
    spec.ReadsAsAbsent [(key, blank)] := by
  intro root root' hout
  have hothers : AgreeOff [key] root root' := by
    intro other hother
    refine (hout other).resolve_right ?_
    rintro ⟨-, value, hmem, -⟩
    obtain ⟨rfl, -⟩ := Prod.ext_iff.mp (List.mem_singleton.mp hmem)
    exact hother (List.mem_singleton_self _)
  obtain hsame | ⟨hnone, value', hmem, hvalue⟩ := hout key
  · have hall : AgreeOff [] root root' := by
      intro other _
      by_cases hne : other = key
      · rw [hne, hsame]
      · exact hothers other (by simpa using hne)
    have houtcomes : spec.outcomes root' = spec.outcomes root :=
      List.map_congr_left fun f _ => Field.Ignores.outcome_eq ⟨by simp, by simp⟩ hall
    rw [TypedSpec.answer_parse hset.independent, TypedSpec.answer_parse hset.independent,
      houtcomes]
  · obtain ⟨-, rfl⟩ := Prod.ext_iff.mp (List.mem_singleton.mp hmem)
    have hwith := field_result key member conv unguarded hskips root
    have hwithout := field_result key member conv unguarded hskips root'
    rw [hvalue, hblank] at hwith
    rw [hnone, habsent] at hwithout
    refine Matches.eq (R := fun out out' => out = out' ∧ Q (read out)) (fun _ _ h => h.1)
      (TypedSpec.parse_match hset.independent (fun f hf => ?_) ⟨rfl, hinit⟩)
    by_cases hkey : f.key = key
    · obtain rfl := eq_of_mem_effectiveFields hset.effective hf hkey
      rw [toOption_eq_some_iff.mp hwith, toOption_eq_some_iff.mp hwithout]
      refine .ok ?_
      rintro out _ ⟨rfl, hout⟩
      obtain ⟨hread, hsame⟩ := hassign out hout
      rw [hsame] at hread
      exact ⟨hsame.symm, hread⟩
    · have hfield := mem_of_mem_effectiveFields hf
      have hkeeps := (hset.others f hfield).resolve_left hkey
      rw [(TypedSpec.ignores_of_readOnce honce hfield hkey).outcome_eq hothers]
      cases hupdate : (f.outcome root).result with
      | error failure => exact .error rfl
      | ok update =>
          refine .ok ?_
          rintro out _ ⟨rfl, hout⟩
          exact ⟨rfl, by rwa [hkeeps.update hupdate out]⟩

end Specs

end RpcSpec.Dsl
