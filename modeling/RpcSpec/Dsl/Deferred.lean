import RpcSpec.Dsl.Comparison
import RpcSpec.Dsl.Modifiers
set_option autoImplicit false

/-!
# Deferred members (`rpcspec/DeferredTypes.hpp`)

A deferred member holds a value or why there is none.  Clio has refused a request by
then, so there it holds a value or was not given; xrpld leaves the refusal to the
handler, so there the value given decides nothing but the member.

`DeferredMember.Contract` states both halves, and `DeferredMember.Fed.contract` proves
them of any spec with one field that feeds the member. The last section has what is needed
of the converters: on Clio they give values, on xrpld they return.
-/

namespace RpcSpec.Dsl

open RpcSpec.Foundation FieldView

variable {Input Value : Type}

/-- A member of an `Input` that holds a deferred value. -/
structure DeferredMember (Input Value : Type) where
  get : Input → Deferred Value
  set : Input → Deferred Value → Input
  /-- The keys whose values feed it. -/
  keys : List String
  /-- The values that count as given in the same way. -/
  takes : Json → Bool
  get_set : ∀ input value, get (set input value) = value := by intros; rfl
  set_set : ∀ input value value', set (set input value) value' = set input value' := by
    intros; rfl

/-- `Input`s that differ at most in the member. -/
def DeferredMember.SameOthers (member : DeferredMember Input Value) (input input' : Input) : Prop :=
  ∀ value, member.set input value = member.set input' value

/-! ## The fields of a spec with a deferred member -/

/-- The field has nothing to do with the deferred member. -/
structure Field.LeavesAlone (field : Field Input) (member : DeferredMember Input Value) :
    Prop where
  keeps : field.Keeps member.get
  respects : field.Respects fun out out' => member.set out = member.set out'
  apart : ∀ key ∈ member.keys, key ∉ field.ownKeys

/-- A field whose assignments commute with the deferred member leaves it alone. -/
theorem Field.LeavesAlone.of_commutes {field : Field Input} {member : DeferredMember Input Value}
    (h : field.OfMember fun target =>
      (∀ out value, member.get (target.assign out value) = member.get out) ∧
        ∀ out value value', member.set (target.assign out value) value' =
          target.assign (member.set out value') value)
    (hapart : (member.keys.all fun key => !field.ownKeys.contains key) = true) :
    field.LeavesAlone member where
  keeps := h.imp fun _ hcommutes => hcommutes.1
  respects := h.imp fun target hcommutes out out' value hout => by
    funext value'
    rw [hcommutes.2, hcommutes.2, hout]
  apart key hkey hown := by
    have hcontains := List.all_eq_true.mp hapart key hkey
    simp [hown] at hcontains

section Build

variable [Build]

/-- The field reads the deferred member. -/
structure BoundField.Feeds (field : BoundField Input) (member : DeferredMember Input Value) :
    Prop where
  writes : ∀ out value, member.set (field.member.assign out value) = member.set out
  noDefault : field.applyDefaults = id
  frames : AllModifiers Frames field.items
  /-- On Clio it reads a value. -/
  clio : kIsClioBuild = true → ∀ v value, field.conv.parse v = .ok value →
    ∀ out, ∃ a, member.get (field.member.assign out value) = .ok a
  /-- On xrpld it reads something. -/
  xrpld : kIsXrpldBuild = true → ∀ json, member.takes json = true →
    ∃ v, runProcessors field.items ⟨field.key, some json⟩ = .ok () v ∧
      ∃ value, field.conv.parse v = .ok value

/-- What it returns on Clio is a value. -/
def Converter.GivesValues (conv : Converter (Deferred Value)) : Prop :=
  kIsClioBuild = true → ∀ v value, conv.parse v = .ok value → ∃ a, value = .ok a

namespace BoundField.Feeds

variable {field : BoundField Input} {member : DeferredMember Input Value} {root : Json}
  {update : Input → Input}

/-- The feeding field either does nothing or assigns what its converter returned. -/
theorem update_cases (hfeeds : field.Feeds member)
    (h : (field.outcomeAt field.key root).result = .ok update) :
    update = id ∨ ∃ v value, field.conv.parse v = .ok value ∧
      update = fun out => field.member.assign out value := by
  obtain ⟨-, rfl⟩ | ⟨v, -, ⟨-, rfl⟩ | ⟨-, value, hvalue, rfl⟩⟩ := BoundField.update_cases h
  · exact .inl rfl
  · exact .inl hfeeds.noDefault
  · exact .inr ⟨v, value, hvalue, rfl⟩

/-- What is left of an `Input` without the member. -/
theorem set_update (hfeeds : field.Feeds member)
    (h : (field.outcomeAt field.key root).result = .ok update) (out : Input) :
    member.set (update out) = member.set out := by
  obtain rfl | ⟨v, value, -, rfl⟩ := hfeeds.update_cases h
  · rfl
  · exact hfeeds.writes out value

/-- On Clio the field leaves a value in the member, if it does anything. -/
theorem get_update (hfeeds : field.Feeds member) (hclio : kIsClioBuild = true)
    (h : (field.outcomeAt field.key root).result = .ok update) (out : Input) :
    member.get (update out) = member.get out ∨ ∃ a, member.get (update out) = .ok a := by
  obtain rfl | ⟨v, value, hvalue, rfl⟩ := hfeeds.update_cases h
  · exact .inl rfl
  · exact .inr (hfeeds.clio hclio v value hvalue out)

/-- A field that is not skipped does something where its key is there. -/
theorem get_update_of_present (hfeeds : field.Feeds member) (hclio : kIsClioBuild = true)
    (hskips : skipsField field.items root = false)
    (hpresent : (rootChild root field.key).present = true)
    (h : (field.outcomeAt field.key root).result = .ok update) (out : Input) :
    ∃ a, member.get (update out) = .ok a := by
  obtain ⟨hskipped, -⟩ | ⟨v, hrun, ⟨hv, -⟩ | ⟨-, value, hvalue, rfl⟩⟩ :=
    BoundField.update_cases h
  · rw [hskips] at hskipped
    cases hskipped
  · have hkept := (runProcessors_moves hfeeds.frames (rootChild root field.key)).sameField.2
    rw [endState_of_ok hrun, hv, hpresent] at hkept
    cases hkept
  · exact hfeeds.clio hclio v value hvalue out

/-- On xrpld the field returns on every value that the member takes. -/
theorem result_of_takes (hfeeds : field.Feeds member) (hxrpld : kIsXrpldBuild = true)
    {json : Json} (hjson : root.member? field.key = some json) (htakes : member.takes json = true) :
    ∃ update, (field.outcomeAt field.key root).result = .ok update := by
  obtain ⟨v, hrun, value, hvalue⟩ := hfeeds.xrpld hxrpld json htakes
  unfold BoundField.outcomeAt
  cases skipsField field.items root with
  | true => exact ⟨id, rfl⟩
  | false =>
      simp only [Bool.false_eq_true, if_false, BoundField.onView, rootChild, hjson, hrun, hvalue]
      split
      · exact ⟨_, rfl⟩
      · exact ⟨_, rfl⟩

/-- A field that assigns to the member with no default feeds it. -/
theorem of_conv {key : String}
    {target : Member Input (Deferred Value)} {items : List (Item (Deferred Value))}
    {conv : Converter (Deferred Value)}
    {unguarded : anyGuardsKey key items = false} (htarget : target.assign = member.set)
    (hdefault : (⟨key, target, items, conv, unguarded⟩ : BoundField Input).applyDefaults = id)
    (hframes : AllModifiers Frames items) (hclio : conv.GivesValues)
    (hxrpld : kIsXrpldBuild = true → ∀ json, member.takes json = true →
      (∀ item ∈ items, item.Fixes ⟨key, some json⟩) ∧ Returns (conv.parse ⟨key, some json⟩)) :
    (⟨key, target, items, conv, unguarded⟩ : BoundField Input).Feeds member where
  writes out value := by
    funext value'
    rw [htarget, member.set_set]
  noDefault := hdefault
  frames := hframes
  clio hbuild v value hvalue out := by
    rw [htarget, member.get_set]
    exact hclio hbuild v value hvalue
  xrpld hbuild json hjson :=
    ⟨_, runProcessors_fixed (hxrpld hbuild json hjson).1, (hxrpld hbuild json hjson).2⟩

end BoundField.Feeds

end Build

/-! ## The contract -/

section Contract

variable [Build] [LibXrpl] [InputAggregate Input]

/-- What the two servers make of a deferred member. -/
structure DeferredMember.Contract (member : DeferredMember Input Value)
    (spec : TypedSpec Input) : Prop where
  /-- On Clio it holds a value, unless no key that feeds it is there. -/
  clio : kIsClioBuild = true → ∀ root root' input, spec.parse root = .ok input root' →
    (∃ value, member.get input = .ok value) ∨ (member.get input = .error .missing ∧
      ∀ key ∈ member.keys, (rootChild root key).present = false)
  /-- On xrpld the value of such a key decides on the member and on nothing else. -/
  xrpld : kIsXrpldBuild = true → ∀ root, ∀ key ∈ member.keys, ∀ old new,
    root.member? key = some old → member.takes old = true → member.takes new = true →
      Agree member.SameOthers (answer (spec.parse root))
        (answer (spec.parse (root.putChild (some new) key)))

/-- The fields of the spec feed the member or leave it alone. -/
structure DeferredMember.Fed (member : DeferredMember Input Value) (spec : TypedSpec Input) :
    Prop where
  independent : independent spec.fields = true
  fields : ∀ f ∈ spec.fields, f.LeavesAlone member ∨ ∃ field, f = .bound field ∧ field.Feeds member
  /-- It starts with a value, or each of its keys has a field that Clio never skips. -/
  initial : (∃ value, member.get InputAggregate.init = .ok value) ∨
    member.get InputAggregate.init = .error .missing ∧ (kIsClioBuild = true →
      ∀ key ∈ member.keys, ∃ field : BoundField Input, .bound field ∈ effectiveFields spec.fields ∧
        field.key = key ∧ field.Feeds member ∧ ∀ root, skipsField field.items root = false)

namespace DeferredMember.Fed

variable {member : DeferredMember Input Value} {spec : TypedSpec Input}

omit [LibXrpl] in
/-- Every field of the spec leaves the member alone or feeds it. -/
theorem field_cases (h : member.Fed spec) {f : Field Input}
    (hf : f ∈ effectiveFields spec.fields) :
    f.LeavesAlone member ∨ ∃ field, f = .bound field ∧ field.Feeds member :=
  h.fields f (mem_of_mem_effectiveFields hf)

/-- On Clio every field leaves the member as it is or puts a value into it. -/
theorem get_update (h : member.Fed spec) (hclio : kIsClioBuild = true) {root : Json}
    {o : Outcome Input} (ho : o ∈ spec.outcomes root) {update : Input → Input}
    (hupdate : o.result = .ok update) (out : Input) :
    member.get (update out) = member.get out ∨ ∃ a, member.get (update out) = .ok a := by
  obtain ⟨f, hf, rfl⟩ := List.mem_map.mp ho
  obtain halone | ⟨field, rfl, hfeeds⟩ := h.field_cases hf
  · exact .inl (halone.keeps.update hupdate out)
  · exact hfeeds.get_update hclio hupdate out

/-- On Clio the member holds a value, or none of its keys was sent. -/
theorem contract_clio (h : member.Fed spec) (hclio : kIsClioBuild = true) {root root' : Json}
    {input : Input} (hrun : spec.parse root = .ok input root') :
    (∃ value, member.get input = .ok value) ∨ (member.get input = .error .missing ∧
      ∀ key ∈ member.keys, (rootChild root key).present = false) := by
  obtain ⟨hcollect, -⟩ := (TypedSpec.parse_eq_ok_iff h.independent).mp hrun
  have hkept : ∀ o ∈ spec.outcomes root, ∀ update, o.result = .ok update →
      ∀ out, (∃ a, member.get out = .ok a) → ∃ a, member.get (update out) = .ok a := by
    rintro o ho update hupdate out ⟨a, ha⟩
    obtain hsame | hvalue := h.get_update hclio ho hupdate out
    · exact ⟨a, hsame.trans ha⟩
    · exact hvalue
  obtain hvalue | ⟨hmissing, hfields⟩ := h.initial
  · exact .inl (collect_preserves (P := fun out => ∃ a, member.get out = .ok a) hkept hvalue
      hcollect)
  by_cases habsent : ∀ key ∈ member.keys, (rootChild root key).present = false
  · have hholds := collect_preserves (P := fun out => (∃ a, member.get out = .ok a) ∨
      member.get out = .error .missing) (fun o ho update hupdate out hout => ?_)
      (.inr hmissing) hcollect
    · exact hholds.imp_right fun hget => ⟨hget, habsent⟩
    · obtain hsame | hvalue := h.get_update hclio ho hupdate out
      · rwa [hsame]
      · exact .inl hvalue
  · simp only [not_forall, Bool.not_eq_false] at habsent
    obtain ⟨key, hkey, hpresent⟩ := habsent
    obtain ⟨field, hmem, rfl, hfeeds, hskips⟩ := hfields hclio key hkey
    refine .inl (collect_establishes (P := fun out => ∃ a, member.get out = .ok a)
      (List.mem_map_of_mem hmem) (fun update hupdate out => ?_) hkept hcollect)
    exact hfeeds.get_update_of_present hclio (hskips root) hpresent hupdate out

/-- On xrpld another value sent for the member changes nothing but the member. -/
theorem contract_xrpld (h : member.Fed spec) (hxrpld : kIsXrpldBuild = true) {root : Json}
    {key : String} {old new : Json} (hkey : key ∈ member.keys)
    (hold : root.member? key = some old) (htakesOld : member.takes old = true)
    (htakesNew : member.takes new = true) :
    Agree member.SameOthers (answer (spec.parse root))
      (answer (spec.parse (root.putChild (some new) key))) := by
  have hsame := samePresence_putChild root (some new) key
  have hnew : (root.putChild (some new) key).member? key = some new :=
    Json.member?_putChild_same (by simp [hold])
  have hfields : ∀ f ∈ effectiveFields spec.fields,
      Agree (KeepRelated fun out out' => member.set out = member.set out') (f.outcome root).result
        (f.outcome (root.putChild (some new) key)).result := by
    intro f hf
    obtain halone | ⟨field, rfl, hfeeds⟩ := h.field_cases hf
    · rw [Field.outcome_congr (hsame.fieldGuarded _)
        fun other hother => Json.member?_putChild_ne ?_ _ _]
      · cases hresult : (f.outcome root).result with
        | ok update => exact .ok (halone.respects.update hresult)
        | error failure => exact .error failure
      · rintro rfl
        exact halone.apart _ hkey hother
    · have hrelated {root root' : Json} {update update' : Input → Input}
          (hupdate : (field.outcomeAt field.key root).result = .ok update)
          (hupdate' : (field.outcomeAt field.key root').result = .ok update') :
          KeepRelated (fun out out' => member.set out = member.set out') update update' := by
        intro out out' hout
        rw [hfeeds.set_update hupdate, hfeeds.set_update hupdate', hout]
      by_cases hown : field.key = key
      · subst hown
        obtain ⟨update, hupdate⟩ := hfeeds.result_of_takes hxrpld hold htakesOld
        obtain ⟨update', hupdate'⟩ := hfeeds.result_of_takes hxrpld hnew htakesNew
        change Agree _ (field.outcomeAt field.key root).result (field.outcomeAt field.key _).result
        rw [hupdate, hupdate']
        exact .ok (hrelated hupdate hupdate')
      · change Agree _ (field.outcomeAt field.key root).result (field.outcomeAt field.key _).result
        rw [outcomeAt_congr (hsame.guarded field.items) (Json.member?_putChild_ne hown _ _)]
        cases hresult : (field.outcomeAt field.key root).result with
        | ok update => exact .ok (hrelated hresult hresult)
        | error failure => exact .error failure
  rw [TypedSpec.answer_parse h.independent, TypedSpec.answer_parse h.independent]
  refine (collect_agree (R := fun out out' => member.set out = member.set out') ?_ rfl).mono
    fun input input' hinput value => congrFun hinput value
  rw [TypedSpec.outcomes, TypedSpec.outcomes, List.forall₂_map_left_iff,
    List.forall₂_map_right_iff, List.forall₂_same]
  exact hfields

omit [LibXrpl] in
/-- A member that one field feeds. -/
theorem of_single (before after : List (Field Input)) {field : BoundField Input}
    (hfields : spec.fields = before ++ .bound field :: after)
    (hindependent : RpcSpec.Dsl.independent spec.fields = true)
    (hmissing : member.get InputAggregate.init = .error .missing)
    (heffective : (effectiveFields spec.fields)[before.length]? = some (.bound field))
    (hkeys : member.keys = [field.key]) (hfeeds : field.Feeds member)
    (hskips : ∀ root, skipsField field.items root = false)
    (hothers : ∀ f ∈ before ++ after, f.LeavesAlone member) : member.Fed spec where
  independent := hindependent
  fields f hf := by
    rw [hfields, List.mem_append, List.mem_cons] at hf
    obtain hf | rfl | hf := hf
    · exact .inl (hothers f (by simp [hf]))
    · exact .inr ⟨field, rfl, hfeeds⟩
    · exact .inl (hothers f (by simp [hf]))
  initial := .inr ⟨hmissing, fun _ key hkey => by
    rw [hkeys, List.mem_singleton] at hkey
    exact ⟨field, List.mem_of_getElem? heffective, hkey.symm, hfeeds, hskips⟩⟩

/-- A member that one field feeds meets its contract on both builds. -/
theorem contract (h : member.Fed spec) : member.Contract spec where
  clio hclio _ _ _ hrun := h.contract_clio hclio hrun
  xrpld hxrpld _ _ hkey _ _ hold htakesOld htakesNew :=
    h.contract_xrpld hxrpld hkey hold htakesOld htakesNew

end DeferredMember.Fed

end Contract

/-! ## Converters of deferred values -/

theorem asString_returns {v : FieldView} (h : v.isString = true) : Returns v.asString := by
  unfold isString at h
  split at h
  · exact ⟨_, asString_eq_ok_iff.mpr ‹_›⟩
  · cases h

theorem asUint32_returns {v : FieldView} (h : v.isUint32 = true) : Returns v.asUint32 := by
  unfold isUint32 at h
  split at h
  · rename_i n hv
    exact ⟨_, by simp only [FieldView.asUint32, hv, of_decide_eq_true h, if_true]; rfl⟩
  · rename_i n hv
    exact ⟨_, by simp only [FieldView.asUint32, hv, h, if_true]; rfl⟩
  · cases h

/-- A conversion that ends in a value gives values. -/
theorem givesValues_of_bind {α : Type} {x : Parsed α} {f : α → Parsed (Deferred Value)}
    (hf : ∀ a value, f a = .ok value → ∃ b, value = .ok b) {value : Deferred Value}
    (h : (x >>= f) = .ok value) : ∃ b, value = .ok b := by
  cases x with
  | error failure => cases h
  | ok a => exact hf a value h

theorem givesValues_of_map {α : Type} {f : α → Value} {x : Parsed α} {value : Deferred Value}
    (h : ((fun a => .ok (f a)) <$> x : Parsed (Deferred Value)) = .ok value) :
    ∃ a, value = .ok a := by
  rw [map_eq_pure_bind] at h
  exact givesValues_of_bind (fun a _ ha => ⟨f a, (Except.ok.inj ha).symm⟩) h

section Converters

variable [Build] {conv : Converter (Deferred Value)}

theorem not_xrpld_of_clio (hclio : kIsClioBuild = true) : kIsXrpldBuild = false := by
  simp [kIsXrpldBuild, hclio]

theorem Converter.GivesValues.emptyAsAbsent (h : conv.GivesValues) :
    (Dsl.emptyAsAbsent conv).GivesValues := by
  intro hclio v value hvalue
  simp only [Dsl.emptyAsAbsent, not_xrpld_of_clio hclio, Bool.false_and, Bool.false_eq_true,
    if_false] at hvalue
  cases hconv : conv.parse v with
  | error failure =>
      rw [hconv] at hvalue
      cases hvalue
  | ok a =>
      rw [hconv] at hvalue
      obtain rfl := Except.ok.inj hvalue
      exact h hclio v a hconv

/-- The wrapper returns where its converter does. -/
theorem emptyAsAbsent_returns {v : FieldView} (h : Returns (conv.parse v)) :
    Returns ((emptyAsAbsent conv).parse v) := by
  simp only [emptyAsAbsent]
  split
  · rename_i hstring
    apply (asString_returns (Bool.and_eq_true_iff.mp hstring).2).bind
    intro text
    split
    · exact .ok _
    · exact h.map
  · exact h.map

variable [LibXrpl]

/-- On Clio an account is converted at once. -/
theorem deferredAccount_givesValues {clioConv : Converter AccountID}
    {nonString : NonStringAccount} : (deferredAccount clioConv nonString).GivesValues := by
  intro hclio v value hvalue
  simp only [deferredAccount, not_xrpld_of_clio hclio, Bool.false_eq_true, if_false] at hvalue
  exact givesValues_of_map hvalue

/-- On Clio an asset is converted at once. -/
theorem deferredAsset_givesValues {clioConv : Converter Issue} :
    (deferredAsset clioConv).GivesValues := by
  intro hclio v value hvalue
  simp only [deferredAsset, not_xrpld_of_clio hclio, Bool.false_eq_true, if_false] at hvalue
  exact givesValues_of_map hvalue

/-- An account that is no account is not an error on xrpld. -/
theorem deferredAccount_returns {clioConv : Converter AccountID} {nonString : NonStringAccount}
    {v : FieldView} (hxrpld : kIsXrpldBuild = true)
    (h : (v.isString || nonString = .deferred) = true) :
    Returns ((deferredAccount clioConv nonString).parse v) := by
  simp only [deferredAccount, hxrpld, if_true]
  rcases Safe.iff_ok_or_error.mp (accountId_neverFaults v) with ⟨id, hid, -⟩ | ⟨status, hstatus⟩
  · rw [hid]
    exact .ok _
  · rw [hstatus]
    simp only [h, if_true]
    exact .ok _

omit [Build] in
theorem assetFromView_returns (v : FieldView) : Returns (assetFromView v) := by
  unfold assetFromView
  split
  · exact .ok _
  dsimp only
  split
  · split
    · exact .ok _
    rename_i hcurrency
    simp only [Bool.or_eq_true, Bool.not_eq_true', not_or, Bool.not_eq_false] at hcurrency
    apply (asString_returns hcurrency.2).bind
    intro text
    split
    · exact .ok _
    split
    · exact .ok _
    split
    · split
      · exact .ok _
      · exact .ok _
    split
    · exact .ok _
    rename_i hissuer
    apply (asString_returns (by simpa using hissuer)).bind
    intro text
    split
    · exact .ok _
    split
    · exact .ok _
    · exact .ok _
  · split
    · exact .ok _
    rename_i hmpt
    simp only [Bool.or_eq_true, Bool.not_eq_true', not_or, Bool.not_eq_false] at hmpt
    apply (asString_returns hmpt.2).bind
    intro text
    split
    · exact .ok _
    · exact .ok _

/-- On xrpld what is no asset is kept as malformed. -/
theorem deferredAsset_returns {clioConv : Converter Issue} (hxrpld : kIsXrpldBuild = true)
    (v : FieldView) : Returns ((deferredAsset clioConv).parse v) := by
  simp only [deferredAsset, hxrpld, if_true]
  exact assetFromView_returns v

end Converters

end RpcSpec.Dsl
