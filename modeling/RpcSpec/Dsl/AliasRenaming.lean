import RpcSpec.Dsl.GuardedFields
import RpcSpec.Dsl.KeyedItems
import RpcSpec.Dsl.RenamedKeys
set_option autoImplicit false

/-!
# An alias as a renaming

A field with two spellings does with a request that uses the second what it does with
the request in which that key is renamed to the first, as long as its functions use the
key only in the texts they report.

The main result is `TypedSpec.AliasedAlone.pureRenaming`, assembled from the three cases:
only the alias is there (`parse_unaliased`, `check_unaliased`), it is not there
(`sameWithoutAlias`), and both are there (`refusesBoth`). `alias_not_renaming` shows the
condition on the functions to be needed.
-/

namespace RpcSpec.Dsl

open RpcSpec.Foundation FieldView

variable {Input : Type} {alternateKey key : String}

/-! ## The request with the alias renamed -/

/-- The name of a member once the alternate key is written as the field's own. -/
def unaliasKey (alternateKey key other : String) : String :=
  if other = alternateKey then key else other

/-- The request with the alias renamed to the field's own key. -/
def unaliased (alternateKey key : String) (root : Json) : Json :=
  root.renameKeys (unaliasKey alternateKey key)

/-- The one key in place of the other. -/
def AliasFor (alternateKey key : String) (found found' : String) : Prop :=
  found = alternateKey ∧ found' = key

section Keys

variable {root : Json}

theorem unaliasKey_of_ne {other : String} (h : other ≠ alternateKey) :
    unaliasKey alternateKey key other = other := if_neg h

/-- Renaming the alternate key runs into no other member while the field's own key is absent. -/
theorem separates_alias (alternateKey : String) (hown : (rootChild root key).present = false) :
    root.Separates (unaliasKey alternateKey key) alternateKey := by
  intro other hother hrename
  by_contra hne
  rw [unaliasKey_of_ne hne, unaliasKey, if_pos rfl] at hrename
  subst hrename
  exact Bool.false_ne_true (hown.symm.trans hother)

/-- Any other member keeps its name. -/
theorem separates_other {other : String} (halias : other ≠ alternateKey) (hkey : other ≠ key)
    (root : Json) : root.Separates (unaliasKey alternateKey key) other := by
  intro another _ hrename
  rw [unaliasKey_of_ne halias] at hrename
  by_cases hne : another = alternateKey
  · rw [unaliasKey, if_pos hne] at hrename
    exact absurd hrename.symm hkey
  · rwa [unaliasKey_of_ne hne] at hrename

/-- What stood under the alternate key is found under the field's own. -/
theorem member?_unaliased_key (hown : (rootChild root key).present = false) :
    (unaliased alternateKey key root).member? key = root.member? alternateKey := by
  have h := Json.member?_renameKeys (separates_alias alternateKey hown)
  rwa [unaliasKey, if_pos rfl] at h

/-- Nothing stands under the alternate key any more. -/
theorem member?_unaliased_alias (hne : alternateKey ≠ key) (root : Json) :
    (unaliased alternateKey key root).member? alternateKey = none := by
  refine Json.member?_renameKeys_eq_none (fun other hother => ?_) root
  by_cases h : other = alternateKey
  · rw [unaliasKey, if_pos h] at hother
    exact hne hother.symm
  · rw [unaliasKey_of_ne h] at hother
    exact h hother

/-- The renaming touches the two spellings and nothing else. -/
theorem agreeOff_unaliased (alternateKey key : String) (root : Json) :
    AgreeOff [key, alternateKey] root (unaliased alternateKey key root) := by
  intro other hother
  simp only [List.mem_cons, List.not_mem_nil, or_false, not_or] at hother
  have h := Json.member?_renameKeys (separates_other hother.2 hother.1 root)
  rwa [unaliasKey_of_ne hother.2] at h

theorem unaliased_putChild_alias (hown : (rootChild root key).present = false)
    (value : Option Json) : unaliased alternateKey key (root.putChild value alternateKey) =
      (unaliased alternateKey key root).putChild value key := by
  have h := Json.renameKeys_putChild (separates_alias alternateKey hown) value
  rwa [unaliasKey, if_pos rfl] at h

theorem unaliased_putChild {target : String} (h : target ∉ [key, alternateKey])
    (value : Option Json) (root : Json) : unaliased alternateKey key (root.putChild value target) =
      (unaliased alternateKey key root).putChild value target := by
  simp only [List.mem_cons, List.not_mem_nil, or_false, not_or] at h
  have hput := Json.renameKeys_putChild (separates_other h.2 h.1 root) value
  rwa [unaliasKey_of_ne h.2] at hput

end Keys

/-! ## Two runs -/

/-- Only the alias is there, and the second request has it renamed. -/
structure Unaliased (alternateKey key : String) (root root' : Json) : Prop where
  given : (rootChild root alternateKey).present = true
  own : (rootChild root key).present = false
  renamed : root' = unaliased alternateKey key root

/-- The same request, without the alias. -/
structure WithoutAlias (alternateKey : String) (root root' : Json) : Prop where
  same : root = root'
  absent : (rootChild root alternateKey).present = false

namespace Unaliased

variable {root root' : Json}

/-- The field's value is the same under either spelling. -/
theorem sameValue (h : Unaliased alternateKey key root root') :
    SameValue (AliasFor alternateKey key) (rootChild root alternateKey) (rootChild root' key) := by
  rw [h.renamed]
  exact ⟨member?_unaliased_key h.own, rfl, rfl⟩

/-- The second request is written to as the first. -/
theorem of_putChild (h : Unaliased alternateKey key root root') {value : Option Json}
    {target target' : String} (hput : unaliased alternateKey key (root.putChild value target) =
      (unaliased alternateKey key root).putChild value target') :
    Unaliased alternateKey key (root.putChild value target) (root'.putChild value target') where
  given := by rw [present_congr (samePresence_putChild root value target), h.given]
  own := by rw [present_congr (samePresence_putChild root value target), h.own]
  renamed := by rw [h.renamed, hput]

end Unaliased

/-- The items and the converter of the field use the key only in the texts of errors. -/
structure BoundField.KeyInTexts (K : String → String → Prop) (field : BoundField Input) :
    Prop where
  items : ItemsKeyInTexts K field.items
  conv : Dsl.KeyInTexts K field.conv.parse

namespace BoundField.KeyInTexts

variable {K : String → String → Prop} {field : BoundField Input}

/-- A field that uses its key in texts only treats both spellings alike. -/
theorem onView (h : field.KeyInTexts K) {v v' : FieldView} (hv : SameValue K v v') :
    Matches (SameFailure K) Eq (field.onView v) (field.onView v') := by
  have hrun := (itemsAlike_of_keyInTexts h.items).runProcessors v v' hv
  unfold BoundField.onView
  generalize runProcessors field.items v = r, runProcessors field.items v' = r' at hrun
  cases hrun with
  | error herror _ => exact .error herror
  | @ok _ _ w w' _ hstate =>
      dsimp only
      rw [hstate.present]
      split
      · exact .ok rfl
      · exact (h.conv w w' hstate).map fun _ _ => congrArg fun value out =>
          field.member.assign out value

theorem outcomeAt (h : field.KeyInTexts K) {root root' : Json} {key key' : String}
    (hguarded : SameGuarded field.items root root')
    (hv : SameValue K (rootChild root key) (rootChild root' key')) :
    Matches (SameFailure K) Eq (field.outcomeAt key root).result
        (field.outcomeAt key' root').result ∧
      (field.outcomeAt key' root').value = (field.outcomeAt key root).value := by
  have hvalue := ((itemsAlike_of_keyInTexts h.items).runProcessors.endState hv).value
  simp only [BoundField.outcomeAt, skipsField_congr hguarded]
  split
  · exact ⟨.ok rfl, hv.value⟩
  · exact ⟨h.onView hv, hvalue⟩

end BoundField.KeyInTexts

namespace Unaliased

variable {root root' : Json} [Build] [LibXrpl]

omit [Build] [LibXrpl] in
theorem absent (h : Unaliased alternateKey key root root') (hne : alternateKey ≠ key) :
    (rootChild root' alternateKey).present = false := by
  rw [h.renamed, rootChild, member?_unaliased_alias hne]
  rfl

omit [Build] [LibXrpl] in
/-- Whether the field is skipped does not depend on the spelling. -/
theorem sameGuarded {field : BoundField Input}
    (h : Unaliased alternateKey field.key root root')
    (hunguarded : anyGuardsKey alternateKey field.items = false) :
    SameGuarded field.items root root' := by
  intro guardKey hguard
  refine congrArg Option.isSome ?_
  rw [h.renamed]
  apply agreeOff_unaliased alternateKey field.key root guardKey
  intro hmem
  rcases List.mem_pair.mp hmem with rfl | rfl
  · exact Bool.false_ne_true (field.unguarded.symm.trans hguard)
  · exact Bool.false_ne_true (hunguarded.symm.trans hguard)

/-- One field parsed under either spelling gives the same input and, but for the key, the
same error. -/
theorem parseOne_alias {field : BoundField Input} (hne : alternateKey ≠ field.key)
    (hunguarded : anyGuardsKey alternateKey field.items = false)
    (htexts : field.KeyInTexts (AliasFor alternateKey field.key)) (out : Input) :
    RunsMatch (Unaliased alternateKey field.key) (SameFailure (AliasFor alternateKey field.key))
      Eq ((Field.aliased alternateKey field).parseOne out)
      ((Field.aliased alternateKey field).parseOne out) := by
  intro root root' h
  obtain ⟨hresult, hvalue⟩ := htexts.outcomeAt (h.sameGuarded hunguarded) h.sameValue
  have houtcome : (Field.aliased alternateKey field).outcome root =
      field.outcomeAt alternateKey root := by
    simp [Field.outcome, outcomeAliased, h.given, h.own]
  have houtcome' : (Field.aliased alternateKey field).outcome root' =
      field.outcomeAt field.key root' := by
    simp [Field.outcome, outcomeAliased, h.absent hne]
  have hstate := h.of_putChild (unaliased_putChild_alias h.own
    (field.outcomeAt alternateKey root).value)
  rw [Field.parseOne_eq, Field.parseOne_eq, houtcome, houtcome', Outcome.run, Outcome.run, hvalue]
  generalize (field.outcomeAt alternateKey root).result = result,
    (field.outcomeAt field.key root').result = result' at hresult
  cases hresult with
  | ok hupdate => exact .ok (congrFun hupdate out) hstate
  | error herror => exact .error herror hstate

omit [LibXrpl] in
/-- One field checked under either spelling warns alike. -/
theorem check_alias {field : BoundField Input} (hne : alternateKey ≠ field.key)
    (hunguarded : anyGuardsKey alternateKey field.items = false)
    (h : Unaliased alternateKey field.key root root') :
    List.Forall₂ (SameWarning (AliasFor alternateKey field.key))
      ((Field.aliased alternateKey field).check root)
      ((Field.aliased alternateKey field).check root') := by
  have hskips := skipsField_congr (h.sameGuarded hunguarded)
  simp only [Field.check, checkAliased, h.given, h.absent hne, Bool.false_eq_true, if_true,
    if_false, BoundField.checkAt, hskips]
  split
  · exact .nil
  · exact runChecks_keyed h.sameValue field.items

/-- A field that ignores both keys. -/
theorem parseOne_ignores {f : Field Input} (hf : f.Ignores [key, alternateKey]) (out : Input) :
    RunsMatch (Unaliased alternateKey key) (SameFailure (AliasFor alternateKey key)) Eq
      (f.parseOne out) (f.parseOne out) := by
  intro root root' h
  have hoff : AgreeOff [key, alternateKey] root root' :=
    h.renamed ▸ agreeOff_unaliased alternateKey key root
  have houtcome := hf.outcome_eq hoff
  have hstate := h.of_putChild
    (unaliased_putChild (hf.target_not_mem root) (f.outcome root).value root)
  rw [f.parseOne_eq, f.parseOne_eq, houtcome, Outcome.run, Outcome.run]
  cases (f.outcome root).result with
  | ok update => exact .ok rfl hstate
  | error failure => exact .error (.refl failure) hstate

end Unaliased

/-! ## Specs -/

namespace Field

/-- The field without its second spelling. -/
def withoutAlias : Field Input → Field Input
  | .aliased _ field => .bound field
  | .bound field => .bound field
  | .ledgerSelector member => .ledgerSelector member
  | .unbound field => .unbound field

theorem memberName?_withoutAlias (f : Field Input) :
    f.withoutAlias.memberName? = f.memberName? := by
  cases f <;> rfl

/-- The second field is the first, or the first without its second spelling. -/
def LosesAlias (alternateKey : String) (field : BoundField Input) (f f' : Field Input) : Prop :=
  f' = f ∨ f = .aliased alternateKey field ∧ f' = .bound field

namespace LosesAlias

variable [Build] [LibXrpl] {field : BoundField Input} {f f' : Field Input} {root : Json}

theorem outcome_eq (h : f.LosesAlias alternateKey field f')
    (habsent : (rootChild root alternateKey).present = false) :
    f'.outcome root = f.outcome root := by
  rcases h with rfl | ⟨rfl, rfl⟩
  · rfl
  · simp [outcome, outcomeAliased, habsent]

omit [LibXrpl] in
theorem check_eq (h : f.LosesAlias alternateKey field f')
    (habsent : (rootChild root alternateKey).present = false) : f'.check root = f.check root := by
  rcases h with rfl | ⟨rfl, rfl⟩
  · rfl
  · simp [check, checkAliased, habsent]

theorem parseOne_match (h : f.LosesAlias alternateKey field f') (out : Input) :
    RunsMatch (WithoutAlias alternateKey) Eq Eq (f.parseOne out) (f'.parseOne out) := by
  rintro root _ ⟨rfl, habsent⟩
  have hstate (value : Option Json) (target : String) : WithoutAlias alternateKey
      (root.putChild value target) (root.putChild value target) :=
    ⟨rfl, by rw [present_congr (samePresence_putChild root value target), habsent]⟩
  rw [f.parseOne_eq, f'.parseOne_eq, h.outcome_eq habsent, Outcome.run]
  cases (f.outcome root).result with
  | ok update => exact .ok rfl (hstate _ _)
  | error failure => exact .error rfl (hstate _ _)

end LosesAlias

end Field

namespace TypedSpec

variable [InputAggregate Input] {spec : TypedSpec Input} {i : Nat} {field : BoundField Input}

/-- The spec with the field at an index without its second spelling. -/
def withoutAlias (spec : TypedSpec Input) (i : Nat) : TypedSpec Input where
  fields := spec.fields.modify i Field.withoutAlias
  complete := by
    have hnames : (spec.fields.modify i Field.withoutAlias).map Field.memberName? =
        spec.fields.map Field.memberName? := by
      apply List.ext_getElem?
      intro j
      rw [List.getElem?_map, List.getElem?_map, List.getElem?_modify, Option.map_eq_map,
        Option.map_map]
      refine congrArg (Option.map · spec.fields[j]?) (funext fun f => ?_)
      simp only [Function.comp_apply]
      split
      · exact f.memberName?_withoutAlias
      · rfl
    rw [distinctBoundMemberCount, hnames]
    exact spec.complete

/-- A field with two spellings stands at the index, and no other field and no guard reads
its keys. -/
structure AliasedAlone (spec : TypedSpec Input) (i : Nat) (alternateKey : String)
    (field : BoundField Input) : Prop where
  entry : spec.fields[i]? = some (.aliased alternateKey field)
  ne : alternateKey ≠ field.key
  others : ∀ j f, j ≠ i → spec.fields[j]? = some f → f.Ignores [field.key, alternateKey]
  unguarded : anyGuardsKey alternateKey field.items = false

namespace AliasedAlone

theorem cases_of_mem (h : spec.AliasedAlone i alternateKey field) {f : Field Input}
    (hf : f ∈ effectiveFields spec.fields) :
    f = .aliased alternateKey field ∨ f.Ignores [field.key, alternateKey] := by
  obtain ⟨j, hj⟩ := List.mem_iff_getElem?.mp (mem_of_mem_effectiveFields hf)
  by_cases hji : j = i
  · subst hji
    exact .inl (Option.some.inj (hj.symm.trans h.entry))
  · exact .inr (h.others j f hji hj)

/-- No later field has the key, so the field is dispatched. -/
theorem mem_effectiveFields (h : spec.AliasedAlone i alternateKey field) :
    .aliased alternateKey field ∈ effectiveFields spec.fields := by
  have hkey : field.key ∈ (effectiveFields spec.fields).map Field.key := by
    rw [effectiveFields_eq_lastWins, mem_map_key_lastWins]
    exact List.mem_map_of_mem (f := Field.key) (List.mem_of_getElem? h.entry)
  obtain ⟨f, hf, hfkey⟩ := List.mem_map.mp hkey
  rcases h.cases_of_mem hf with rfl | hignores
  · exact hf
  · exact absurd (hfkey ▸ f.key_mem_ownKeys) (hignores.own field.key (by simp))

/-- Dropping the alternate key changes one field of the spec and leaves the others. -/
theorem losesAlias (h : spec.AliasedAlone i alternateKey field) :
    List.Forall₂ (Field.LosesAlias alternateKey field) (effectiveFields spec.fields)
      (effectiveFields (spec.withoutAlias i).fields) := by
  rw [effectiveFields_eq_lastWins, effectiveFields_eq_lastWins]
  refine forall₂_lastWins ?_ ?_
  · intro f f' hloses
    rcases hloses with rfl | ⟨rfl, rfl⟩ <;> rfl
  · refine List.forall₂_iff_get.mpr ⟨(List.length_modify _ _ _).symm, ?_⟩
    intro j hj hj'
    simp only [List.get_eq_getElem, withoutAlias, List.getElem_modify]
    split
    · rename_i hij
      subst hij
      have hentry := h.entry
      rw [List.getElem?_eq_getElem hj, Option.some.injEq] at hentry
      rw [hentry]
      exact .inr ⟨rfl, rfl⟩
    · exact .inl rfl

end AliasedAlone

/-! ## Only the alias is there -/

variable [Build] [LibXrpl]

/-- The spec does with the request what it does with the second, in which the alias is
renamed, up to the key in messages and warnings. -/
structure SameUpToKey (spec : TypedSpec Input) (alternateKey key : String) (root root' : Json) :
    Prop where
  result : Matches (SameFailure (AliasFor alternateKey key)) Eq (answer (spec.parse root))
    (answer (spec.parse root'))
  warnings : List.Forall₂ (SameWarning (AliasFor alternateKey key)) (spec.check root)
    (spec.check root')
  written : endState spec.parse root' = unaliased alternateKey key (endState spec.parse root)

namespace AliasedAlone

variable {root root' : Json}

/-- A whole request parsed under either spelling ends alike. -/
theorem parse_unaliased (h : spec.AliasedAlone i alternateKey field)
    (htexts : field.KeyInTexts (AliasFor alternateKey field.key)) :
    RunsMatch (Unaliased alternateKey field.key) (SameFailure (AliasFor alternateKey field.key))
      Eq spec.parse spec.parse := by
  have hsteps : List.Forall₂ (fun f f' : Field Input => ∀ out, RunsMatch
      (Unaliased alternateKey field.key) (SameFailure (AliasFor alternateKey field.key)) Eq
      (f.parseOne out) (f'.parseOne out))
      (effectiveFields spec.fields) (effectiveFields spec.fields) := by
    apply List.forall₂_same.mpr
    intro f hf
    rcases h.cases_of_mem hf with rfl | hignores
    · exact Unaliased.parseOne_alias h.ne h.unguarded htexts
    · exact Unaliased.parseOne_ignores hignores
  refine .foldlM hsteps ?_ rfl
  rintro out _ f f' rfl hstep
  exact hstep out

omit [LibXrpl] in
/-- A whole request checked under either spelling warns alike. -/
theorem check_unaliased (h : spec.AliasedAlone i alternateKey field)
    (hroot : Unaliased alternateKey field.key root root') :
    List.Forall₂ (SameWarning (AliasFor alternateKey field.key)) (spec.check root)
      (spec.check root') := by
  refine List.rel_flatMap (R := fun f f' => List.Forall₂ (SameWarning _) (f.check root)
    (f'.check root')) (List.forall₂_same.mpr fun f hf => ?_) fun _ _ hcheck => hcheck
  rcases h.cases_of_mem hf with rfl | hignores
  · exact hroot.check_alias h.ne h.unguarded
  · have hoff := agreeOff_unaliased alternateKey field.key root
    rw [← hroot.renamed] at hoff
    rw [hignores.check_eq hoff]
    exact List.forall₂_same.mpr fun warning _ => .refl warning

/-- The alias is a renaming. -/
theorem sameUpToKey (h : spec.AliasedAlone i alternateKey field)
    (htexts : field.KeyInTexts (AliasFor alternateKey field.key))
    (hgiven : (rootChild root alternateKey).present = true)
    (hown : (rootChild root field.key).present = false) :
    spec.SameUpToKey alternateKey field.key root (unaliased alternateKey field.key root) := by
  have hroot : Unaliased alternateKey field.key root (unaliased alternateKey field.key root) :=
    ⟨hgiven, hown, rfl⟩
  have hparse := h.parse_unaliased htexts
  exact ⟨(hparse _ _ hroot).answer, h.check_unaliased hroot, (hparse.endState hroot).renamed⟩

end AliasedAlone

/-! ## The alias is not there -/

/-- Without the alias the spec does what it does without the second spelling. -/
structure SameWithoutAlias (spec : TypedSpec Input) (i : Nat) (root : Json) : Prop where
  run : spec.parse root = (spec.withoutAlias i).parse root
  warnings : spec.check root = (spec.withoutAlias i).check root

/-- Where the alternate key is absent the spec behaves as if it had none. -/
theorem AliasedAlone.sameWithoutAlias (h : spec.AliasedAlone i alternateKey field) {root : Json}
    (habsent : (rootChild root alternateKey).present = false) : spec.SameWithoutAlias i root where
  run := by
    have hparse : RunsMatch (WithoutAlias alternateKey) Eq Eq spec.parse
        (spec.withoutAlias i).parse := by
      refine .foldlM h.losesAlias ?_ rfl
      rintro out _ f f' rfl hloses
      exact hloses.parseOne_match out
    have hrun := hparse root root ⟨rfl, habsent⟩
    generalize spec.parse root = r, (spec.withoutAlias i).parse root = r' at hrun
    cases hrun with
    | ok hout hstate => rw [hout, hstate.same]
    | error hfailure hstate => rw [hfailure, hstate.same]
  warnings := by
    refine List.forall₂_eq_eq_eq ▸ List.rel_flatMap h.losesAlias fun f f' hloses => ?_
    rw [hloses.check_eq habsent]
    exact List.forall₂_same.mpr fun _ _ => rfl

/-! ## Both are there -/

/-- Where the field is spelled twice what stands under its keys stays. -/
def KeepsIfTwiceSpelled (alternateKey : String) (field : BoundField Input) (root root' : Json) :
    Prop :=
  SamePresence root root' ∧ ((Field.aliased alternateKey field).twiceSpelled root = true →
    KeepsUnder [field.key, alternateKey] root root')

namespace KeepsIfTwiceSpelled

omit [InputAggregate Input] [Build] [LibXrpl] in
theorem refl (root : Json) : KeepsIfTwiceSpelled alternateKey field root root :=
  ⟨.refl root, fun _ => .refl _ root⟩

omit [InputAggregate Input] [Build] [LibXrpl] in
theorem trans (root root' root'' : Json) (h : KeepsIfTwiceSpelled alternateKey field root root')
    (h' : KeepsIfTwiceSpelled alternateKey field root' root'') :
    KeepsIfTwiceSpelled alternateKey field root root'' := by
  refine ⟨h.1.trans h'.1, fun hboth => .trans root root' root'' (h.2 hboth) (h'.2 ?_)⟩
  rwa [Field.twiceSpelled_congr h.1]

end KeepsIfTwiceSpelled

/-- The field fails before it writes; so the spec fails with its error, unless a field
before it fails. -/
structure RefusesBoth (spec : TypedSpec Input) (alternateKey : String)
    (field : BoundField Input) (root : Json) : Prop where
  refuses : ∀ out, (Field.aliased alternateKey field).parseOne out root = .error tooManyFields root
  result : ∃ before after,
    effectiveFields spec.fields = before ++ .aliased alternateKey field :: after ∧
      answer (spec.parse root) =
        answer (parseFields before InputAggregate.init root) >>= fun _ => .error tooManyFields
  kept : KeepsUnder [field.key, alternateKey] root (endState spec.parse root)

namespace AliasedAlone

variable {root : Json}

/-- With both spellings present neither of the two members is rewritten. -/
theorem kept_of_both (h : spec.AliasedAlone i alternateKey field)
    (hboth : (Field.aliased alternateKey field).twiceSpelled root = true) :
    KeepsUnder [field.key, alternateKey] root (endState spec.parse root) := by
  have hrun : Moves (KeepsIfTwiceSpelled alternateKey field) spec.parse := by
    unfold parse
    refine .foldlM .refl .trans ?_ _
    intro out f hf root
    refine ⟨samePresence_parseOne f out root, ?_⟩
    intro hboth
    rcases h.cases_of_mem hf with rfl | hignores
    · rw [endState_of_error (Field.parseOne_of_twiceSpelled hboth out)]
      exact .refl _ root
    · exact hignores.keeps out root
  exact (hrun root).2 hboth

/-- Both are there, and the request is refused. -/
theorem refusesBoth (h : spec.AliasedAlone i alternateKey field)
    (hboth : (Field.aliased alternateKey field).twiceSpelled root = true) :
    spec.RefusesBoth alternateKey field root where
  refuses := Field.parseOne_of_twiceSpelled hboth
  result := by
    obtain ⟨before, after, heq⟩ := List.append_of_mem h.mem_effectiveFields
    refine ⟨before, after, heq, ?_⟩
    rw [parse, heq]
    refine answer_parseFields_failing ?_ _
    intro out state hsame
    exact Field.parseOne_of_twiceSpelled ((Field.twiceSpelled_congr hsame _).trans hboth) out
  kept := h.kept_of_both hboth

end AliasedAlone

/-! ## All of it -/

/-- At most one of the two spellings counts. -/
structure OneSpelling (spec : TypedSpec Input) (i : Nat) (alternateKey : String)
    (field : BoundField Input) : Prop where
  noAlias : ∀ root, (rootChild root alternateKey).present = false → spec.SameWithoutAlias i root
  both : ∀ root, (Field.aliased alternateKey field).twiceSpelled root = true →
    spec.RefusesBoth alternateKey field root

/-- The alias is another name for the key. -/
structure PureRenaming (spec : TypedSpec Input) (i : Nat) (alternateKey : String)
    (field : BoundField Input) : Prop extends spec.OneSpelling i alternateKey field where
  onlyAlias : ∀ root, (rootChild root alternateKey).present = true →
    (rootChild root field.key).present = false →
      spec.SameUpToKey alternateKey field.key root (unaliased alternateKey field.key root)

namespace AliasedAlone

theorem oneSpelling (h : spec.AliasedAlone i alternateKey field) :
    spec.OneSpelling i alternateKey field where
  noAlias _ habsent := h.sameWithoutAlias habsent
  both _ hboth := h.refusesBoth hboth

theorem pureRenaming (h : spec.AliasedAlone i alternateKey field)
    (htexts : field.KeyInTexts (AliasFor alternateKey field.key)) :
    spec.PureRenaming i alternateKey field where
  toOneSpelling := h.oneSpelling
  onlyAlias _ hgiven hown := h.sameUpToKey htexts hgiven hown

omit [Build] [LibXrpl] in
/-- That the field stands alone can be computed. -/
theorem of_all (hentry : spec.fields[i]? = some (.aliased alternateKey field))
    (hne : alternateKey ≠ field.key)
    (hothers : (spec.fields.eraseIdx i).all fun f =>
      [field.key, alternateKey].all fun key => !f.ownKeys.contains key && !f.guardsKey key)
    (hunguarded : anyGuardsKey alternateKey field.items = false) :
    spec.AliasedAlone i alternateKey field where
  entry := hentry
  ne := hne
  others j f hj hf := by
    have hmem : f ∈ spec.fields.eraseIdx i := List.mem_eraseIdx_iff_getElem?.mpr ⟨j, hj, hf⟩
    have hkeys := List.all_eq_true.mp hothers f hmem
    simp only [List.all_eq_true, Bool.and_eq_true, Bool.not_eq_true', List.contains_eq_mem,
      decide_eq_false_iff_not] at hkeys
    exact ⟨fun key hkey => (hkeys key hkey).1, fun key hkey => (hkeys key hkey).2⟩
  unguarded := hunguarded

end AliasedAlone

end TypedSpec

namespace ToggleInput

/-- The field with two spellings, under items of its own. -/
def strictField (items : List (Item JsonBool))
    (unguarded : anyGuardsKey "strict" items = false) : BoundField ToggleInput :=
  { key := "strict", member := strictMember, items, conv := jsonBool, unguarded }

/-- One field with an alternate key and no items. -/
def kTwoSpellingsSpec : TypedSpec ToggleInput :=
  ⟨[.aliased "alt" (strictField [] rfl)], by rfl⟩

theorem kTwoSpellingsSpec_aliasedAlone :
    kTwoSpellingsSpec.AliasedAlone 0 "alt" (strictField [] rfl) :=
  .of_all rfl (by decide) rfl rfl

/-- A validator that accepts one of the spellings. -/
def refuseAlternate : Item JsonBool :=
  customValidator fun fieldView => rejectIf (fieldView.key == "alt") XrpldError.rpcInvalidParams

/-- The field refuses a view whose key is the alternate one. -/
def kRefuseAlternateSpec : TypedSpec ToggleInput :=
  ⟨[.aliased "alt" (strictField [refuseAlternate] rfl)], by rfl⟩

/-- A required field stands before the one with two spellings. -/
def kRequiredFirstSpec [Build] : TypedSpec ToggleInput :=
  ⟨[unboundField "first" [required], .aliased "alt" (strictField [] rfl)], by rfl⟩

theorem kRefuseAlternateSpec_aliasedAlone :
    kRefuseAlternateSpec.AliasedAlone 0 "alt" (strictField [refuseAlternate] rfl) :=
  .of_all rfl (by decide) rfl rfl

theorem kRequiredFirstSpec_aliasedAlone [Build] :
    kRequiredFirstSpec.AliasedAlone 1 "alt" (strictField [] rfl) :=
  .of_all rfl (by decide) rfl rfl

/-- The request that uses the alternate key alone. -/
def onlyAlternate : Json := .object [("alt", .bool true)]

/-- With only the alias the request is refused, and with the key in its place it is not; with
both it is refused with the error of a field before. -/
theorem alias_not_renaming :
    (kRefuseAlternateSpec.AliasedAlone 0 "alt" (strictField [refuseAlternate] rfl) ∧
      (rootChild onlyAlternate "alt").present = true ∧
      (rootChild onlyAlternate "strict").present = false ∧
      ¬ @TypedSpec.SameUpToKey _ _ .clio hexLib kRefuseAlternateSpec "alt" "strict"
        onlyAlternate (unaliased "alt" "strict" onlyAlternate)) ∧
    ((@kRequiredFirstSpec .clio).AliasedAlone 1 "alt" (strictField [] rfl) ∧
      (Field.aliased "alt" (strictField [] rfl)).twiceSpelled bothSpellings = true ∧
      (strictField [] rfl).items = [] ∧
      answer (@TypedSpec.parse _ _ .clio hexLib (@kRequiredFirstSpec .clio) bothSpellings) ≠
        .error tooManyFields) := by
  refine ⟨⟨kRefuseAlternateSpec_aliasedAlone, rfl, rfl, fun hsame => ?_⟩,
    @kRequiredFirstSpec_aliasedAlone .clio, rfl, rfl, fun herror => ?_⟩
  · have hresult := @TypedSpec.SameUpToKey.result _ _ .clio hexLib _ _ _ _ _ hsame
    have hrefused : answer (@TypedSpec.parse _ _ .clio hexLib kRefuseAlternateSpec
        onlyAlternate) = .error (unexpected XrpldError.rpcInvalidParams) := rfl
    have haccepted : answer (@TypedSpec.parse _ _ .clio hexLib kRefuseAlternateSpec
        (unaliased "alt" "strict" onlyAlternate)) = .ok ⟨true⟩ := rfl
    rw [hrefused, haccepted] at hresult
    cases hresult
  · have hrequired : answer (@TypedSpec.parse _ _ .clio hexLib (@kRequiredFirstSpec .clio)
        bothSpellings) = .error (unexpected XrpldError.rpcInvalidParams
          (@missingFieldMessage .clio "first")) := rfl
    rw [hrequired] at herror
    have hmessage := congrArg (fun result : Except Failure ToggleInput => match result with
      | .error (.error status) => status.message
      | _ => "") herror
    exact absurd hmessage (by decide)

end ToggleInput

end RpcSpec.Dsl
