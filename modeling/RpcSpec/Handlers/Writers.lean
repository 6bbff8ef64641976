import RpcSpec.Handlers.LedgerEntrySelectors
import RpcSpec.Handlers.Ledgers
import RpcSpec.Handlers.Markets
import RpcSpec.Dsl.NumberTexts
set_option autoImplicit false

/-!
# The items that rewrite

The fields of the handlers that carry a modifier: limits, bounds of a ledger range,
texts whose case is changed, numbers given as text, the document ids of oracles.

For each there is a frame, the leaf it may write, and stability, that it takes what it has
written for what it is; the results about whole requests ask for no more.
-/

namespace RpcSpec.Handlers

open RpcSpec.Dsl RpcSpec.Foundation FieldView XrpldError

variable {α : Type}

/-! ## Limits -/

/-- A clamped limit is within the bounds and above the minimum, so it passes once more. -/
theorem boundedUint32_normalizes {lo kMin kMax : UInt32} (hlo : lo ≤ kMin) (h : kMin ≤ kMax) :
    Normalizes ([type [.uint32], min lo, clamp kMin kMax] : List (Item α)) where
  frames := by simp [AllModifiers, Item.AllModifiers, type, Dsl.min, clamp, frames_clamp]
  stable := stable_boundedUint32 hlo h

/-- The default adds nothing to a field that is there. -/
theorem limitItems_normalizes {kMin kMax kDefault lo : UInt32} (hlo : lo ≤ kMin)
    (h : kMin ≤ kMax) : Normalizes (limitItems kMin kMax kDefault lo) where
  frames := by
    simp [AllModifiers, Item.AllModifiers, limitItems, type, Dsl.min, clamp, defaultTo,
      frames_clamp]
  stable := Stable.append_readOnly (stable_boundedUint32 hlo h)
    (show itemsPaths [defaultTo kDefault] = [] from rfl)

section Build

variable [Build]

/-- The checks of a limit, and then what differs between the handlers. -/
theorem serverLimit_stable {kMin kMax kDefault : UInt32} {tail : List (Item UInt32)}
    (hlo : 1 ≤ kMin) (h : kMin ≤ kMax)
    (hclio : kIsClioBuild = true → runProcessors tail =
      runProcessors [(clamp kMin kMax : Item UInt32)])
    (hxrpld : kIsClioBuild = false → runProcessors tail = pure ()) :
    Stable (serverLimitChecks kDefault ++ tail) := by
  cases hbuild : kIsClioBuild with
  | true =>
      refine Stable.congr ?_ (stable_boundedUint32 hlo h)
      rw [serverLimitChecks, List.cons_append, runProcessors_not_ifServerXrpld hbuild,
        List.cons_append, runProcessors_not_ifServerXrpld hbuild, List.cons_append,
        List.nil_append, runProcessors_ifServerClio (.inr rfl) hbuild, runProcessors_append,
        hclio hbuild]
      exact (runProcessors_append _ _).symm
  | false =>
      have hnull : Stable [(nullAs (.ofUint32 kDefault) : Item UInt32)] := by
        refine .of_meets (Q := fun v => v.isNull = false)
          (.cons (.modifier fun v _ => rewriteBy_safe ?_) .nil) fun v hv => ?_
        · cases hnull : v.isNull with
          | false => exact rfl
          | true =>
              obtain ⟨key, value⟩ := v
              rcases value with _ | (_ | _ | _ | _ | _ | _ | _ | _) <;> cases hnull
              exact ⟨rfl, rfl⟩
        · rw [List.forall_mem_singleton]
          exact .rewriteBy ⟨none, by simp [hv]; rfl, by simp⟩
      have hchecks : itemsPaths ([withCustomError (type [.uint32]) rpcInvalidParams
          "Invalid field 'limit', not unsigned integer.",
        withCustomError (min (1 : UInt32)) rpcInvalidParams "Invalid field 'limit'."] :
          List (Item UInt32)) = [] := rfl
      refine Stable.congr ?_ (hnull.append_readOnly hchecks)
      rw [serverLimitChecks, List.cons_append, runProcessors_ifServerXrpld (.inl rfl) hbuild,
        runProcessors_append, List.cons_append, runProcessors_ifServerXrpld (.inr rfl) hbuild,
        runProcessors_append, List.cons_append, List.nil_append,
        runProcessors_not_ifServerClio hbuild, hxrpld hbuild, runProcessors_append]
      simp

/-- Whichever way the default and the bounds are listed. -/
theorem serverLimit_frames {kMin kMax kDefault : UInt32} {tail : List (Item UInt32)}
    (h : tail = [ifServerClio [clamp kMin kMax], defaultTo kDefault] ∨
      tail = [defaultTo kDefault, ifServerClio [clamp kMin kMax]]) :
    AllModifiers Frames (serverLimitChecks kDefault ++ tail) := by
  have hnull : Frames (rewriteBy fun v =>
      pure (if v.isNull then some (Json.ofUint32 kDefault) else none)) := frames_nullAs rfl
  rcases h with rfl | rfl <;>
    simpa [AllModifiers, Item.AllModifiers, serverLimitChecks, ifServerXrpld, ifServerClio,
      withCustomError, nullAs, type, Dsl.min, clamp, defaultTo, frames_clamp] using hnull

/-- What xrpld puts in for `null` passes its own checks. -/
theorem serverLimitItems_normalizes {kMin kMax kDefault : UInt32} (hlo : 1 ≤ kMin)
    (h : kMin ≤ kMax) : Normalizes (serverLimitItems kMin kMax kDefault) where
  frames := serverLimit_frames (.inl rfl)
  stable := serverLimit_stable hlo h
    (fun hbuild => by
      rw [runProcessors_ifServerClio (.inl rfl) hbuild]
      rfl)
    (fun hbuild => by
      rw [runProcessors_not_ifServerClio hbuild]
      rfl)

theorem serverLimitItems'_normalizes {kMin kMax kDefault : UInt32} (hlo : 1 ≤ kMin)
    (h : kMin ≤ kMax) : Normalizes (serverLimitChecks kDefault ++
      [defaultTo kDefault, ifServerClio [clamp kMin kMax]]) where
  frames := serverLimit_frames (.inr rfl)
  stable := serverLimit_stable hlo h
    (fun hbuild => by
      rw [defaultTo, runProcessors_cons, runProcessors_ifServerClio (.inl rfl) hbuild]
      rfl)
    (fun hbuild => by
      rw [defaultTo, runProcessors_cons, runProcessors_not_ifServerClio hbuild]
      rfl)

end Build

/-! ## Bounds, texts and numbers -/

/-- A bound that was cut to 32 bits is cut no further. -/
theorem int32BoundItems_normalizes : Normalizes int32BoundItems where
  frames := by
    simp [AllModifiers, Item.AllModifiers, int32BoundItems, type, clampAs, frames_clampAs]
  stable := stable_int32

/-- Lower case is put into lower case and named as before. -/
theorem lowerTxType_normalizes [LibXrpl] {α : Type} :
    Normalizes ([toLower, txTypeValidator] : List (Item α)) where
  frames := by
    simp [AllModifiers, Item.AllModifiers, toLower, txTypeValidator, customValidator,
      frames_mapText]
  stable := (stable_mapText Text.toLower_toLower).append_readOnly rfl

theorem toUpper_normalizes : Normalizes [Tx.toUpper] where
  frames := by simp [AllModifiers, Item.AllModifiers, Tx.toUpper, frames_mapText]
  stable := stable_mapText Text.toUpper_toUpper

/-- A number is left, and a string becomes the number it spells. -/
theorem lexicalUint32_meets : (lexicalUint32Item : Item α).Meets
    (fun v => v.present = true → v.isUint32 = true ∨ v.isString = true)
    fun v => v.present = true → v.isUint32 = true := by
  refine .modifier fun v hv => rewriteBy_safe ?_
  unfold LexicalUint32Modifier.newValue
  split
  · rename_i hskip
    intro hp
    rw [hp, Bool.not_true, Bool.false_or, Bool.not_eq_true'] at hskip
    simpa [hskip] using hv hp
  · rename_i hstring
    simp only [Bool.or_eq_true, Bool.not_eq_true', not_or, Bool.not_eq_false] at hstring
    refine safe_asString_bind hstring.2 fun text _ => safe_orReject_bind fun val _ => ?_
    exact ⟨hstring.1, fun _ => (ofUint32_isUint32 rfl).1⟩

/-- A string becomes the number it spells, and a number is left alone. -/
theorem stable_lexicalUint32 :
    Stable ([type [.uint32, .string], lexicalUint32Item] : List (Item α)) := by
  have htype : (type [.uint32, .string] : Item α).Meets (fun _ => True)
      fun v => v.present = true → v.isUint32 = true ∨ v.isString = true :=
    .requirement fun v _ => (TypeIs.verify_safe _ v).mono fun _ h hp => by
      simpa [FieldView.is] using h hp
  refine .of_meets (.cons htype (.cons lexicalUint32_meets .nil)) ?_
  intro v hv
  rw [List.forall_mem_cons, List.forall_mem_singleton]
  refine ⟨type_fixes fun hp => by simp [FieldView.is, hv hp], .rewriteBy ⟨none, ?_, by simp⟩⟩
  have hskip : (!v.present || !v.isString) = true := by
    cases hp : v.present with
    | false => rfl
    | true =>
        have hnumber := hv hp
        obtain ⟨key, value⟩ := v
        rcases value with _ | (_ | _ | _ | _ | _ | _ | _ | _) <;> first | rfl | cases hnumber
  rw [LexicalUint32Modifier.newValue, if_pos hskip]
  rfl

/-- With whatever stands behind it that rewrites nothing. -/
theorem numberItems_normalizes [Build] (rest : List (Item α)) (hrest : itemsPaths rest = []) :
    Normalizes (GetAggregatePrice.numberItems ++ rest) where
  frames := by
    have hframes := allModifiers_of_noPaths (P := Frames) hrest
    simpa [AllModifiers, Item.AllModifiers, GetAggregatePrice.numberItems, ifServerXrpld,
      ifServerClio, type, lexicalUint32Item, frames_lexicalUint32] using hframes
  stable := by
    cases hbuild : kIsClioBuild with
    | true =>
        have hstable : Stable (type [.uint32] :: rest) := stable_of_noPaths hrest
        refine Stable.congr ?_ hstable
        change runProcessors (ifServerXrpld [type [.uint32, .string]] ::
          ifServerClio [type [.uint32]] :: ifServerXrpld [lexicalUint32Item] :: rest) = _
        rw [runProcessors_not_ifServerXrpld hbuild, runProcessors_ifServerClio (.inr rfl) hbuild,
          List.singleton_append, runProcessors_cons, runProcessors_not_ifServerXrpld hbuild,
          runProcessors_cons]
    | false =>
        refine Stable.congr ?_ (stable_lexicalUint32.append_readOnly hrest)
        change runProcessors (ifServerXrpld [type [.uint32, .string]] ::
          ifServerClio [type [.uint32]] :: ifServerXrpld [lexicalUint32Item] :: rest) = _
        rw [runProcessors_ifServerXrpld (.inr rfl) hbuild, List.singleton_append,
          runProcessors_cons, runProcessors_not_ifServerClio hbuild,
          runProcessors_ifServerXrpld (.inl rfl) hbuild, ← runProcessors_cons]
        rfl

/-! ## Oracles -/

namespace GetAggregatePrice

variable [Build] [LibXrpl]

/-- Of one oracle only the id is written. -/
theorem frames_modifyOracle : Frames modifyOracle := by
  have hread {x : MaybeError} :
      Moves (ViewWithin [[]]) (monadLift x : EStateM Failure FieldView Unit) := .monadLift .refl x
  refine .get_bind ?_
  intro elem
  refine Moves.bind (fun _ _ _ => .trans) hread (fun _ => ?_) elem
  refine .bind (fun _ _ _ => .trans) hread fun _ => ?_
  refine .bind (fun _ _ _ => .trans) hread fun _ => ?_
  refine .bind (fun _ _ _ => .trans) (.zoom frames_toNumber fun v childView hchild =>
    hchild.putChild.mono (coversPaths_nil _)) fun _ => hread

theorem frames_modifyOracles : Frames modifyOracles := by
  refine .get_bind ?_
  intro v
  refine Moves.bind (fun _ _ _ => .trans) (.monadLift .refl _) (fun _ => ?_) v
  exact .forM .refl (fun _ _ _ => .trans) fun i _ => .zoom frames_modifyOracle
    fun v elementView helement => helement.putElement.mono (coversPaths_nil _)

/-- An oracle whose document id is a number is left as it is. -/
theorem modifyOracle_fixed {elem : FieldView} (hobject : elem.isObject = true)
    (hdocId : (elem.child "oracle_document_id").isUint32 = true)
    (hpresent : (elem.child "account").present = true)
    (haccount : AccountBase58Validator.verify (elem.child "account") = .ok ()) :
    modifyOracle elem = .ok () elem := by
  have hdocPresent := present_of_is (t := .uint32) hdocId
  have hnumber : ToNumberModifier.modify (elem.child "oracle_document_id") =
      .ok () (elem.child "oracle_document_id") := by
    apply toNumber_of_not_string
    generalize elem.child "oracle_document_id" = docId at hdocId
    obtain ⟨key, value⟩ := docId
    rcases value with _ | (_ | _ | _ | _ | _ | _ | _ | _) <;> first | rfl | cases hdocId
  change (monadLift (rejectIf (!elem.isObject) rpcOracleMalformed) >>= _ :
    EStateM Failure FieldView Unit) elem = _
  refine (monadLift_ok_bind (rejectIf_false (by simp [hobject])) _ _).trans ?_
  refine (monadLift_ok_bind (rejectIf_false (by simp [hdocPresent, hpresent])) _ _).trans ?_
  refine (monadLift_ok_bind (rejectIf_false (by simp [FieldView.is, hdocId])) _ _).trans ?_
  change EStateM.bind (onChild "oracle_document_id" ToNumberModifier.modify) _ elem = _
  rw [EStateM.bind, onChild, zoom, hnumber]
  dsimp only
  rw [putChild_child, haccount]
  rfl

/-- An oracle that was rewritten is left as it is the next time. -/
theorem modifyOracle_settles (elem : FieldView) : SafeRun modifyOracle elem fun _ elem' =>
    SameField elem elem' ∧ modifyOracle elem' = .ok () elem' := by
  refine SafeRun.get_bind ?_
  refine SafeRun.bind (SafeRun.lift safe_rejectIf) ?_
  rintro _ elem ⟨hobject, rfl⟩
  refine SafeRun.bind (SafeRun.lift safe_rejectIf) ?_
  rintro _ elem ⟨hpresent, rfl⟩
  simp only [Bool.or_eq_false_iff, Bool.not_eq_eq_eq_not, Bool.not_false] at hpresent hobject
  refine SafeRun.bind (SafeRun.lift (TypeIs.verify_safe _ _)) ?_
  rintro _ elem ⟨htype, rfl⟩
  have htype : (elem.child "oracle_document_id").isUint32 = true ∨
      (elem.child "oracle_document_id").isString = true := by
    simpa [FieldView.is] using htype hpresent.1
  refine SafeRun.bind (SafeRun.zoom (toNumber_meets (α := Unit) _ htype)) ?_
  rintro _ _ ⟨docId, ⟨hsame, hnumber⟩, rfl⟩
  have hsafe := (AccountBase58Validator.verify_safe (elem.child "account")).and_ok
  refine (SafeRun.lift (hsafe.mapError (customFailure_error _ _))).mono ?_
  rintro _ _ ⟨⟨haccount, -⟩, rfl⟩
  have hdocView : (elem.putChild "oracle_document_id" docId).child "oracle_document_id" = docId :=
    child_putChild_same hsame.1 hsame.2
  have haccountView : (elem.putChild "oracle_document_id" docId).child "account" =
      elem.child "account" := child_putChild_ne (by decide) _ _
  refine ⟨sameField_putChild _ _ _, modifyOracle_fixed ?_ ?_ ?_ ?_⟩
  · rw [isObject_putChild, hobject]
  · rwa [hdocView]
  · rw [haccountView, hpresent.2]
  · rw [haccountView, haccount]

/-- The oracles as the modifier leaves them. -/
def OraclesSettled (v : FieldView) : Prop :=
  (!v.isArray || v.arraySize == 0 || decide (kOraclesMax < v.arraySize)) = false ∧
    ∀ i < v.arraySize, modifyOracle (v.element i) = .ok () (v.element i)

theorem modifyOracles_settles (v : FieldView) : SafeRun modifyOracles v fun _ v' =>
    SameField v v' ∧ OraclesSettled v' := by
  refine SafeRun.get_bind ?_
  refine SafeRun.bind (SafeRun.lift safe_rejectIf) ?_
  rintro _ v ⟨hbounds, rfl⟩
  refine (forM_onElement_safe modifyOracle_settles v le_rfl).mono ?_
  rintro _ v' ⟨hsame, harray, hsize, hall⟩
  refine ⟨hsame, ?_, fun i hi => hall i (hsize ▸ hi)⟩
  rwa [harray, hsize]

/-- A settled list is run through without a change. -/
theorem modifyOracles_fixed {v : FieldView} (hv : OraclesSettled v) :
    modifyOracles v = .ok () v := by
  obtain ⟨hbounds, hall⟩ := hv
  change (monadLift (rejectIf _ rpcOracleMalformed) >>= _ : EStateM Failure FieldView Unit) v = _
  rw [monadLift_ok_bind (rejectIf_false hbounds)]
  apply forM_fixed
  intro i hi
  rw [onElement, zoom, hall i (List.mem_range.mp hi)]
  dsimp only
  rw [putElement_element]

theorem frames_oraclesItems : AllModifiers Frames oraclesItems := by
  have horacles : Frames (do
      let fieldView ← get
      if !fieldView.present then pure () else modifyOracles) := by
    refine .get_bind ?_
    intro v
    split
    · exact .refl v
    · exact frames_modifyOracles v
  simpa [AllModifiers, Item.AllModifiers, oraclesItems, ifServerXrpld, ifServerClio, required,
    withCustomError, type, minArrayLength, maxArrayLength, kOraclesValidator, customModifier]
    using horacles

theorem kOraclesValidator_settles : kOraclesValidator.Meets (fun v => v.present = true)
    fun v => v.present = true ∧ OraclesSettled v := by
  refine .modifier fun v hp => SafeRun.get_bind ?_
  rw [hp]
  refine (modifyOracles_settles v).mono ?_
  rintro _ v' ⟨hsame, hv'⟩
  exact ⟨hsame, hsame.2.trans hp, hv'⟩

theorem stable_kOraclesValidator : Stable [required, kOraclesValidator] := by
  refine .of_meets (.cons (required_checks.meets.mono (fun _ h => h) fun _ h => h.2)
    (.cons kOraclesValidator_settles .nil)) ?_
  rintro v ⟨hp, hv⟩
  rw [List.forall_mem_cons, List.forall_mem_singleton]
  refine ⟨.requirement (rejectIf_false (by simp [hp])), .modifier ?_⟩
  change (if !v.present then pure () else modifyOracles : EStateM Failure FieldView Unit) v = _
  rw [hp]
  exact modifyOracles_fixed hv

theorem oraclesItems_normalizes : Normalizes oraclesItems where
  frames := frames_oraclesItems
  stable := by
    cases hbuild : kIsClioBuild with
    | true =>
        refine Stable.congr ?_ stable_kOraclesValidator
        rw [oraclesItems, runProcessors_cons, runProcessors_not_ifServerXrpld hbuild,
          runProcessors_ifServerClio (.inl rfl) hbuild, List.append_nil, ← runProcessors_cons]
    | false =>
        have hstable : Stable ([required, ifServerXrpld
            [withCustomError (type [.array]) rpcOracleMalformed,
            withCustomError (minArrayLength 1) rpcOracleMalformed,
            withCustomError (maxArrayLength kOraclesMax) rpcOracleMalformed]] :
              List (Item DeferredOracles)) := stable_of_noPaths rfl
        refine Stable.congr ?_ hstable
        rw [oraclesItems, runProcessors_cons, runProcessors_cons,
          runProcessors_not_ifServerClio hbuild, ← runProcessors_cons, ← runProcessors_cons]

end GetAggregatePrice

/-! ## The selector of an oracle -/

namespace LedgerEntry

/-- A check that has passed passes again. -/
theorem checks_fixes {item : Item α} {Q P : FieldView → Prop} (h : item.Checks Q) :
    item.Meets P fun v => P v ∧ Q v ∧ item.Fixes v := fun v hP =>
  (h v).and_run.mono fun _ v' ⟨hrun, hsame, hQ⟩ => by
    subst hsame
    exact ⟨.refl _, hP, hQ, hrun⟩

/-- A selector whose section is stable. -/
theorem selector_stable {typeCheck hash : Item α} {subFields : List (FieldSpec α)}
    (htype : typeCheck.Checks StringOrObject)
    (htypeFixes : ∀ v, v.isObject = true → typeCheck.Fixes v)
    {Q : FieldView → Prop} (hhash : hash.Checks Q)
    (hkeys : (subFields.map FieldSpec.key).Nodup)
    (hfields : ∀ field ∈ subFields, Stable field.items ∧
      ItemsMeet (fun _ => True) field.items fun _ => True) :
    Stable (selectorItems typeCheck hash subFields) := by
  have hsection : (ifType .object [section_ subFields] : Item α).Meets
      (fun v => typeCheck.Fixes v ∧ (ifType .string [hash]).Fixes v) fun v =>
        typeCheck.Fixes v ∧ (ifType .string [hash]).Fixes v ∧
          (ifType .object [section_ subFields]).Fixes v := by
    have hbranch : ItemsMeet (fun v => (typeCheck.Fixes v ∧ (ifType .string [hash]).Fixes v) ∧
        v.is .object = true) [section_ subFields] fun v =>
          v.isObject = true ∧ (section_ subFields).Fixes v :=
      .cons ((Stable.section_ hkeys hfields).mono (fun _ h => h.2) fun _ h => h) .nil
    refine (Item.Meets.ifType hbranch).mono (fun _ h => h) ?_
    rintro v (⟨hobject, hfixes⟩ | ⟨hbefore, hother⟩)
    · have hstring : v.is .string = false := by
        obtain ⟨key, value⟩ := v
        rcases value with _ | (_ | _ | _ | _ | _ | _ | _ | _) <;> first | rfl | cases hobject
      refine ⟨htypeFixes v hobject, .ifType_other hstring, .ifType (runProcessors_fixed ?_)⟩
      rwa [List.forall_mem_singleton]
    · exact ⟨hbefore.1, hbefore.2, .ifType_other hother⟩
  have hchecks : (ifType .string [hash]).Meets (fun v => typeCheck.Fixes v) fun v =>
      typeCheck.Fixes v ∧ (ifType .string [hash]).Fixes v :=
    (checks_fixes (.ifType (.single hhash))).mono (fun _ h => h) fun _ h => ⟨h.1, h.2.2⟩
  refine .of_meets (.cons ((checks_fixes (P := fun _ => True) htype).mono (fun _ h => h)
    fun _ h => h.2.2) (.cons hchecks (.cons hsection .nil))) fun v ⟨htype, hstring, hobject⟩ => ?_
  rw [selectorItems, List.forall_mem_cons, List.forall_mem_cons, List.forall_mem_singleton]
  exact ⟨htype, hstring, hobject⟩

section Build

variable [Build]

/-- The document id is a number once it has been read. -/
theorem documentId_meets : ItemsMeet (fun _ => True) ([requiredOrMalformed,
    withCustomError (type [.uint32, .string]) kMalformedOracleDocumentId,
    withCustomError toNumber kMalformedOracleDocumentId] : List (Item α))
      fun v => v.isUint32 = true := by
  have htype : (withCustomError (type [.uint32, .string]) kMalformedOracleDocumentId :
      Item α).Checks fun v => v.present = true → v.isUint32 = true ∨ v.isString = true :=
    .withCustomError (.requirement fun v => (TypeIs.verify_safe _ v).mono fun _ h hp => by
      simpa [FieldView.is] using h hp) _ _
  have hnumber : (withCustomError toNumber kMalformedOracleDocumentId : Item α).Meets
      (fun v => v.present = true ∧
        (v.present = true → v.isUint32 = true ∨ v.isString = true))
      fun v => v.isUint32 = true :=
    (toNumber_meets.mono (fun _ h => h.2 h.1) fun _ h => h).withCustomError _ _
  exact .cons (requiredOrMalformed_checks.meets.mono (fun _ h => h) fun _ h => h.2)
    (.cons htype.meets (.cons hnumber .nil))

/-- The three items of the id, which leave a number. -/
theorem stable_documentId : Stable ([requiredOrMalformed,
    withCustomError (type [.uint32, .string]) kMalformedOracleDocumentId,
    withCustomError toNumber kMalformedOracleDocumentId] : List (Item α)) := by
  refine .of_meets documentId_meets ?_
  intro v hv
  have hp := present_of_is (t := .uint32) hv
  rw [List.forall_mem_cons, List.forall_mem_cons, List.forall_mem_singleton]
  refine ⟨.withCustomError (.requirement (rejectIf_false (by simp [hp]))) _ _,
    .withCustomError (type_fixes fun _ => by simp [FieldView.is, hv]) _ _,
    .withCustomError (.rewriteBy ⟨none, ?_, by simp⟩) _ _⟩
  have hskip : (!v.present || !v.isString) = true := by
    obtain ⟨key, value⟩ := v
    rcases value with _ | (_ | _ | _ | _ | _ | _ | _ | _) <;> first | rfl | cases hv
  rw [ToNumberModifier.newValue, if_pos hskip]
  rfl

variable [LibXrpl]

/-- The section writes the id alone, and what it wrote passes again. -/
theorem oracle_normalizes : Normalizes (selectorItems malformedUnlessStringOrObject
    malformedAddressUnlessHash oracleFields : List (Item α)) where
  frames := by
    simp [AllModifiers, Item.AllModifiers, SectionModifiers, selectorItems, ifType, section_,
      oracleFields, malformedUnlessStringOrObject, stringOrObject, malformedAddressUnlessHash,
      kMalformedRequestHexStringValidator, uint256Hex, requiredOrMalformed, required,
      accountOrMalformed, accountBase58, withCustomError, type, toNumber, frames_toNumber]
  stable := by
    refine selector_stable malformedUnlessStringOrObject_checks (fun v hobject => ?_)
      malformedAddressUnlessHash_checks (by simp [oracleFields, FieldSpec.key]) ?_
    · exact .withCustomError (type_fixes fun _ => by simp [FieldView.is, hobject]) _ _
    · rw [oracleFields, List.forall_mem_cons, List.forall_mem_singleton]
      refine ⟨⟨stable_of_noPaths rfl, .of_neverFault ?_⟩, stable_documentId,
        documentId_meets.mono (fun _ h => h) fun _ _ => trivial⟩
      simp [FieldSpec.items, requiredOrMalformed, accountOrMalformed]

end Build

end LedgerEntry

end RpcSpec.Handlers
