import RpcSpec.Dsl.Settled
import RpcSpec.Dsl.FaultFree
set_option autoImplicit false

/-!
# What the modifiers write

Every modifier of the library puts a scalar in the place of a leaf, and takes what it
has written for what it is.

`Item.Fixes` says that an item leaves a view as it is and `Stable` that a list does so
with what it has left. Each modifier has a lemma on its frame; `stable_boundedUint32`,
`stable_int32` and `stable_mapText` are the stable lists that the handlers use.
-/

namespace RpcSpec.Dsl

open RpcSpec.Foundation FieldView

variable {α : Type}

/-! ## Modifiers of the value itself -/

/-- What a modifier of this shape does, case by case. -/
theorem rewriteBy_run (newValue : FieldView → Parsed (Option Json)) (v : FieldView) :
    rewriteBy newValue v =
      match newValue v with
      | .ok (some json) =>
          if v.present then .ok () { v with value := some json }
          else .error (.fault (.accessor .set)) v
      | .ok none => .ok () v
      | .error failure => .error failure v := by
  change EStateM.bind (monadLift (newValue v)) _ v = _
  unfold EStateM.bind
  rcases newValue v with failure | (_ | json)
  · rfl
  · rfl
  · change (if v.present then EStateM.set { v with value := some json }
      else throw (.fault (.accessor .set)) : EStateM Failure FieldView Unit) v = _
    cases v.present <;> rfl

/-- The view holds no array and no object. -/
def HoldsLeaf (v : FieldView) : Prop := ∀ old, v.value = some old → old.isLeaf = true

/-- What a modifier of the value may put in its place. -/
def ScalarForLeaf (v : FieldView) (value : Option Json) : Prop :=
  ∀ json, value = some json → json.isScalar = true ∧ HoldsLeaf v

theorem scalarForLeaf_none (v : FieldView) : ScalarForLeaf v none := fun _ h => by cases h

/-- A scalar may stand in for a leaf. -/
theorem scalarForLeaf_some {v : FieldView} {json : Json} (hscalar : json.isScalar = true)
    (hleaf : HoldsLeaf v) : ScalarForLeaf v (some json) := by
  rintro _ ⟨⟩
  exact ⟨hscalar, hleaf⟩

/-- A modifier that puts scalars in the place of leaves keeps its frame. -/
theorem frames_rewriteBy {newValue : FieldView → Parsed (Option Json)}
    (h : ∀ v, Safe (newValue v) (ScalarForLeaf v)) : Frames (rewriteBy newValue) := by
  intro v
  unfold endState
  rw [rewriteBy_run]
  rcases hnew : newValue v with failure | (_ | json)
  · exact .refl v
  · exact .refl v
  · obtain ⟨hscalar, hleaf⟩ := (h v).of_ok hnew json rfl
    obtain ⟨key, value⟩ := v
    cases value with
    | none => exact .refl _
    | some old => exact ⟨rfl, .some (.leaf (by simp) (hleaf old rfl) hscalar)⟩

/-- A field of a scalar JSON type holds a leaf. -/
theorem holdsLeaf_of_is {v : FieldView} {t : JsonType} (h : v.is t = true)
    (harray : t ≠ .array) (hobject : t ≠ .object) : HoldsLeaf v := by
  intro old hold
  obtain ⟨key, value⟩ := v
  obtain rfl : value = some old := hold
  cases old with
  | array items => cases t <;> first | exact absurd rfl harray | cases h
  | object members => cases t <;> first | exact absurd rfl hobject | cases h
  | _ => rfl

theorem holdsLeaf_of_isNull {v : FieldView} (h : v.isNull = true) : HoldsLeaf v := by
  intro old hold
  obtain ⟨key, value⟩ := v
  obtain rfl : value = some old := hold
  cases old <;> first | rfl | cases h

/-! ## Each of them -/

/-- A bounded number is put back where the number was. -/
theorem frames_clamp (lo hi : UInt32) : Frames (Clamp.modify lo hi) := by
  apply frames_rewriteBy
  intro v
  unfold numericValue
  split
  · exact scalarForLeaf_none v
  · rename_i hv
    simp only [Bool.or_eq_true, Bool.not_eq_true', not_or, Bool.not_eq_false] at hv
    have hleaf := holdsLeaf_of_is hv.2 (by decide) (by decide)
    refine (Safe.map (R := fun value => value.isSome = true)
      ((SomeNumericBound.as_safe v hv.2).mono fun _ _ => rfl)).bind fun value hvalue => ?_
    obtain ⟨n, rfl⟩ := Option.isSome_iff_exists.mp hvalue
    exact scalarForLeaf_some rfl hleaf

/-- A number bounded by its target type is put back where the number was. -/
theorem frames_clampAs (target : IntegralType) : Frames (ClampAs.modify target) := by
  apply frames_rewriteBy
  intro v
  split
  · exact scalarForLeaf_none v
  split
  · rename_i hv
    have hleaf := holdsLeaf_of_is (t := .int64) hv (by decide) (by decide)
    apply (asInt64_safe hv).bind
    intro n _
    dsimp only
    split <;> exact scalarForLeaf_some rfl hleaf
  split
  · rename_i hv
    have hleaf := holdsLeaf_of_is (t := .uint32) hv (by decide) (by decide)
    apply (asUint32_safe hv).bind
    intro n _
    dsimp only
    split <;> exact scalarForLeaf_some rfl hleaf
  · exact scalarForLeaf_none v

/-- A modifier that works on strings. -/
theorem frames_ofString (rewrite : Bytes → Parsed (Option Json))
    (h : ∀ text, Safe (rewrite text) fun value => ∀ json, value = some json →
      json.isScalar = true) :
    Frames (rewriteBy fun v => if !v.present || !v.isString then pure none
      else v.asString >>= rewrite) := by
  apply frames_rewriteBy
  intro v
  split
  · exact scalarForLeaf_none v
  · rename_i hv
    simp only [Bool.or_eq_true, Bool.not_eq_true', not_or, Bool.not_eq_false] at hv
    have hleaf := holdsLeaf_of_is (t := .string) hv.2 (by decide) (by decide)
    exact safe_asString_bind hv.2 fun text _ =>
      (h text).mono fun value hvalue json hjson => ⟨hvalue json hjson, hleaf⟩

/-- A string is put back where the string was. -/
theorem frames_mapText (f : UInt8 → UInt8) : Frames (mapText f) :=
  frames_ofString (fun text => pure (some (.string (text.map f)))) fun text => by
    rintro json ⟨⟩
    rfl

/-- A number is put where its text was. -/
theorem frames_toNumber : Frames ToNumberModifier.modify := by
  refine frames_ofString _ fun text => safe_rejectIf_bind fun _ => ?_
  split
  · apply safe_rejectIf_bind
    intro _
    rintro json ⟨⟩
    rfl
  · trivial

/-- A 32-bit number is put where its text was. -/
theorem frames_lexicalUint32 : Frames LexicalUint32Modifier.modify := by
  refine frames_ofString _ fun text => safe_orReject_bind fun val _ => ?_
  rintro json ⟨⟩
  rfl

/-- A scalar is put where a null was. -/
theorem frames_nullAs {value : Json} (hscalar : value.isScalar = true) :
    Frames (rewriteBy fun v => pure (if v.isNull then some value else none)) := by
  apply frames_rewriteBy
  intro v
  cases hnull : v.isNull with
  | false => exact scalarForLeaf_none v
  | true => exact scalarForLeaf_some hscalar (holdsLeaf_of_isNull hnull)

/-! ## Items that leave a view as it is -/

/-- The item runs on the view, and leaves it as it is. -/
def Item.Fixes (item : Item α) (v : FieldView) : Prop := callIfProcessor item v = .ok () v

namespace Item.Fixes

variable {item : Item α} {v : FieldView}

/-- A requirement that passes leaves the field as it is. -/
theorem requirement {verify : FieldView → MaybeError} (h : verify v = .ok ()) :
    (Item.requirement verify : Item α).Fixes v := by
  have hverify : (Item.requirement verify : Item α).verify v = .ok () := by rwa [Item.verify]
  rw [Fixes, callIfProcessor_of_requirement (by rw [Item.isRequirement])]
  change (monadLift ((Item.requirement verify : Item α).verify v) :
    EStateM Failure FieldView Unit) v = _
  rw [hverify]
  rfl

/-- A modifier that returns the field it was given fixes it. -/
theorem modifier {modify : EStateM Failure FieldView Unit} (h : modify v = .ok () v) :
    (Item.modifier modify : Item α).Fixes v := h

theorem withCustomError (h : item.Fixes v) (code : CombinedError) (message : String) :
    (Item.withCustomError item code message).Fixes v := by
  rw [Fixes, callIfProcessor_withCustomError, mapFailure, h]

/-- A guarded list does nothing to a field of another type. -/
theorem ifType_other {t : JsonType} {items : List (Item α)} (h : v.is t = false) :
    (Item.ifType t items).Fixes v := by
  change (Item.ifType t items).modify v = _
  rw [Item.modify]
  change (if !v.present || !v.is t then pure () else runProcessors items :
    EStateM Failure FieldView Unit) v = _
  rw [h, Bool.not_false, Bool.or_true]
  rfl

theorem ifType {t : JsonType} {items : List (Item α)} (h : runProcessors items v = .ok () v) :
    (Item.ifType t items).Fixes v := by
  change (Item.ifType t items).modify v = _
  rw [Item.modify]
  change (if !v.present || !v.is t then pure () else runProcessors items :
    EStateM Failure FieldView Unit) v = _
  split
  · rfl
  · exact h

/-- The fields of a section, each on its child. -/
theorem processNested_fixed {subFields : List (FieldSpec α)}
    (h : ∀ field ∈ subFields, runProcessors field.items (v.child field.key) =
      .ok () (v.child field.key)) : processNested subFields v = .ok () v := by
  induction subFields with
  | nil =>
      rw [processNested]
      rfl
  | cons field rest ih =>
      obtain ⟨key, items⟩ := field
      have hfield : runProcessors items (v.child key) = .ok () (v.child key) :=
        h (.mk key items) (by simp)
      rw [processNested]
      change EStateM.bind (onChild key (runProcessors items)) _ v = _
      rw [EStateM.bind, onChild, zoom, hfield]
      dsimp only
      rw [putChild_child]
      exact ih fun other hother => h other (by simp [hother])

/-- A section fixes an object whose members its subfields fix. -/
theorem section_ {subFields : List (FieldSpec α)} (hobject : v.isObject = true)
    (h : ∀ field ∈ subFields, runProcessors field.items (v.child field.key) =
      .ok () (v.child field.key)) : (Item.section_ subFields).Fixes v := by
  have hp : v.present = true := present_of_is (t := .object) hobject
  change (Item.section_ subFields).modify v = _
  rw [Item.modify]
  change (if !v.present then pure () else if !v.isObject then
    throw (unexpected XrpldError.rpcInvalidParams) else processNested subFields :
      EStateM Failure FieldView Unit) v = _
  rw [hp, hobject]
  exact processNested_fixed h

end Item.Fixes

/-- Items that each fix a field fix it together. -/
theorem runProcessors_fixed {items : List (Item α)} {v : FieldView}
    (h : ∀ item ∈ items, item.Fixes v) : runProcessors items v = .ok () v := by
  induction items with
  | nil =>
      rw [runProcessors_nil]
      rfl
  | cons item rest ih =>
      rw [runProcessors_cons]
      change EStateM.bind (callIfProcessor item) _ v = _
      rw [EStateM.bind, h item (by simp)]
      exact ih fun other hother => h other (by simp [hother])

namespace Item.Fixes

variable {item : Item α} {v : FieldView}

/-- An item that neither checks nor rewrites. -/
theorem neither (hrequirement : item.isRequirement = false) (hmodifier : item.isModifier = false) :
    item.Fixes v := by
  rw [Fixes, callIfProcessor_of_neither hrequirement hmodifier]
  rfl

/-- A build-conditional list fixes what its active items fix. -/
theorem serverConditional {active : Bool} {inners : List (Item α)} (hmixed : NotMixed inners)
    (h : active = true → ∀ inner ∈ inners, inner.Fixes v) :
    (Item.serverConditional active inners).Fixes v := by
  cases active with
  | true =>
      rw [Fixes, callIfProcessor_active hmixed]
      exact runProcessors_fixed (h rfl)
  | false =>
      rw [Fixes, callIfProcessor_inactive]
      rfl

theorem required [Build] (hpresent : v.present = true) : (Dsl.required : Item α).Fixes v :=
  .requirement (by simp [Required.verify, hpresent]; rfl)

end Item.Fixes

/-- Processing a joined list is processing its parts in order. -/
theorem runProcessors_append (items more : List (Item α)) : runProcessors (items ++ more) =
    runProcessors items >>= fun _ => runProcessors more := by
  induction items with
  | nil =>
      rw [runProcessors_nil]
      rfl
  | cons item rest ih =>
      rw [List.cons_append, runProcessors_cons, runProcessors_cons, ih, bind_assoc]

/-- A requirement that has run has accepted the view. -/
theorem verify_of_runProcessors {verify : FieldView → MaybeError} {v v' : FieldView}
    (h : runProcessors [(.requirement verify : Item α)] v = .ok () v') : verify v = .ok () := by
  rw [runProcessors_requirement] at h
  cases hverify : verify v with
  | ok _ => rfl
  | error failure =>
      rw [hverify] at h
      cases h

/-! ## Stable items -/

namespace Stable

variable {items rest : List (Item α)}

/-- Stability depends on what a list does, not on how it is written. -/
theorem congr (h : runProcessors items = runProcessors rest) (hrest : Stable rest) :
    Stable items := by
  unfold Stable at hrest ⊢
  rwa [h]

/-- What the items establish is enough for them to leave the view as it is. -/
theorem of_meets {Q : FieldView → Prop} (hitems : ItemsMeet (fun _ => True) items Q)
    (hfixes : ∀ v, Q v → ∀ item ∈ items, item.Fixes v) : Stable items := by
  intro v v' hrun
  have hmeets := hitems v trivial
  rw [SafeRun, hrun] at hmeets
  exact runProcessors_fixed (hfixes v' hmeets.2)

/-- What stable items have left, if they run at all. -/
theorem settles {Q : FieldView → Prop} (hitems : Stable items)
    (hmeets : ItemsMeet (fun _ => True) items Q) (v : FieldView) :
    SafeRun (runProcessors items) v fun _ v' => SameField v v' ∧
      runProcessors items v' = .ok () v' :=
  (hmeets v trivial).and_run.mono fun _ _ ⟨hrun, hsame, _⟩ => ⟨hsame, hitems _ _ hrun⟩

/-- A section whose fields are stable, each on a child of its own. -/
theorem section_ {subFields : List (FieldSpec α)}
    (hkeys : (subFields.map FieldSpec.key).Nodup)
    (hfields : ∀ field ∈ subFields, Stable field.items ∧
      ItemsMeet (fun _ => True) field.items fun _ => True) :
    (Item.section_ subFields).Meets (fun v => v.isObject = true)
      fun v => v.isObject = true ∧ (Item.section_ subFields).Fixes v := by
  intro v hobject
  have hrelations : List.Forall₂ (fun field R => ∀ v, SafeRun (runProcessors field.items) v
      fun _ v' => SameField v v' ∧ R v v') subFields
      (subFields.map fun field _ v' => runProcessors field.items v' = .ok () v') := by
    rw [List.forall₂_map_right_iff, List.forall₂_same]
    exact fun field hfield => (hfields field hfield).1.settles (hfields field hfield).2
  refine (section_safe hkeys hrelations v).mono fun _ v' ⟨hsame, h⟩ => ⟨hsame, ?_⟩
  obtain ⟨-, hobject', hall⟩ := h (present_of_is (t := .object) hobject)
  rw [List.forall₂_map_right_iff, List.forall₂_same] at hall
  exact ⟨hobject', .section_ hobject' hall⟩

/-- Checks may follow. -/
theorem append_readOnly (hitems : Stable items) (hrest : itemsPaths rest = []) :
    Stable (items ++ rest) := by
  intro v v' hrun
  rw [runProcessors_append] at hrun ⊢
  change EStateM.bind _ _ v = _ at hrun
  change EStateM.bind _ _ v' = _
  unfold EStateM.bind at hrun ⊢
  split at hrun
  · rename_i _ v₁ hfirst
    obtain rfl := (endState_of_ok hrun).symm.trans (runProcessors_readOnly hrest v₁)
    rw [hitems _ _ hfirst]
    exact hrun
  · cases hrun

end Stable

/-! ### Wrappers for one server -/

/-- A build-conditional list stands for its items where it is active and for nothing
elsewhere. -/
theorem runProcessors_wrapper {active : Bool} {inners : List (Item α)} (hmixed : NotMixed inners)
    (rest : List (Item α)) : runProcessors (.serverConditional active inners :: rest) =
      runProcessors ((if active then inners else []) ++ rest) := by
  rw [runProcessors_cons, runProcessors_append]
  cases active with
  | true => rw [callIfProcessor_active hmixed, if_pos rfl]
  | false => rw [callIfProcessor_inactive, if_neg Bool.false_ne_true, runProcessors_nil]

section Build

variable [Build] {inners rest : List (Item α)}

theorem runProcessors_ifServerClio (hmixed : NotMixed inners) (hbuild : kIsClioBuild = true) :
    runProcessors (ifServerClio inners :: rest) = runProcessors (inners ++ rest) := by
  rw [ifServerClio, runProcessors_wrapper hmixed, if_pos hbuild]

theorem runProcessors_ifServerXrpld (hmixed : NotMixed inners) (hbuild : kIsClioBuild = false) :
    runProcessors (ifServerXrpld inners :: rest) = runProcessors (inners ++ rest) := by
  rw [ifServerXrpld, runProcessors_wrapper hmixed, if_pos (by simp [kIsXrpldBuild, hbuild])]

theorem runProcessors_not_ifServerClio (hbuild : kIsClioBuild = false) :
    runProcessors (ifServerClio inners :: rest) = runProcessors rest := by
  rw [ifServerClio, hbuild, runProcessors_cons, callIfProcessor_inactive]
  rfl

theorem runProcessors_not_ifServerXrpld (hbuild : kIsClioBuild = true) :
    runProcessors (ifServerXrpld inners :: rest) = runProcessors rest := by
  rw [ifServerXrpld, kIsXrpldBuild, hbuild, runProcessors_cons]
  change (callIfProcessor (.serverConditional false inners) >>= fun _ => runProcessors rest) = _
  rw [callIfProcessor_inactive]
  rfl

end Build

/-! ### Checks that pass again -/

theorem rejectIf_false {bad : Bool} (h : bad = false) {code : CombinedError} {message : String} :
    rejectIf bad code message = .ok () := by
  rw [h]
  rfl

/-- The type check fixes a field that passes it. -/
theorem type_fixes {types : List JsonType} {v : FieldView}
    (h : v.present = true → types.any v.is = true) : (type types : Item α).Fixes v := by
  refine .requirement (rejectIf_false ?_)
  cases hp : v.present with
  | true => simp only [h hp, Bool.not_true, Bool.and_false]
  | false => rfl

/-- A modifier that would put the same value back fixes the field. -/
theorem Item.Fixes.rewriteBy {newValue : FieldView → Parsed (Option Json)} {v : FieldView}
    (h : ∃ value, newValue v = .ok value ∧ ∀ json, value = some json → v.value = some json) :
    (Item.modifier (rewriteBy newValue) : Item α).Fixes v := by
  obtain ⟨value, hnew, hsame⟩ := h
  refine .modifier ?_
  rw [rewriteBy_run, hnew]
  cases value with
  | none => rfl
  | some json =>
      obtain ⟨key, value⟩ := v
      obtain rfl : value = some json := hsame json rfl
      rfl

/-! ### Numbers between bounds -/

section Bounds

variable {v : FieldView} {n lo hi : UInt32}

theorem ofUint32_isUint32 (hv : v.value = some (.ofUint32 n)) :
    v.isUint32 = true ∧ v.asUint32 = .ok n := by
  have hle : n.toUInt64 ≤ uint32Max := by
    rw [UInt64.le_iff_toNat_le]
    have := n.toNat_lt
    simp [uint32Max]
    omega
  simp [isUint32, FieldView.asUint32, hv, Json.ofUint32, hle]
  rfl

theorem numericValue_of_absent (hp : v.present = false) : numericValue UInt32 v = .ok none := by
  simp only [numericValue, hp, Bool.not_false, Bool.true_or, if_true]
  rfl

theorem numericValue_ofUint32 (hv : v.value = some (.ofUint32 n)) :
    numericValue UInt32 v = .ok (some n) := by
  obtain ⟨his, has⟩ := ofUint32_isUint32 hv
  have hp : v.present = true := present_of_is (t := .uint32) his
  have his' : v.is (SomeNumericBound.type UInt32) = true := his
  simp only [numericValue, hp, his', Bool.not_true, Bool.or_self, Bool.false_eq_true, if_false]
  change some <$> v.asUint32 = _
  rw [has]
  rfl

/-- A clamped number lies within the bounds. -/
theorem stdClamp_bounds (h : lo ≤ hi) (n : UInt32) :
    lo ≤ stdClamp n lo hi ∧ stdClamp n lo hi ≤ hi := by
  unfold stdClamp
  split
  · exact ⟨UInt32.le_refl _, h⟩
  split
  · exact ⟨h, UInt32.le_refl _⟩
  · exact ⟨UInt32.not_lt.mp ‹_›, UInt32.not_lt.mp ‹_›⟩

/-- A number within the bounds is its own clamping. -/
theorem stdClamp_of_bounds (hlo : lo ≤ n) (hhi : n ≤ hi) : stdClamp n lo hi = n := by
  rw [stdClamp, if_neg (UInt32.not_lt.mpr hlo), if_neg (UInt32.not_lt.mpr hhi)]

/-- A number between the bounds as `set` stores it, or nothing. -/
def HoldsBetween (lo hi : UInt32) (v : FieldView) : Prop :=
  v.present = true → ∃ n, v.value = some (.ofUint32 n) ∧ lo ≤ n ∧ n ≤ hi

/-- After `clamp` a number lies within the bounds. -/
theorem clamp_meets (h : lo ≤ hi) : (clamp lo hi : Item α).Meets
    (fun v => v.present = true → v.is .uint32 = true) (HoldsBetween lo hi) := by
  refine .modifier fun v hv => rewriteBy_safe ?_
  cases hp : v.present with
  | false =>
      rw [numericValue_of_absent hp]
      exact fun hp' => by simp [hp] at hp'
  | true =>
      have his : v.is (SomeNumericBound.type UInt32) = true := hv hp
      simp only [numericValue, hp, his, Bool.not_true, Bool.or_self, Bool.false_eq_true, if_false]
      refine (Safe.map (R := fun value => value.isSome = true)
        ((SomeNumericBound.as_safe v his).mono fun _ _ => rfl)).bind fun value hvalue => ?_
      obtain ⟨n, rfl⟩ := Option.isSome_iff_exists.mp hvalue
      exact ⟨trivial, fun _ => ⟨_, rfl, stdClamp_bounds h n⟩⟩

theorem min_keeps (bound : UInt32) {P : FieldView → Prop} :
    (min bound : Item α).Meets P P :=
  .requirement fun v hP => (numericValue_safe v).bind fun _ _ => safe_rejectIf.mono fun _ _ => hP

/-- A field at or above the bound passes `min` unchanged. -/
theorem min_fixes {bound : UInt32} (hbound : bound ≤ lo) (hv : HoldsBetween lo hi v) :
    (min bound : Item α).Fixes v := by
  refine .requirement ?_
  unfold Min.verify
  cases hp : v.present with
  | false =>
      rw [numericValue_of_absent hp]
      rfl
  | true =>
      obtain ⟨n, hn, hlo, -⟩ := hv hp
      rw [numericValue_ofUint32 hn]
      have hnot : ¬ n < bound := UInt32.not_lt.mpr (UInt32.le_trans hbound hlo)
      exact rejectIf_false (by simp [hnot])

/-- A field within the bounds passes `clamp` unchanged. -/
theorem clamp_fixes (hv : HoldsBetween lo hi v) : (clamp lo hi : Item α).Fixes v := by
  refine .rewriteBy ?_
  cases hp : v.present with
  | false =>
      rw [numericValue_of_absent hp]
      exact ⟨none, rfl, by simp⟩
  | true =>
      obtain ⟨n, hn, hlo, hhi⟩ := hv hp
      rw [numericValue_ofUint32 hn]
      refine ⟨_, rfl, ?_⟩
      intro json hjson
      simp only [Option.map_some, Option.some.injEq] at hjson
      rw [hn, ← hjson, stdClamp_of_bounds hlo hhi]
      rfl

/-- A limit that is checked and then kept within bounds. -/
theorem stable_boundedUint32 {bound : UInt32} (hbound : bound ≤ lo) (h : lo ≤ hi) :
    Stable ([type [.uint32], min bound, clamp lo hi] : List (Item α)) := by
  refine .of_meets (.cons (type_meets .uint32) (.cons (min_keeps bound)
    (.cons (clamp_meets h) .nil))) fun v hv => ?_
  rw [List.forall_mem_cons, List.forall_mem_cons, List.forall_mem_singleton]
  refine ⟨type_fixes ?_, min_fixes hbound hv, clamp_fixes hv⟩
  intro hp
  obtain ⟨n, hn, -⟩ := hv hp
  simpa [FieldView.is] using (ofUint32_isUint32 hn).1

end Bounds

/-! ### Numbers of a fixed width -/

/-- A number within the bounds of `int32_t`, as `set` stores it, or nothing. -/
def HoldsInt32 (v : FieldView) : Prop :=
  v.present = true → ∃ n, v.value = some (.int64 n) ∧ ClampAs.kLo .int32 ≤ n ∧
    n ≤ ClampAs.kHi .int32

theorem stdClamp_int64_bounds {lo hi : Int64} (h : lo ≤ hi) (n : Int64) :
    lo ≤ stdClamp n lo hi ∧ stdClamp n lo hi ≤ hi := by
  unfold stdClamp
  split
  · exact ⟨Int64.le_refl _, h⟩
  split
  · exact ⟨h, Int64.le_refl _⟩
  · exact ⟨Int64.not_lt.mp ‹_›, Int64.not_lt.mp ‹_›⟩

/-- After `clampAs` an integer is one of 32 bits. -/
theorem clampAs_int32_holds : (clampAs .int32 : Item α).Meets
    (fun v => v.present = true → v.is .int64 = true) HoldsInt32 := by
  refine .modifier fun v hv => rewriteBy_safe ?_
  cases hp : v.present with
  | false => exact fun hp' => by simp [hp] at hp'
  | true =>
      have his : v.isInt64 = true := hv hp
      simp only [his, Bool.not_true, Bool.false_eq_true, if_false, if_true]
      refine (asInt64_safe his).bind fun n _ => ⟨trivial, fun _ => ⟨_, rfl, ?_⟩⟩
      exact stdClamp_int64_bounds (by decide) n

/-- A clamped integer is clamped for good. -/
theorem stable_int32 : Stable ([type [.int64], clampAs .int32] : List (Item α)) := by
  refine .of_meets (.cons (type_meets .int64) (.cons clampAs_int32_holds .nil)) ?_
  intro v hv
  rw [List.forall_mem_cons, List.forall_mem_singleton]
  cases hp : v.present with
  | false =>
      refine ⟨type_fixes (by simp [hp]), .rewriteBy ⟨none, ?_, by simp⟩⟩
      simp only [hp, Bool.not_false, if_true]
      rfl
  | true =>
      obtain ⟨n, hn, hlo, hhi⟩ := hv hp
      have his : v.isInt64 = true := by simp [isInt64, hn]
      refine ⟨type_fixes fun _ => by simp [FieldView.is, his], .rewriteBy ⟨some (.int64 n), ?_, ?_⟩⟩
      · have has : v.asInt64 = .ok n := by
          simp only [asInt64, hn]
          rfl
        have hclamp : stdClamp n (ClampAs.kLo .int32) (ClampAs.kHi .int32) = n := by
          rw [stdClamp, if_neg (Int64.not_lt.mpr hlo), if_neg (Int64.not_lt.mpr hhi)]
        simp only [hp, his, has, Bool.not_true, Bool.false_eq_true, if_false, if_true]
        change (Except.ok (some (Json.int64 _)) : Parsed (Option Json)) = _
        rw [hclamp]
      · rintro json ⟨⟩
        exact hn

/-! ### Texts -/

/-- A function of the bytes that is applied twice as if once. -/
theorem stable_mapText {f : UInt8 → UInt8} (hf : ∀ c, f (f c) = f c) :
    Stable ([.modifier (mapText f)] : List (Item α)) := by
  refine .of_meets (Q := fun v => ∀ text, v.value = some (.string text) → text.map f = text)
    (.cons (.modifier fun v _ => rewriteBy_safe ?_) .nil) fun v hv => ?_
  · split
    · rename_i hskip
      intro text htext
      simp [present, isString, htext] at hskip
    · rename_i hstring
      simp only [Bool.or_eq_true, Bool.not_eq_true', not_or, Bool.not_eq_false] at hstring
      refine safe_asString_bind hstring.2 fun text _ => ⟨hstring.1, ?_⟩
      rintro _ ⟨⟩
      rw [List.map_map]
      exact List.map_congr_left fun c _ => hf c
  · rw [List.forall_mem_singleton]
    refine .rewriteBy ?_
    cases hs : v.isString with
    | false => exact ⟨none, by simp only [Bool.not_false, Bool.or_true, if_true]; rfl, by simp⟩
    | true =>
        have hp : v.present = true := present_of_is (t := .string) hs
        obtain ⟨text, htext⟩ : ∃ text, v.value = some (.string text) := by
          unfold isString at hs
          split at hs
          · exact ⟨_, ‹_›⟩
          · cases hs
        refine ⟨some (.string text), ?_, by rintro json ⟨⟩; exact htext⟩
        simp only [hp, asString_eq_ok_iff.mpr htext, Bool.not_true, Bool.or_self,
          Bool.false_eq_true, if_false]
        change (Except.ok (some (Json.string _)) : Parsed (Option Json)) = _
        rw [hv text htext]

theorem Text.isUpper_toLower (c : UInt8) : Text.isUpper (Text.toLower c) = false := by
  unfold Text.toLower
  split
  · rename_i h
    simp only [Text.isUpper, Bool.and_eq_true, decide_eq_true_eq, UInt8.le_iff_toNat_le,
      UInt8.reduceToNat] at h
    simp only [Text.isUpper, Bool.and_eq_false_iff, decide_eq_false_iff_not,
      UInt8.le_iff_toNat_le, UInt8.toNat_add, UInt8.reduceToNat]
    omega
  · exact Bool.eq_false_iff.mpr ‹_›

/-- Lowering a byte twice is lowering it once. -/
theorem Text.toLower_toLower (c : UInt8) : Text.toLower (Text.toLower c) = Text.toLower c := by
  rw [Text.toLower, Text.isUpper_toLower, if_neg Bool.false_ne_true]

theorem Text.isLower_toUpper (c : UInt8) : Text.isLower (Text.toUpper c) = false := by
  unfold Text.toUpper
  split
  · rename_i h
    simp only [Text.isLower, Bool.and_eq_true, decide_eq_true_eq, UInt8.le_iff_toNat_le,
      UInt8.reduceToNat] at h
    simp only [Text.isLower, Bool.and_eq_false_iff, decide_eq_false_iff_not,
      UInt8.le_iff_toNat_le, UInt8.toNat_sub, UInt8.reduceToNat]
    omega
  · exact Bool.eq_false_iff.mpr ‹_›

/-- Raising a byte twice is raising it once. -/
theorem Text.toUpper_toUpper (c : UInt8) : Text.toUpper (Text.toUpper c) = Text.toUpper c := by
  rw [Text.toUpper, Text.isLower_toUpper, if_neg Bool.false_ne_true]

end RpcSpec.Dsl
