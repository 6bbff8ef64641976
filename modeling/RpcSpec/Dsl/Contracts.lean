import RpcSpec.Dsl.TypedSpec
set_option autoImplicit false

/-!
# What items require and establish

The rules by which a field is shown to be free of faults: a contract for each item,
from what holds of a view before it to what holds after it, and for a list of items
run in order.  The converter at the end of a field may then rely on what its items
have established.

`Item.Meets` is the contract of an item and `ItemsMeet` that of a list; `Item.Checks` and
`ItemsCheck` are the special case of items that only look. `ItemsCheck.meets` leads from
the second to the first, and every combinator has a rule in both.
-/

namespace RpcSpec.Dsl

open RpcSpec.Foundation FieldView

variable {α : Type} {item : Item α} {items rest : List (Item α)}
  {P P' Q Q' R : FieldView → Prop}

/-- Run on a view of which `P` holds, the item does not fault, and if it does not
fail it leaves the same field with `Q`. -/
def Item.Meets (P : FieldView → Prop) (item : Item α) (Q : FieldView → Prop) : Prop :=
  ∀ v, P v → SafeRun (callIfProcessor item) v fun _ v' => SameField v v' ∧ Q v'

/-- `Item.Meets` for items run in order. -/
def ItemsMeet (P : FieldView → Prop) (items : List (Item α)) (Q : FieldView → Prop) : Prop :=
  ∀ v, P v → SafeRun (runProcessors items) v fun _ v' => SameField v v' ∧ Q v'

/-! ## Composition -/

namespace ItemsMeet

/-- An empty list keeps whatever holds. -/
theorem nil : ItemsMeet P ([] : List (Item α)) P := by
  intro v hP
  rw [runProcessors_nil]
  exact ⟨.refl v, hP⟩

/-- The condition one item leaves is the one the next item starts from. -/
theorem cons (hitem : item.Meets P R) (hrest : ItemsMeet R rest Q) :
    ItemsMeet P (item :: rest) Q := by
  intro v hP
  rw [runProcessors_cons]
  refine (hitem v hP).bind fun _ v' ⟨hsame, hR⟩ => ?_
  exact (hrest v' hR).mono fun _ v'' ⟨hsame', hQ⟩ => ⟨hsame.trans hsame', hQ⟩

theorem mono (h : ItemsMeet P items Q) (hP : ∀ v, P' v → P v) (hQ : ∀ v, Q v → Q' v) :
    ItemsMeet P' items Q' := fun v hv =>
  (h v (hP v hv)).mono fun _ _ ⟨hsame, hv'⟩ => ⟨hsame, hQ _ hv'⟩

end ItemsMeet

namespace Item.Meets

theorem mono (h : item.Meets P Q) (hP : ∀ v, P' v → P v) (hQ : ∀ v, Q v → Q' v) :
    item.Meets P' Q' := fun v hv =>
  (h v (hP v hv)).mono fun _ _ ⟨hsame, hv'⟩ => ⟨hsame, hQ _ hv'⟩

/-! ## Leaves -/

/-- A requirement leaves the view as it was. -/
theorem requirement {verify : FieldView → MaybeError}
    (h : ∀ v, P v → Safe (verify v) fun _ => Q v) : (Item.requirement verify : Item α).Meets P Q :=
  fun v hP => SafeRun.get_bind <| (SafeRun.lift (h v hP)).mono fun _ _ ⟨hQ, hsame⟩ => by
    subst hsame
    exact ⟨.refl _, hQ⟩

/-- A modifier meets what its function does. -/
theorem modifier {modify : EStateM Failure FieldView Unit}
    (h : ∀ v, P v → SafeRun modify v fun _ v' => SameField v v' ∧ Q v') :
    (Item.modifier modify : Item α).Meets P Q := h

theorem deprecated : (Item.deprecated : Item α).Meets P P := fun v hP => ⟨.refl v, hP⟩

theorem guard (g : Guard) : (Item.guard g : Item α).Meets P P := fun v hP => ⟨.refl v, hP⟩

theorem defaultTo (value : α) : (Item.defaultTo value).Meets P P := fun v hP => ⟨.refl v, hP⟩

end Item.Meets

/-! ## Combinators -/

/-- A replaced error is all that the wrapper adds to an item. -/
theorem callIfProcessor_withCustomError (wrapped : Item α) (code : CombinedError)
    (message : String) :
    callIfProcessor (.withCustomError wrapped code message) =
      mapFailure (customFailure code message) (callIfProcessor wrapped) := by
  have hreq : (Item.withCustomError wrapped code message).isRequirement =
      wrapped.isRequirement := by rw [Item.isRequirement]
  have hmod : (Item.withCustomError wrapped code message).isModifier =
      wrapped.isModifier := by rw [Item.isModifier]
  cases h : wrapped.isRequirement with
  | true =>
      rw [callIfProcessor_of_requirement (hreq.trans h), callIfProcessor_of_requirement h]
      funext v
      show (monadLift ((Item.withCustomError wrapped code message).verify v) :
        EStateM Failure FieldView Unit) v = mapFailure _ (monadLift (wrapped.verify v)) v
      rw [Item.verify]
      cases wrapped.verify v <;> rfl
  | false =>
      cases h' : wrapped.isModifier with
      | true =>
          rw [callIfProcessor_of_modifier (hreq.trans h) (hmod.trans h'),
            callIfProcessor_of_modifier h h', Item.modify]
      | false =>
          rw [callIfProcessor_of_neither (hreq.trans h) (hmod.trans h'),
            callIfProcessor_of_neither h h']
          rfl

/-- Replacing the error keeps what an item ensures. -/
theorem Item.Meets.withCustomError (h : item.Meets P Q) (code : CombinedError)
    (message : String) : (Item.withCustomError item code message).Meets P Q := by
  intro v hP
  rw [callIfProcessor_withCustomError]
  exact (h v hP).mapFailure (customFailure_error code message)

/-- What a wrapped item ensures, the item ensures alone. -/
theorem Item.Meets.of_withCustomError {code : CombinedError} {message : String}
    (h : (Item.withCustomError item code message).Meets P Q) : item.Meets P Q := by
  intro v hP
  have hrun := h v hP
  rw [callIfProcessor_withCustomError] at hrun
  exact hrun.of_mapFailure fun _ => rfl

/-- The branch runs on the values of its type, the others stay as they are. -/
theorem Item.Meets.ifType {t : JsonType} (h : ItemsMeet (fun v => P v ∧ v.is t = true) items Q) :
    (Item.ifType t items).Meets P fun v => Q v ∨ (P v ∧ v.is t = false) := by
  intro v hP
  show SafeRun (Item.ifType t items).modify v _
  rw [Item.modify]
  refine SafeRun.get_bind ?_
  cases hpresent : v.present with
  | false =>
      refine ⟨.refl v, .inr ⟨hP, ?_⟩⟩
      by_contra hne
      simp [present_of_is (Bool.not_eq_false _ ▸ hne)] at hpresent
  | true =>
      cases ht : v.is t with
      | false => exact ⟨.refl v, .inr ⟨hP, ht⟩⟩
      | true => exact (h v ⟨hP, ht⟩).mono fun _ _ ⟨hsame, hQ⟩ => ⟨hsame, .inl hQ⟩

/-! ### Sections -/

/-- Each field of a section works on its own child: no field writes to the child of
another.  `v₀` is the value the section started from. -/
theorem processNested_safe {subFields : List (FieldSpec α)}
    {relations : List (FieldView → FieldView → Prop)}
    (hkeys : (subFields.map FieldSpec.key).Nodup)
    (h : List.Forall₂ (fun field R => ∀ v, SafeRun (runProcessors field.items) v
      fun _ v' => SameField v v' ∧ R v v') subFields relations) (v₀ v : FieldView)
    (hv : ∀ key ∈ subFields.map FieldSpec.key, v.child key = v₀.child key) :
    SafeRun (processNested subFields) v fun _ v' => SameField v v' ∧ v'.isObject = v.isObject ∧
      (∀ key, key ∉ subFields.map FieldSpec.key → v'.child key = v.child key) ∧
      List.Forall₂ (fun field R => R (v₀.child field.key) (v'.child field.key))
        subFields relations := by
  induction h generalizing v with
  | nil =>
      rw [processNested]
      exact ⟨.refl v, rfl, fun _ _ => rfl, .nil⟩
  | @cons field R rest relations hfield _ ih =>
      obtain ⟨key, items⟩ := field
      simp only [List.map_cons, FieldSpec.key, List.nodup_cons] at hkeys
      simp only [List.map_cons, FieldSpec.key, List.mem_cons, forall_eq_or_imp] at hv
      rw [processNested]
      refine SafeRun.bind (SafeRun.zoom (hfield (v.child key))) ?_
      rintro _ _ ⟨childView, ⟨hsame, hR⟩, rfl⟩
      have hchild : (v.putChild key childView).child key = childView :=
        child_putChild_same hsame.1 hsame.2
      have hrest : ∀ other ∈ rest.map FieldSpec.key,
          (v.putChild key childView).child other = v₀.child other := by
        intro other hother
        rw [child_putChild_ne (by rintro rfl; exact hkeys.1 hother)]
        exact hv.2 other hother
      refine (ih hkeys.2 _ hrest).mono fun _ v' ⟨hsame', hobject, hothers, hall⟩ => ?_
      refine ⟨(sameField_putChild v key childView).trans hsame',
        hobject.trans (isObject_putChild v key childView), fun other hother => ?_, .cons ?_ hall⟩
      · simp only [List.map_cons, FieldSpec.key, List.mem_cons, not_or] at hother
        rw [hothers other hother.2, child_putChild_ne hother.1]
      · show R (v₀.child key) (v'.child key)
        rw [hothers key hkeys.1, hchild, ← hv.1]
        exact hR

/-- What a section does to an object. -/
theorem section_safe {subFields : List (FieldSpec α)}
    {relations : List (FieldView → FieldView → Prop)}
    (hkeys : (subFields.map FieldSpec.key).Nodup)
    (h : List.Forall₂ (fun field R => ∀ v, SafeRun (runProcessors field.items) v
      fun _ v' => SameField v v' ∧ R v v') subFields relations) (v : FieldView) :
    SafeRun (callIfProcessor (.section_ subFields)) v fun _ v' => SameField v v' ∧
      (v.present = true → v.isObject = true ∧ v'.isObject = true ∧
        List.Forall₂ (fun field R => R (v.child field.key) (v'.child field.key))
          subFields relations) := by
  show SafeRun (Item.section_ subFields).modify v _
  rw [Item.modify]
  refine SafeRun.get_bind ?_
  cases hpresent : v.present with
  | false => exact ⟨.refl v, fun h => by cases h⟩
  | true =>
      cases hobject : v.isObject with
      | false => trivial
      | true =>
          refine (processNested_safe hkeys h v v fun _ _ => rfl).mono ?_
          rintro _ v' ⟨hsame, hobject', _, hall⟩
          exact ⟨hsame, fun _ => ⟨rfl, hobject'.trans hobject, hall⟩⟩

/-! ### Wrappers for one server -/

/-- No wrapper holds both requirements and modifiers. -/
def NotMixed (inners : List (Item α)) : Prop :=
  anyRequirement inners = false ∨ anyModifier inners = false

/-- A list of checks looks at the field and returns it as it was. -/
theorem runProcessors_of_noModifier (h : anyModifier items = false) :
    runProcessors items = (do let v ← get; monadLift (verifyAll items v)) := by
  induction items with
  | nil =>
      funext v
      rw [runProcessors_nil]
      rfl
  | cons item rest ih =>
      simp only [anyModifier, Bool.or_eq_false_iff] at h
      rw [runProcessors_cons, ih h.2]
      unfold callIfProcessor
      simp only [verifyAll, h.1]
      cases item.isRequirement with
      | true => simpa using get_lift_get_lift (item.verify ·) (verifyAll rest ·)
      | false => simp

/-- A list without checks is its modifiers in order. -/
theorem runProcessors_of_noRequirement (h : anyRequirement items = false) :
    runProcessors items = modifyAll items := by
  induction items with
  | nil => rw [runProcessors_nil, modifyAll]
  | cons item rest ih =>
      simp only [anyRequirement, Bool.or_eq_false_iff] at h
      rw [runProcessors_cons, modifyAll, ih h.2]
      unfold callIfProcessor
      cases item.isModifier <;> simp [h.1]

theorem modifyAll_of_noModifier (h : anyModifier items = false) :
    modifyAll items = pure () := by
  induction items with
  | nil => rw [modifyAll]
  | cons item rest ih =>
      simp only [anyModifier, Bool.or_eq_false_iff] at h
      rw [modifyAll, ih h.2]
      simp [h.1]

/-- The wrapper of the server that is built runs the items it holds as if they stood
in its place. -/
theorem callIfProcessor_active {inners : List (Item α)} (h : NotMixed inners) :
    callIfProcessor (.serverConditional true inners) = runProcessors inners := by
  have hreq : (Item.serverConditional true inners).isRequirement = anyRequirement inners := by
    rw [Item.isRequirement]
  have hmod : (Item.serverConditional true inners).isModifier = anyModifier inners := by
    rw [Item.isModifier]
  cases hr : anyRequirement inners with
  | true =>
      rw [callIfProcessor_of_requirement (hreq.trans hr),
        runProcessors_of_noModifier (h.resolve_left (by simp [hr]))]
      simp [Item.verify]
  | false =>
      rw [runProcessors_of_noRequirement hr]
      cases hm : anyModifier inners with
      | true =>
          rw [callIfProcessor_of_modifier (hreq.trans hr) (hmod.trans hm)]
          simp [Item.modify]
      | false =>
          rw [callIfProcessor_of_neither (hreq.trans hr) (hmod.trans hm),
            modifyAll_of_noModifier hm]

/-- The other server's wrapper does nothing. -/
theorem callIfProcessor_inactive (inners : List (Item α)) :
    callIfProcessor (.serverConditional false inners) = pure () := by
  cases hr : (Item.serverConditional false inners).isRequirement with
  | true =>
      rw [callIfProcessor_of_requirement hr]
      simp only [Item.verify, Bool.false_eq_true, if_false]
      rfl
  | false =>
      cases hm : (Item.serverConditional false inners).isModifier with
      | true =>
          rw [callIfProcessor_of_modifier hr hm]
          simp [Item.modify]
      | false => exact callIfProcessor_of_neither hr hm

/-- A build-conditional list ensures its condition where it is active. -/
theorem Item.Meets.serverConditional {active : Bool} {inners : List (Item α)}
    (hmixed : NotMixed inners) (h : ItemsMeet P inners Q) :
    (Item.serverConditional active inners).Meets P fun v => if active then Q v else P v := by
  intro v hP
  cases active with
  | true =>
      rw [callIfProcessor_active hmixed]
      simpa using h v hP
  | false =>
      rw [callIfProcessor_inactive]
      exact ⟨.refl v, by simpa using hP⟩

/-- What holds after the wrapper of the server that is built. -/
theorem Item.Meets.whenActive {active : Bool} {inners : List (Item α)}
    (hmixed : NotMixed inners) (h : ItemsMeet P inners Q) :
    (Item.serverConditional active inners).Meets P fun v => active = true → Q v :=
  (Item.Meets.serverConditional hmixed h).mono (fun _ hP => hP) fun v hv hactive => by
    simpa [hactive] using hv

/-! ## Items that only check -/

/-- The item leaves every view as it was, and `Q` holds of what it does not refuse. -/
def Item.Checks (item : Item α) (Q : FieldView → Prop) : Prop :=
  ∀ v, SafeRun (callIfProcessor item) v fun _ v' => v' = v ∧ Q v

/-- `Item.Checks` for items run in order. -/
def ItemsCheck (items : List (Item α)) (Q : FieldView → Prop) : Prop :=
  ∀ v, SafeRun (runProcessors items) v fun _ v' => v' = v ∧ Q v

namespace ItemsCheck

theorem nil : ItemsCheck ([] : List (Item α)) fun _ => True := by
  intro v
  rw [runProcessors_nil]
  exact ⟨rfl, trivial⟩

/-- A list checks what its items check. -/
theorem cons (hitem : item.Checks Q) (hrest : ItemsCheck rest Q') :
    ItemsCheck (item :: rest) fun v => Q v ∧ Q' v := by
  intro v
  rw [runProcessors_cons]
  refine (hitem v).bind fun _ v' ⟨hv', hQ⟩ => ?_
  subst hv'
  exact (hrest v').mono fun _ _ ⟨hsame, hQ'⟩ => ⟨hsame, hQ, hQ'⟩

theorem mono (h : ItemsCheck items Q) (hQ : ∀ v, Q v → Q' v) : ItemsCheck items Q' :=
  fun v => (h v).mono fun _ _ ⟨hsame, hv⟩ => ⟨hsame, hQ v hv⟩

theorem single (hitem : item.Checks Q) : ItemsCheck [item] Q :=
  (cons hitem nil).mono fun _ h => h.1

end ItemsCheck

namespace Item.Checks

theorem mono (h : item.Checks Q) (hQ : ∀ v, Q v → Q' v) : item.Checks Q' :=
  fun v => (h v).mono fun _ _ ⟨hsame, hv⟩ => ⟨hsame, hQ v hv⟩

/-- What held before a check holds after it. -/
theorem meets (h : item.Checks Q) : item.Meets P fun v => P v ∧ Q v := fun v hP =>
  (h v).mono fun _ _ ⟨hsame, hQ⟩ => by
    subst hsame
    exact ⟨.refl _, hP, hQ⟩

theorem requirement {verify : FieldView → MaybeError} (h : ∀ v, Safe (verify v) fun _ => Q v) :
    (Item.requirement verify : Item α).Checks Q :=
  fun v => SafeRun.get_bind <| (SafeRun.lift (h v)).mono fun _ _ ⟨hQ, hsame⟩ => ⟨hsame, hQ⟩

theorem withCustomError (h : item.Checks Q) (code : CombinedError) (message : String) :
    (Item.withCustomError item code message).Checks Q := by
  intro v
  rw [callIfProcessor_withCustomError]
  exact (h v).mapFailure (customFailure_error code message)

/-- A guarded list checks its condition on fields of the type. -/
theorem ifType {t : JsonType} (h : ItemsCheck items Q) :
    (Item.ifType t items).Checks fun v => v.is t = true → Q v := by
  intro v
  show SafeRun (Item.ifType t items).modify v _
  rw [Item.modify]
  refine SafeRun.get_bind ?_
  split
  · rename_i hskip
    refine ⟨rfl, ?_⟩
    intro ht
    simp [ht, present_of_is ht] at hskip
  · exact (h v).mono fun _ _ ⟨hsame, hQ⟩ => ⟨hsame, fun _ => hQ⟩

/-- Fields that only check leave the value as it was. -/
theorem processNested_checks {subFields : List (FieldSpec α)}
    {conditions : List (FieldView → Prop)}
    (h : List.Forall₂ (fun field Q => ItemsCheck field.items Q) subFields conditions)
    (v : FieldView) : SafeRun (processNested subFields) v fun _ v' => v' = v ∧
      List.Forall₂ (fun field Q => Q (v.child field.key)) subFields conditions := by
  induction h generalizing v with
  | nil =>
      rw [processNested]
      exact ⟨rfl, .nil⟩
  | @cons field Q rest conditions hfield _ ih =>
      obtain ⟨key, items⟩ := field
      rw [processNested]
      refine SafeRun.bind (SafeRun.zoom (hfield (v.child key))) ?_
      rintro _ _ ⟨_, ⟨rfl, hQ⟩, rfl⟩
      rw [FieldView.putChild_child]
      exact (ih v).mono fun _ _ ⟨hsame, hrest⟩ => ⟨hsame, .cons hQ hrest⟩

/-- A section checks that the field is an object and what its subfields check of the members. -/
theorem section_ {subFields : List (FieldSpec α)} {conditions : List (FieldView → Prop)}
    (h : List.Forall₂ (fun field Q => ItemsCheck field.items Q) subFields conditions) :
    (Item.section_ subFields).Checks fun v => v.present = true → v.isObject = true ∧
      List.Forall₂ (fun field Q => Q (v.child field.key)) subFields conditions := by
  intro v
  show SafeRun (Item.section_ subFields).modify v _
  rw [Item.modify]
  refine SafeRun.get_bind ?_
  split
  · rename_i hskip
    exact ⟨rfl, fun hp => by simp [hp] at hskip⟩
  · split
    · trivial
    · rename_i hobject
      refine (processNested_checks h v).mono fun _ _ ⟨hsame, hall⟩ => ⟨hsame, fun _ => ?_⟩
      exact ⟨by simpa using hobject, hall⟩

/-- A build-conditional list checks its condition where it is active. -/
theorem serverConditional {active : Bool} {inners : List (Item α)} (hmixed : NotMixed inners)
    (h : ItemsCheck inners Q) :
    (Item.serverConditional active inners).Checks fun v => active = true → Q v := by
  intro v
  cases active with
  | true =>
      rw [callIfProcessor_active hmixed]
      exact (h v).mono fun _ _ ⟨hsame, hQ⟩ => ⟨hsame, fun _ => hQ⟩
  | false =>
      rw [callIfProcessor_inactive]
      exact ⟨rfl, fun hactive => by cases hactive⟩

end Item.Checks

/-! ### Loops over the elements -/

/-- A loop over the elements of an array works on each of them once. -/
theorem forM_onElement_safe {x : EStateM Failure FieldView Unit}
    (hx : ∀ elem, SafeRun x elem fun _ elem' => SameField elem elem' ∧ Q elem')
    (v : FieldView) {n : Nat} (hn : n ≤ v.arraySize) :
    SafeRun (forM (List.range n) fun i => onElement i x) v fun _ v' =>
      SameField v v' ∧ v'.isArray = v.isArray ∧ v'.arraySize = v.arraySize ∧
        ∀ i < n, Q (v'.element i) := by
  induction n with
  | zero => exact ⟨.refl v, rfl, rfl, fun i hi => absurd hi (Nat.not_lt_zero i)⟩
  | succ n ih =>
      rw [List.range_succ, List.forM_append]
      refine (ih (by omega)).bind fun _ v' ⟨hsame, harray, hsize, hbefore⟩ => ?_
      rw [List.forM_cons, List.forM_nil]
      refine SafeRun.bind (SafeRun.zoom (hx (v'.element n))) ?_
      rintro _ _ ⟨elem, ⟨helem, hQ⟩, rfl⟩
      have hlt : n < v'.arraySize := by omega
      have hpresent : elem.present = true := helem.2.trans (present_element hlt)
      refine ⟨hsame.trans (sameField_putElement v' n elem),
        (isArray_putElement v' n elem).trans harray,
        (arraySize_putElement v' n elem).trans hsize, fun i hi => ?_⟩
      by_cases hin : i = n
      · subst hin
        rw [element_putElement_same (v := v') helem.1 hlt hpresent]
        exact hQ
      · rw [element_putElement_ne hin]
        exact hbefore i (by omega)

/-- Of the wrappers for xrpld and for Clio one runs. -/
theorem ItemsMeet.onEither [Build] {onXrpld onClio : List (Item α)}
    (hmixedXrpld : NotMixed onXrpld) (hmixedClio : NotMixed onClio)
    (hxrpld : ItemsMeet P onXrpld R) (hclio : ItemsMeet P onClio R)
    (hrest : ItemsMeet R rest Q) :
    ItemsMeet P (ifServerXrpld onXrpld :: ifServerClio onClio :: rest) Q := by
  refine .cons (.serverConditional hmixedXrpld hxrpld) ?_
  cases hbuild : kIsClioBuild with
  | true =>
      simp only [kIsXrpldBuild, hbuild, Bool.not_true, Bool.false_eq_true, if_false]
      refine .cons (.serverConditional hmixedClio hclio) ?_
      simpa only [hbuild, if_true] using hrest
  | false =>
      simp only [kIsXrpldBuild, hbuild, Bool.not_false, if_true]
      intro v hR
      rw [runProcessors_cons, ifServerClio, hbuild, callIfProcessor_inactive]
      exact hrest v hR

end RpcSpec.Dsl
