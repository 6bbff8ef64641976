import RpcSpec.Dsl.Contracts
set_option autoImplicit false

/-!
# Specs that never fault

A field never faults when its items leave every view in a state its converter may be
applied to; a spec never faults when none of its fields does.  Items that may run on
any view at all are collected here, so that for most fields nothing is left to show.

`TypedSpec.parse_safe` is the result: a spec whose fields never fault answers every
document with an `Input` or an error. Fields whose converter relies on the items before it
go through `Yields`.
-/

namespace RpcSpec.Dsl

open RpcSpec.Foundation FieldView

variable {α : Type}

/-! ## From the fields to the spec -/

/-- The items may run on any view, and on what they leave the converter may run. -/
def BoundField.NeverFaults {Input : Type} (field : BoundField Input) : Prop :=
  ItemsMeet (fun _ => True) field.items fun v =>
    v.present = true → Safe (field.conv.parse v) fun _ => True

/-- Parsing the field ends in an input or an error, never in a fault. -/
def Field.NeverFaults {Input : Type} : Field Input → Prop
  | .bound field => field.NeverFaults
  | .aliased _ field => field.NeverFaults
  | .ledgerSelector _ => True
  | .unbound field => ItemsMeet (fun _ => True) field.items fun _ => True

/-- A member of the root is processed as safely as it is by itself. -/
theorem onRootChild_safe {β : Type} {x : EStateM Failure FieldView β} {key : String}
    {root : Json} {Q : β → FieldView → Prop} (h : SafeRun x (rootChild root key) Q) :
    SafeRun (BoundField.onRootChild key x) root fun b _ => ∃ child, Q b child := by
  unfold BoundField.onRootChild
  exact (SafeRun.zoom (s := root) h).mono fun _ _ ⟨child, hQ, _⟩ => ⟨child, hQ⟩

/-- No field of the spec faults. -/
def TypedSpec.NeverFaults {Input : Type} [InputAggregate Input] (spec : TypedSpec Input) :
    Prop := ∀ field ∈ spec.fields, field.NeverFaults

/-- Whatever key the field is looked up by, if its items may run on what the request
holds there. -/
theorem BoundField.parseAt_safe_of_meets {Input : Type} {field : BoundField Input}
    {P : FieldView → Prop} (h : ItemsMeet P field.items fun v =>
      v.present = true → Safe (field.conv.parse v) fun _ => True)
    (key : String) (out : Input) {root : Json} (hroot : P (rootChild root key)) :
    SafeRun (field.parseAt key out) root fun _ _ => True := by
  unfold BoundField.parseAt
  refine SafeRun.get_bind ?_
  split
  · trivial
  · have hitems : SafeRun (do runProcessors field.items; get) (rootChild root key)
        fun v _ => v.present = true → Safe (field.conv.parse v) fun _ => True :=
      (h _ hroot).bind fun _ v' hv' => SafeRun.get_bind hv'.2
    apply (onRootChild_safe hitems).bind
    intro v _ hv
    split
    · trivial
    · rename_i hpresent
      obtain ⟨_, hconv⟩ := hv
      exact (SafeRun.lift (hconv (by simpa using hpresent))).bind fun _ _ _ => trivial

/-- A bound field that never faults is safe under any key. -/
theorem BoundField.parseAt_safe {Input : Type} {field : BoundField Input}
    (h : field.NeverFaults) (key : String) (out : Input) (root : Json) :
    SafeRun (field.parseAt key out) root fun _ _ => True :=
  parseAt_safe_of_meets h key out trivial

/-- A field that never faults is safe on any document. -/
theorem Field.parseOne_safe [Build] [LibXrpl] {Input : Type} {field : Field Input}
    (h : field.NeverFaults) (out : Input) (root : Json) :
    SafeRun (field.parseOne out) root fun _ _ => True := by
  cases field with
  | bound field => exact BoundField.parseAt_safe h _ out root
  | aliased alternateKey field =>
      refine SafeRun.get_bind ?_
      split
      · split
        · trivial
        · exact BoundField.parseAt_safe h _ out root
      · exact BoundField.parseAt_safe h _ out root
  | ledgerSelector member =>
      refine SafeRun.get_bind ((SafeRun.lift (selectLedger_safe root)).bind ?_)
      intro ledger _ _
      cases ledger <;> trivial
  | unbound field =>
      exact (SafeRun.zoom (h _ trivial)).bind fun _ _ _ => trivial

/-- A run over the fields in turn. -/
theorem foldlM_parseOne_safe [Build] [LibXrpl] {Input : Type} {fields : List (Field Input)}
    (h : ∀ field ∈ fields, field.NeverFaults) (out : Input) (root : Json) :
    SafeRun (fields.foldlM (fun out field => field.parseOne out) out) root fun _ _ => True := by
  induction fields generalizing out root with
  | nil => trivial
  | cons field rest ih =>
      rw [List.foldlM_cons]
      apply (Field.parseOne_safe (h field (by simp)) out root).bind
      intro out' root' _
      exact ih (fun other hother => h other (by simp [hother])) out' root'

/-- A spec whose fields never fault parses every document to an input or an error. -/
theorem TypedSpec.parse_safe [Build] [LibXrpl] {Input : Type} [InputAggregate Input]
    {spec : TypedSpec Input} (h : spec.NeverFaults) (root : Json) :
    SafeRun spec.parse root fun _ _ => True :=
  foldlM_parseOne_safe (fun field hfield => h field (mem_of_mem_effectiveFields hfield)) _ root

/-- An extended spec never faults when the base and the added fields do not. -/
theorem TypedSpec.NeverFaults.extend {Input : Type} [InputAggregate Input]
    {base : TypedSpec Input} {extra : List (Field Input)} {complete}
    (hbase : base.NeverFaults) (hextra : ∀ field ∈ extra, field.NeverFaults) :
    (extend base extra complete).NeverFaults := fun field hfield =>
  (List.mem_append.mp hfield).elim (hbase field) (hextra field)

/-! ## Items that may run on any view -/

/-- The item may run on any view. -/
def Item.NeverFaults (item : Item α) : Prop := item.Meets (fun _ => True) fun _ => True

/-- Each of the items may run on any view. -/
def NeverFault (items : List (Item α)) : Prop := ∀ item ∈ items, item.NeverFaults

@[simp] theorem neverFault_nil : NeverFault ([] : List (Item α)) := by simp [NeverFault]

@[simp] theorem neverFault_cons {item : Item α} {rest : List (Item α)} :
    NeverFault (item :: rest) ↔ item.NeverFaults ∧ NeverFault rest := by simp [NeverFault]

@[simp] theorem neverFault_append {items rest : List (Item α)} :
    NeverFault (items ++ rest) ↔ NeverFault items ∧ NeverFault rest := List.forall_mem_append

/-- Items that never fault are safe one after the other. -/
theorem ItemsMeet.of_neverFault {items : List (Item α)} (h : NeverFault items) :
    ItemsMeet (fun _ => True) items fun _ => True := by
  induction items with
  | nil => exact .nil
  | cons item rest ih =>
      obtain ⟨hitem, hrest⟩ := neverFault_cons.mp h
      exact .cons hitem (ih hrest)

/-- Items none of which is a modifier only check. -/
theorem ItemsCheck.of_neverFault {items : List (Item α)} (h : NeverFault items)
    (hread : anyModifier items = false) : ItemsCheck items fun _ => True := by
  intro v
  have hrun := ItemsMeet.of_neverFault h v trivial
  rw [runProcessors_of_noModifier hread] at hrun ⊢
  change SafeRun (monadLift (verifyAll items v)) v _ at hrun
  refine SafeRun.get_bind ?_
  rcases hx : verifyAll items v with (_ | _) | _
  · rw [hx] at hrun
    exact hrun
  · trivial
  · exact ⟨rfl, trivial⟩

/-- A field whose converter checks what it reads. -/
theorem BoundField.NeverFaults.of_conv {Input : Type} {field : BoundField Input}
    (hitems : NeverFault field.items) (hconv : field.conv.NeverFaults) :
    field.NeverFaults :=
  (ItemsMeet.of_neverFault hitems).mono (fun _ h => h) fun v _ _ => hconv v

/-- What the items leave of a present field the converter reads, and the value it
returns stands to the field as given by the relation. -/
def Yields {Value : Type} (items : List (Item Value)) (conv : Converter Value)
    (R : FieldView → Value → Prop) : Prop :=
  ∀ v, SafeRun (runProcessors items) v fun _ v' =>
    SameField v v' ∧ (v'.present = true → Safe (conv.parse v') (R v))

/-- Items that only check, and a converter that relies on them. -/
theorem Yields.of_check {Value : Type} {items : List (Item Value)} {conv : Converter Value}
    {R : FieldView → Value → Prop} {Q : FieldView → Prop} (hitems : ItemsCheck items Q)
    (hconv : ∀ v, v.present = true → Q v → Safe (conv.parse v) (R v)) : Yields items conv R :=
  fun v => (hitems v).mono fun _ _ ⟨hsame, hQ⟩ => by
    subst hsame
    exact ⟨.refl _, fun hp => hconv _ hp hQ⟩

section Fields

variable {Input Value : Type} {key : String} {member : Member Input Value}
  {items : List (Item Value)} {conv : Converter Value}

/-- A field never faults when its items and its converter do not. -/
@[simp] theorem field_neverFaults {unguarded}
    (hitems : NeverFault items) (hconv : conv.NeverFaults) :
    (field key member items conv unguarded).NeverFaults :=
  BoundField.NeverFaults.of_conv hitems hconv

@[simp] theorem alias_neverFaults {alternateKey : String} {unguarded}
    (hitems : NeverFault items) (hconv : conv.NeverFaults) :
    (alias_ alternateKey key member items conv unguarded).NeverFaults :=
  BoundField.NeverFaults.of_conv hitems hconv

/-- A field whose converter relies on what its items establish. -/
theorem field_neverFaults_of_meets {unguarded} {Q : FieldView → Prop}
    (hitems : ItemsMeet (fun _ => True) items Q)
    (hconv : ∀ v, v.present = true → Q v → Safe (conv.parse v) fun _ => True) :
    (field key member items conv unguarded).NeverFaults :=
  hitems.mono (fun _ h => h) fun v hQ hp => hconv v hp hQ

/-- A field never faults when its converter is safe on what its items let through. -/
theorem field_neverFaults_of_yields {unguarded} {R : FieldView → Value → Prop}
    (h : Yields items conv R) : (field key member items conv unguarded).NeverFaults := fun v _ =>
  (h v).mono fun _ _ ⟨hsame, hv⟩ => ⟨hsame, fun hp => (hv hp).mono fun _ _ => trivial⟩

theorem alias_neverFaults_of_yields {alternateKey : String} {unguarded}
    {R : FieldView → Value → Prop} (h : Yields items conv R) :
    (alias_ alternateKey key member items conv unguarded).NeverFaults := fun v _ =>
  (h v).mono fun _ _ ⟨hsame, hv⟩ => ⟨hsame, fun hp => (hv hp).mono fun _ _ => trivial⟩

@[simp] theorem unboundField_neverFaults {items : List (Item Unit)}
    (hitems : NeverFault items) :
    (unboundField key items : Field Input).NeverFaults := ItemsMeet.of_neverFault hitems

@[simp] theorem ledgerSelector_neverFaults {member : Member Input LedgerSpecifier} :
    (ledgerSelector member).NeverFaults := trivial

end Fields

namespace Item.NeverFaults

/-- A requirement never faults when its check is safe on every field. -/
theorem requirement {verify : FieldView → MaybeError} {Q : FieldView → Prop}
    (h : ∀ v, Safe (verify v) fun _ => Q v) : (Item.requirement verify : Item α).NeverFaults :=
  Item.Meets.requirement fun v _ => (h v).mono fun _ _ => trivial

/-- A modifier never faults when it puts a value only where one was present. -/
theorem rewriteBy {newValue : FieldView → Parsed (Option Json)}
    (h : ∀ v, Safe (newValue v) fun value => value.isSome = true → v.present = true) :
    (Item.modifier (FieldView.rewriteBy newValue) : Item α).NeverFaults :=
  Item.Meets.modifier fun v _ => rewriteBy_safe ((h v).mono fun value hvalue => by
    cases value with
    | none => trivial
    | some json => exact ⟨hvalue rfl, trivial⟩)

/-- The check of an item that never faults is safe. -/
theorem verify_safe {item : Item α} (h : item.NeverFaults) (hreq : item.isRequirement = true)
    (v : FieldView) : Safe (item.verify v) fun _ => True := by
  have hrun := h v trivial
  rw [callIfProcessor_of_requirement hreq] at hrun
  change SafeRun (monadLift (item.verify v)) v _ at hrun
  rcases hx : item.verify v with (_ | _) | _
  · rw [hx] at hrun
    exact hrun
  · trivial
  · trivial

/-- The modifier of an item that never faults is safe and keeps the field present. -/
theorem modify_safe {item : Item α} (h : item.NeverFaults) (hreq : item.isRequirement = false)
    (hmod : item.isModifier = true) (v : FieldView) :
    SafeRun item.modify v fun _ v' => SameField v v' := by
  have hrun := h v trivial
  rw [callIfProcessor_of_modifier hreq hmod] at hrun
  exact hrun.mono fun _ _ hsame => hsame.1

/-! ### Combinators -/

theorem verifyAll_safe {items : List (Item α)} (h : NeverFault items)
    (v : FieldView) : Safe (verifyAll items v) fun _ => True := by
  induction items with
  | nil => rw [verifyAll]; trivial
  | cons item rest ih =>
      obtain ⟨hitem, hrest⟩ := neverFault_cons.mp h
      rw [verifyAll]
      cases hreq : item.isRequirement with
      | true => simpa using (verify_safe hitem hreq v).bind fun _ _ => ih hrest
      | false => simpa using ih hrest

theorem modifyAll_safe {items : List (Item α)} (h : NeverFault items)
    (hreq : anyRequirement items = false) (v : FieldView) :
    SafeRun (modifyAll items) v fun _ v' => SameField v v' := by
  induction items generalizing v with
  | nil => rw [modifyAll]; exact .refl v
  | cons item rest ih =>
      simp only [anyRequirement, Bool.or_eq_false_iff] at hreq
      obtain ⟨hitem, hrest⟩ := neverFault_cons.mp h
      rw [modifyAll]
      cases hmod : item.isModifier with
      | true =>
          simp only [if_true]
          apply (modify_safe hitem hreq.1 hmod v).bind
          intro _ v' hsame
          exact (ih hrest hreq.2 v').mono fun _ _ hsame' => hsame.trans hsame'
      | false => simpa using ih hrest hreq.2 v

theorem serverConditional {active : Bool} {inners : List (Item α)}
    (h : NeverFault inners) :
    (Item.serverConditional active inners).NeverFaults := by
  intro v _
  cases active with
  | false =>
      rw [callIfProcessor_inactive]
      exact ⟨.refl v, trivial⟩
  | true =>
      cases hreq : anyRequirement inners with
      | true =>
          rw [callIfProcessor_of_requirement (by rw [Item.isRequirement, hreq])]
          refine SafeRun.get_bind ?_
          rw [Item.verify]
          apply (SafeRun.lift (verifyAll_safe h v)).mono
          intro _ v' hv'
          exact ⟨hv'.2 ▸ .refl v, trivial⟩
      | false =>
          cases hmod : anyModifier inners with
          | true =>
              rw [callIfProcessor_of_modifier (by rw [Item.isRequirement, hreq])
                (by rw [Item.isModifier, hmod]), Item.modify]
              exact (modifyAll_safe h hreq v).mono fun _ _ hsame => ⟨hsame, trivial⟩
          | false =>
              rw [callIfProcessor_of_neither (by rw [Item.isRequirement, hreq])
                (by rw [Item.isModifier, hmod])]
              exact ⟨.refl v, trivial⟩

end Item.NeverFaults

/-! ### The items by name -/

@[simp] theorem required_neverFaults [Build] : (required : Item α).NeverFaults :=
  .requirement Required.verify_safe

@[simp] theorem type_neverFaults (types : List JsonType) : (type types : Item α).NeverFaults :=
  .requirement (TypeIs.verify_safe types)

@[simp] theorem minArrayLength_neverFaults (bound : Nat) :
    (minArrayLength bound : Item α).NeverFaults := .requirement fun _ => safe_rejectIf

@[simp] theorem maxArrayLength_neverFaults (bound : Nat) :
    (maxArrayLength bound : Item α).NeverFaults := .requirement fun _ => safe_rejectIf

section Numeric

variable {T : Type} [SomeNumericBound T] [LT T] [DecidableLT T]

@[simp] theorem min_neverFaults (bound : T) : (min bound : Item α).NeverFaults :=
  .requirement fun v => (numericValue_safe v).bind fun _ _ =>
    safe_rejectIf.mono fun _ _ => trivial

@[simp] theorem between_neverFaults (lo hi : T) : (between lo hi : Item α).NeverFaults :=
  .requirement fun v => (numericValue_safe v).bind fun _ _ =>
    safe_rejectIf.mono fun _ _ => trivial

@[simp] theorem clamp_neverFaults (lo hi : T) : (clamp lo hi : Item α).NeverFaults :=
  .rewriteBy fun v => (numericValue_safe v).bind fun value hvalue => by simpa using hvalue

end Numeric

@[simp] theorem account_neverFaults [LibXrpl] : (account : Item α).NeverFaults :=
  .requirement AccountFormat.verify_safe

@[simp] theorem uint256Hex_neverFaults [Build] [LibXrpl] : (uint256Hex : Item α).NeverFaults :=
  .requirement (HexStringValidator.verify_safe 256)

@[simp] theorem uint192Hex_neverFaults [Build] [LibXrpl] : (uint192Hex : Item α).NeverFaults :=
  .requirement (HexStringValidator.verify_safe 192)

@[simp] theorem accountBase58_neverFaults [Build] [LibXrpl] :
    (accountBase58 : Item α).NeverFaults :=
  .requirement AccountBase58Validator.verify_safe

@[simp] theorem currency_neverFaults [Build] [LibXrpl] : (currency : Item α).NeverFaults :=
  .requirement CurrencyValidator.verify_safe

@[simp] theorem strictCurrency_neverFaults [Build] [LibXrpl] :
    (strictCurrency : Item α).NeverFaults :=
  .requirement StrictCurrencyValidator.verify_safe

@[simp] theorem issuer_neverFaults [LibXrpl] : (issuer : Item α).NeverFaults :=
  .requirement IssuerValidator.verify_safe

@[simp] theorem accountMarker_neverFaults [Build] [LibXrpl] :
    (accountMarker : Item α).NeverFaults :=
  .requirement AccountMarkerValidator.verify_safe

@[simp] theorem notSupported_neverFaults : (notSupported : Item α).NeverFaults :=
  .requirement fun _ => safe_rejectIf

@[simp] theorem notSupportedIf_neverFaults (value : Bool) :
    (notSupportedIf value : Item α).NeverFaults := by
  refine .requirement (Q := fun _ => True) fun v => ?_
  unfold NotSupportedIfEqual.verify
  split
  · trivial
  · rename_i h
    simp only [Bool.or_eq_true, Bool.not_eq_true', not_or, Bool.not_eq_false] at h
    exact (FieldView.asBool_safe h.2).bind fun _ _ => safe_rejectIf.mono fun _ _ => trivial

/-- Past the type check a field that is present has the type. -/
theorem type_checks (t : JsonType) :
    (type [t] : Item α).Checks fun v => v.present = true → v.is t = true :=
  .requirement fun v => (TypeIs.verify_safe [t] v).mono fun _ h hp => by simpa using h hp

/-- Past `required` the field is present. -/
theorem required_checks [Build] : (required : Item α).Checks fun v => v.present = true :=
  .requirement Required.verify_safe

/-- What is required and then checked. -/
theorem requiredThen_check {presence check : Item α} {Q : FieldView → Prop}
    (hpresence : presence.Checks fun v => v.present = true)
    (hcheck : check.Checks fun v => v.present = true → Q v) :
    ItemsCheck [presence, check] Q :=
  (ItemsCheck.cons hpresence (.single hcheck)).mono fun _ h => h.2 h.1

/-- What a type check of one type leaves. -/
theorem type_meets (t : JsonType) : (type [t] : Item α).Meets (fun _ => True)
    fun v => v.present = true → v.is t = true :=
  .requirement fun v _ => (TypeIs.verify_safe [t] v).mono fun _ h hp => by simpa using h hp

/-- An integer is clamped to an integer. -/
theorem clampAs_int32_meets : (clampAs .int32 : Item α).Meets
    (fun v => v.present = true → v.isInt64 = true)
    fun v => v.present = true → v.isInt64 = true := by
  refine .modifier fun v hv => FieldView.rewriteBy_safe ?_
  cases hp : v.present with
  | false => simp
  | true =>
      simp only [hv hp, Bool.not_true, Bool.false_eq_true, if_false, if_true]
      exact (FieldView.asInt64_safe (hv hp)).bind fun _ _ => ⟨trivial, fun _ => rfl⟩

/-- A string that spells a number in decimal. -/
def SpellsUint32 (v : FieldView) (val : Int) : Prop :=
  ∃ text, v.value = some (.string text) ∧ Text.fromCharsInt64 text = some (val, []) ∧
    0 ≤ val ∧ val ≤ Text.uint32Max

/-- A number is left alone, and a string becomes the number it spells. -/
theorem toNumber_safe {v : FieldView} (hv : v.isUint32 = true ∨ v.isString = true) :
    SafeRun ToNumberModifier.modify v fun _ v' => SameField v v' ∧
      (v' = v ∧ v.isUint32 = true ∨
        ∃ val, SpellsUint32 v val ∧ v'.value = some (.int64 (Int64.ofInt val))) := by
  refine FieldView.rewriteBy_safe ?_
  unfold ToNumberModifier.newValue
  cases hs : v.isString with
  | false =>
      have hnumber : v.isUint32 = true := by simpa [hs] using hv
      simp [hnumber]
  | true =>
      have hp : v.present = true := FieldView.present_of_is (t := .string) hs
      simp only [hp, Bool.not_true, Bool.or_false, Bool.false_eq_true, if_false]
      refine safe_asString_bind hs fun text htext => safe_rejectIf_bind fun _ => ?_
      split
      · rename_i val hval
        refine safe_rejectIf_bind fun hbounds => ⟨trivial, .inr ⟨val, ⟨text, htext, hval, ?_⟩, rfl⟩⟩
        rw [Bool.or_eq_false_iff] at hbounds
        exact ⟨Int.not_lt.mp (of_decide_eq_false hbounds.1),
          Int.not_lt.mp (of_decide_eq_false hbounds.2)⟩
      · trivial

theorem isUint32_of_ofInt {v : FieldView} {val : Int} (hlo : 0 ≤ val) (hhi : val ≤ Text.uint32Max)
    (hv : v.value = some (.int64 (Int64.ofInt val))) : v.isUint32 = true := by
  have hhi : val ≤ 4294967295 := hhi
  have hval : (Int64.ofInt val).toInt = val := Int64.toInt_ofInt_of_le (by omega) (by omega)
  simp only [FieldView.isUint32, hv, Bool.and_eq_true, decide_eq_true_eq, Int64.le_iff_toInt_le,
    hval]
  exact ⟨hlo, hhi⟩

/-- A number, or a string that spells one, is left as a number. -/
theorem toNumber_meets : (toNumber : Item α).Meets
    (fun v => v.isUint32 = true ∨ v.isString = true) fun v => v.isUint32 = true := by
  refine .modifier fun v hv => (toNumber_safe hv).mono fun _ v' ⟨hsame, h⟩ => ⟨hsame, ?_⟩
  rcases h with ⟨rfl, hnumber⟩ | ⟨val, ⟨_, _, _, hlo, hhi⟩, hv'⟩
  · exact hnumber
  · exact isUint32_of_ofInt hlo hhi hv'

/-- What a validator of a handler's own has to show. -/
theorem customValidator_neverFaults {fn : FieldView → MaybeError}
    (h : ∀ v, v.present = true → Safe (fn v) fun _ => True) :
    (customValidator fn : Item α).NeverFaults :=
  .requirement fun v => safe_ifPresent fun hp => h v hp

@[simp] theorem nullAs_neverFaults (value : Json) : (nullAs value : Item α).NeverFaults := by
  refine .rewriteBy ?_
  intro v
  cases hnull : v.isNull with
  | false => simp
  | true =>
      have hp : v.present = true := by
        unfold isNull at hnull
        split at hnull
        · rename_i hv
          simp [present, hv]
        · cases hnull
      simp [hp]

@[simp] theorem mapText_neverFaults (f : UInt8 → UInt8) :
    (Item.modifier (mapText f) : Item α).NeverFaults := by
  refine .rewriteBy ?_
  intro v
  split
  · simp
  · rename_i h
    simp only [Bool.or_eq_true, Bool.not_eq_true', not_or, Bool.not_eq_false] at h
    exact safe_asString_bind h.2 fun _ _ => by simp [h.1]

@[simp] theorem toLower_neverFaults : (toLower : Item α).NeverFaults := mapText_neverFaults _

@[simp] theorem lexicalUint32Item_neverFaults : (lexicalUint32Item : Item α).NeverFaults := by
  refine .rewriteBy ?_
  intro v
  unfold LexicalUint32Modifier.newValue
  split
  · simp
  · rename_i h
    simp only [Bool.or_eq_true, Bool.not_eq_true', not_or, Bool.not_eq_false] at h
    exact safe_asString_bind h.2 fun _ _ => safe_orReject_bind fun _ _ => by simp [h.1]

@[simp] theorem deprecated_neverFaults : (deprecated : Item α).NeverFaults :=
  Item.Meets.deprecated

@[simp] theorem ifAbsent_neverFaults (guardKey : String) :
    (ifAbsent guardKey : Item α).NeverFaults := Item.Meets.guard _

@[simp] theorem never_neverFaults : (never : Item α).NeverFaults := Item.Meets.guard _

@[simp] theorem defaultTo_neverFaults (value : α) : (defaultTo value).NeverFaults :=
  Item.Meets.defaultTo value

@[simp] theorem withCustomError_neverFaults {item : Item α} {code : CombinedError}
    {message : String} : (withCustomError item code message).NeverFaults ↔ item.NeverFaults :=
  ⟨Item.Meets.of_withCustomError, fun h => Item.Meets.withCustomError h code message⟩

@[simp] theorem ifServerClio_neverFaults [Build] {inners : List (Item α)}
    (h : NeverFault inners) : (ifServerClio inners).NeverFaults :=
  .serverConditional h

@[simp] theorem ifServerXrpld_neverFaults [Build] {inners : List (Item α)}
    (h : NeverFault inners) : (ifServerXrpld inners).NeverFaults :=
  .serverConditional h

end RpcSpec.Dsl
