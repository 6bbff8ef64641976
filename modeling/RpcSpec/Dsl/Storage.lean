import RpcSpec.Dsl.ParseFrame
import RpcSpec.Foundation.Lockstep
set_option autoImplicit false

/-!
# How an integer is stored

A non-negative integer of a request may be stored as an `int64_t` or as a `uint64_t`.
The accessors of a view report the two alike, and so does whatever looks at the request
through them.

`Item.Blind`, `Field.Blind` and `TypedSpec.Blind` say so of the parts, and
`TypedSpec.parse_check_sameNumbers` of the whole: the same verdict, the same `Input`, the
same warnings, and documents left with the same numbers.
-/

namespace RpcSpec.Dsl

open RpcSpec.Foundation FieldView

/-! ## Documents -/

namespace Json

mutual

/-- The document with every non-negative integer stored as a `uint64_t`. -/
def storedUnsigned : Json → Json
  | .int64 n => if 0 ≤ n then .uint64 n.toUInt64 else .int64 n
  | .array items => .array (unsignedItems items)
  | .object members => .object (unsignedMembers members)
  | .null => .null
  | .bool b => .bool b
  | .uint64 n => .uint64 n
  | .double bits => .double bits
  | .string text => .string text

/-- The elements with every non-negative integer stored unsigned. -/
def unsignedItems : List Json → List Json
  | [] => []
  | json :: rest => json.storedUnsigned :: unsignedItems rest

/-- The members with every non-negative integer stored unsigned. -/
def unsignedMembers : List (String × Json) → List (String × Json)
  | [] => []
  | (key, json) :: rest => (key, json.storedUnsigned) :: unsignedMembers rest

end

@[simp] theorem unsignedItems_eq_map (items : List Json) :
    unsignedItems items = items.map storedUnsigned := by
  induction items with
  | nil => simp only [unsignedItems, List.map_nil]
  | cons json rest ih => simp only [unsignedItems, ih, List.map_cons]

theorem lookup_unsignedMembers (key : String) (members : List (String × Json)) :
    (unsignedMembers members).lookup key = (members.lookup key).map storedUnsigned := by
  induction members with
  | nil => simp [unsignedMembers]
  | cons entry rest ih =>
      obtain ⟨k, json⟩ := entry
      rw [unsignedMembers, List.lookup_cons, List.lookup_cons]
      cases key == k with
      | true => rfl
      | false => exact ih

theorem length_unsignedMembers (members : List (String × Json)) :
    (unsignedMembers members).length = members.length := by
  induction members with
  | nil => simp [unsignedMembers]
  | cons entry rest ih => simp [unsignedMembers, ih]

/-- A member of a document stored so is the member stored so. -/
theorem member?_storedUnsigned (json : Json) (key : String) :
    json.storedUnsigned.member? key = (json.member? key).map storedUnsigned := by
  cases json with
  | object members => simpa [storedUnsigned, member?] using lookup_unsignedMembers key members
  | int64 n =>
      rw [storedUnsigned]
      split <;> rfl
  | _ => simp [storedUnsigned, member?]

theorem unsignedMembers_putMember (key : String) (json : Json) (members : List (String × Json)) :
    unsignedMembers (putMember key json members) =
      putMember key json.storedUnsigned (unsignedMembers members) := by
  induction members with
  | nil => simp [unsignedMembers, putMember]
  | cons entry rest ih =>
      obtain ⟨k, old⟩ := entry
      by_cases hk : k = key <;> simp [unsignedMembers, putMember, hk, ih]

theorem storedUnsigned_putChild (value : Option Json) (key : String) (json : Json) :
    (json.putChild value key).storedUnsigned =
      json.storedUnsigned.putChild (value.map storedUnsigned) key := by
  cases json with
  | object members =>
      cases value <;> simp [putChild, storedUnsigned, unsignedMembers_putMember]
  | int64 n =>
      change (int64 n).storedUnsigned = _
      rw [storedUnsigned]
      split <;> rfl
  | _ => simp [putChild, storedUnsigned]

theorem storedUnsigned_putElement (value : Option Json) (idx : Nat) (json : Json) :
    (json.putElement value idx).storedUnsigned =
      json.storedUnsigned.putElement (value.map storedUnsigned) idx := by
  cases json with
  | array items => cases value <;> simp [putElement, storedUnsigned, List.map_set]
  | int64 n =>
      change (int64 n).storedUnsigned = _
      rw [storedUnsigned]
      split <;> rfl
  | _ => simp [putElement, storedUnsigned]

/-- The documents differ at most in how non-negative integers are stored. -/
def SameNumbers (json json' : Json) : Prop := json.storedUnsigned = json'.storedUnsigned

end Json

/-! ## Views -/

namespace FieldView

/-- The field with every non-negative integer stored unsigned. -/
def storedUnsigned (v : FieldView) : FieldView :=
  { v with value := v.value.map Json.storedUnsigned }

/-- The views differ at most in how non-negative integers are stored. -/
def SameNumbers (v v' : FieldView) : Prop := v.storedUnsigned = v'.storedUnsigned

/-- What is computed from a view does not depend on how integers are stored in it. -/
def Blind {β : Type} (f : FieldView → β) : Prop := ∀ v, f v.storedUnsigned = f v

theorem Blind.eq {β : Type} {f : FieldView → β} (hf : Blind f) {v v' : FieldView}
    (h : SameNumbers v v') : f v = f v' := by
  rw [← hf v, h, hf v']

/-- Only integers, arrays and objects are not what they were. -/
theorem blind_of_kinds {β : Type} {f : FieldView → β}
    (hinteger : ∀ key n, 0 ≤ n → f ⟨key, some (.uint64 n.toUInt64)⟩ = f ⟨key, some (.int64 n)⟩)
    (harray : ∀ key items, f ⟨key, some (.array (items.map Json.storedUnsigned))⟩ =
      f ⟨key, some (.array items)⟩)
    (hobject : ∀ key members, f ⟨key, some (.object (Json.unsignedMembers members))⟩ =
      f ⟨key, some (.object members)⟩) : Blind f := by
  rintro ⟨key, value⟩
  rcases value with _ | (_ | _ | n | _ | _ | _ | items | members)
  case some.int64 =>
    simp only [storedUnsigned, Option.map_some, Json.storedUnsigned]
    split
    · exact hinteger key n ‹_›
    · rfl
  case some.array => simpa [storedUnsigned, Json.storedUnsigned] using harray key items
  case some.object => simpa [storedUnsigned, Json.storedUnsigned] using hobject key members
  all_goals simp only [storedUnsigned, Option.map_some, Option.map_none, Json.storedUnsigned]

theorem toUInt64_le_int64Max {n : Int64} (h : 0 ≤ n) : n.toUInt64 ≤ int64Max := by
  have hmax := n.toInt_lt
  have hle := Int64.le_iff_toInt_le.mp h
  rw [UInt64.le_iff_toNat_le, Int64.toNat_toUInt64_of_le h, Int64.toNatClampNeg]
  simp only [int64Max, UInt64.reduceToNat] at *
  omega

/-- Whether a non-negative integer fits 32 bits is the same in either form. -/
theorem toUInt64_le_uint32Max {n : Int64} (h : 0 ≤ n) :
    (n.toUInt64 ≤ uint32Max) = (n ≤ 0xffffffff) := by
  have hle := Int64.le_iff_toInt_le.mp h
  rw [UInt64.le_iff_toNat_le, Int64.toNat_toUInt64_of_le h, Int64.toNatClampNeg,
    Int64.le_iff_toInt_le]
  simp only [uint32Max, UInt64.reduceToNat, eq_iff_iff] at *
  have hbound : (0xffffffff : Int64).toInt = 0xffffffff := by decide
  rw [hbound]
  omega

section Accessors

variable (v : FieldView)

@[simp] theorem storedUnsigned_key : v.storedUnsigned.key = v.key := rfl

@[simp] theorem storedUnsigned_present : v.storedUnsigned.present = v.present := by
  simp [storedUnsigned, present]

@[simp] theorem storedUnsigned_isNull : v.storedUnsigned.isNull = v.isNull :=
  blind_of_kinds (f := isNull) (fun _ _ _ => rfl) (fun _ _ => rfl) (fun _ _ => rfl) v

@[simp] theorem storedUnsigned_isBool : v.storedUnsigned.isBool = v.isBool :=
  blind_of_kinds (f := isBool) (fun _ _ _ => rfl) (fun _ _ => rfl) (fun _ _ => rfl) v

@[simp] theorem storedUnsigned_isString : v.storedUnsigned.isString = v.isString :=
  blind_of_kinds (f := isString) (fun _ _ _ => rfl) (fun _ _ => rfl) (fun _ _ => rfl) v

@[simp] theorem storedUnsigned_isDouble : v.storedUnsigned.isDouble = v.isDouble :=
  blind_of_kinds (f := isDouble) (fun _ _ _ => rfl) (fun _ _ => rfl) (fun _ _ => rfl) v

@[simp] theorem storedUnsigned_isObject : v.storedUnsigned.isObject = v.isObject :=
  blind_of_kinds (f := isObject) (fun _ _ _ => rfl) (fun _ _ => rfl) (fun _ _ => rfl) v

@[simp] theorem storedUnsigned_isArray : v.storedUnsigned.isArray = v.isArray :=
  blind_of_kinds (f := isArray) (fun _ _ _ => rfl) (fun _ _ => rfl) (fun _ _ => rfl) v

@[simp] theorem storedUnsigned_isInt64 : v.storedUnsigned.isInt64 = v.isInt64 :=
  blind_of_kinds (f := isInt64) (fun _ _ h => decide_eq_true (toUInt64_le_int64Max h))
    (fun _ _ => rfl) (fun _ _ => rfl) v

@[simp] theorem storedUnsigned_isUint32 : v.storedUnsigned.isUint32 = v.isUint32 :=
  blind_of_kinds (f := isUint32)
    (fun _ n h => by simp [isUint32, toUInt64_le_uint32Max h, h])
    (fun _ _ => rfl) (fun _ _ => rfl) v

@[simp] theorem storedUnsigned_is (t : JsonType) : v.storedUnsigned.is t = v.is t := by
  cases t <;> simp [FieldView.is]

@[simp] theorem storedUnsigned_asInt64 : v.storedUnsigned.asInt64 = v.asInt64 :=
  blind_of_kinds (f := asInt64) (fun _ _ h => by simp [asInt64, toUInt64_le_int64Max h])
    (fun _ _ => rfl) (fun _ _ => rfl) v

@[simp] theorem storedUnsigned_asUint32 : v.storedUnsigned.asUint32 = v.asUint32 :=
  blind_of_kinds (f := asUint32)
    (fun _ n h => by simp [asUint32, toUInt64_le_uint32Max h, h])
    (fun _ _ => rfl) (fun _ _ => rfl) v

@[simp] theorem storedUnsigned_asBool : v.storedUnsigned.asBool = v.asBool :=
  blind_of_kinds (f := asBool) (fun _ _ _ => rfl) (fun _ _ => rfl) (fun _ _ => rfl) v

@[simp] theorem storedUnsigned_asString : v.storedUnsigned.asString = v.asString :=
  blind_of_kinds (f := asString) (fun _ _ _ => rfl) (fun _ _ => rfl) (fun _ _ => rfl) v

@[simp] theorem storedUnsigned_asDouble : v.storedUnsigned.asDouble = v.asDouble :=
  blind_of_kinds (f := asDouble) (fun _ _ _ => rfl) (fun _ _ => rfl) (fun _ _ => rfl) v

@[simp] theorem storedUnsigned_arraySize : v.storedUnsigned.arraySize = v.arraySize :=
  blind_of_kinds (f := arraySize) (fun _ _ _ => rfl) (fun _ _ => by simp [arraySize])
    (fun _ _ => rfl) v

@[simp] theorem storedUnsigned_objectSize : v.storedUnsigned.objectSize = v.objectSize :=
  blind_of_kinds (f := objectSize) (fun _ _ _ => rfl) (fun _ _ => rfl)
    (fun _ members => Json.length_unsignedMembers members) v

@[simp] theorem storedUnsigned_child (key : String) :
    v.storedUnsigned.child key = (v.child key).storedUnsigned := by
  obtain ⟨k, value⟩ := v
  cases value with
  | none => rfl
  | some json => simp [storedUnsigned, child, Json.member?_storedUnsigned]

@[simp] theorem storedUnsigned_element (idx : Nat) :
    v.storedUnsigned.element idx = (v.element idx).storedUnsigned := by
  obtain ⟨k, value⟩ := v
  rcases value with _ | (_ | _ | n | _ | _ | _ | items | _)
  case some.int64 =>
    simp only [storedUnsigned, Option.map_some, Json.storedUnsigned, element]
    split <;> rename_i heq <;> split at heq <;> first | cases heq | rfl
  all_goals simp [storedUnsigned, Json.storedUnsigned, element]

@[simp] theorem storedUnsigned_elements :
    v.storedUnsigned.elements = v.elements.map storedUnsigned := by
  simp [elements, Function.comp_def]

theorem storedUnsigned_putChild (key : String) (childView : FieldView) :
    (v.putChild key childView).storedUnsigned =
      v.storedUnsigned.putChild key childView.storedUnsigned := by
  obtain ⟨k, value⟩ := v
  cases value with
  | none => rfl
  | some json => simp [storedUnsigned, putChild, Json.storedUnsigned_putChild]

theorem storedUnsigned_putElement (idx : Nat) (elementView : FieldView) :
    (v.putElement idx elementView).storedUnsigned =
      v.storedUnsigned.putElement idx elementView.storedUnsigned := by
  obtain ⟨k, value⟩ := v
  cases value with
  | none => rfl
  | some json => simp [storedUnsigned, putElement, Json.storedUnsigned_putElement]

end Accessors

end FieldView

/-! ## Items -/

variable {α : Type}

/-- A blind body stays blind when it runs on present fields only. -/
theorem blind_ifPresent {body : FieldView → MaybeError} (h : Blind body) :
    Blind fun v => ifPresent v (body v) := fun v => by
  simp only [ifPresent, storedUnsigned_present, h v]

/-- What goes on after the view is read looks at it through the accessors. -/
theorem lockstep_get_bind {β : Type} {g : FieldView → EStateM Failure FieldView β}
    (hg : Blind g) (h : ∀ v, Lockstep SameNumbers (g v)) : Lockstep SameNumbers (get >>= g) :=
  .get_bind (fun _ _ hv => hg.eq hv) h

theorem lockstep_set (json : Json) : Lockstep SameNumbers (FieldView.set json) := by
  refine .get_bind ?_ ?_
  · intro v v' hv
    obtain ⟨key, value⟩ := v
    obtain ⟨key', value'⟩ := v'
    obtain rfl : key = key' := congrArg FieldView.key hv
    have hpresent := Blind.eq storedUnsigned_present hv
    rw [hpresent]
  · intro v
    split
    · exact .set (R := SameNumbers) (fun _ => rfl) _
    · exact .throw _

/-- A modifier that looks at the view through the accessors. -/
theorem lockstep_rewriteBy {newValue : FieldView → Parsed (Option Json)}
    (h : Blind newValue) : Lockstep SameNumbers (rewriteBy newValue) := by
  refine lockstep_get_bind (fun v => by rw [h v]) fun v => .bind (.monadLift _) fun value => ?_
  cases value with
  | none => exact .pure _
  | some json => exact lockstep_set json

theorem lockstep_onChild {β : Type} (key : String) {x : EStateM Failure FieldView β}
    (h : Lockstep SameNumbers x) : Lockstep SameNumbers (onChild key x) := by
  refine h.zoom ?_ ?_
  · intro v v' hv
    exact (storedUnsigned_child v key).symm.trans
      ((congrArg (child · key) hv).trans (storedUnsigned_child v' key))
  · intro v v' childView childView' hv hchild
    rw [SameNumbers, storedUnsigned_putChild, storedUnsigned_putChild, hv, hchild]

theorem lockstep_onElement {β : Type} (idx : Nat) {x : EStateM Failure FieldView β}
    (h : Lockstep SameNumbers x) : Lockstep SameNumbers (onElement idx x) := by
  refine h.zoom ?_ ?_
  · intro v v' hv
    exact (storedUnsigned_element v idx).symm.trans
      ((congrArg (element · idx) hv).trans (storedUnsigned_element v' idx))
  · intro v v' elementView elementView' hv helement
    rw [SameNumbers, storedUnsigned_putElement, storedUnsigned_putElement, hv, helement]

mutual

/-- No requirement and no modifier of the item depends on how integers are stored. -/
def Item.Blind : Item α → Prop
  | .requirement verify => FieldView.Blind verify
  | .modifier modify => Lockstep SameNumbers modify
  | .withCustomError wrapped _ _ => wrapped.Blind
  | .ifType _ subItems => ItemsBlind subItems
  | .section_ subFields => SectionBlind subFields
  | .serverConditional _ inners => ItemsBlind inners
  | _ => True

/-- Every item of the list is blind. -/
def ItemsBlind : List (Item α) → Prop
  | [] => True
  | item :: rest => item.Blind ∧ ItemsBlind rest

/-- Every item of every subfield is blind. -/
def SectionBlind : List (FieldSpec α) → Prop
  | [] => True
  | .mk _ items :: rest => ItemsBlind items ∧ SectionBlind rest

end

mutual

/-- The check of a blind item answers alike on both stored forms. -/
theorem Item.verify_blind : ∀ {item : Item α}, item.Blind → FieldView.Blind item.verify
  | .requirement verify, h => by
      rw [Item.Blind] at h
      intro v
      simpa only [Item.verify] using h v
  | .withCustomError wrapped code message, h => by
      rw [Item.Blind] at h
      intro v
      rw [Item.verify, Item.verify, Item.verify_blind h v]
  | .serverConditional active inners, h => by
      rw [Item.Blind] at h
      intro v
      rw [Item.verify, Item.verify, verifyAll_blind h v]
  | .modifier _, _ => fun v => by simp only [Item.verify]
  | .deprecated, _ => fun v => by simp only [Item.verify]
  | .guard _, _ => fun v => by simp only [Item.verify]
  | .defaultTo _, _ => fun v => by simp only [Item.verify]
  | .ifType _ _, _ => fun v => by simp only [Item.verify]
  | .section_ _, _ => fun v => by simp only [Item.verify]

theorem verifyAll_blind : ∀ {items : List (Item α)}, ItemsBlind items →
    FieldView.Blind (verifyAll items)
  | [], _ => fun v => by simp only [verifyAll]
  | item :: rest, h => by
      rw [ItemsBlind] at h
      intro v
      rw [verifyAll, verifyAll, Item.verify_blind h.1 v, verifyAll_blind h.2 v]

end

theorem lockstep_requirement {verify : FieldView → MaybeError} (h : FieldView.Blind verify) :
    Lockstep SameNumbers (do
      let fieldView ← get
      monadLift (verify fieldView) : EStateM Failure FieldView Unit) :=
  lockstep_get_bind (fun v => by rw [h v]) fun _ => .monadLift _

mutual

/-- The modifier of a blind item moves both stored forms together. -/
theorem Item.modify_lockstep : ∀ {item : Item α}, item.Blind → Lockstep SameNumbers item.modify
  | .modifier modify, h => by
      rw [Item.Blind] at h
      rwa [Item.modify]
  | .withCustomError wrapped code message, h => by
      rw [Item.Blind] at h
      rw [Item.modify]
      exact (Item.modify_lockstep h).mapFailure
  | .ifType t subItems, h => by
      rw [Item.Blind] at h
      rw [Item.modify]
      refine lockstep_get_bind (fun v => by simp only [storedUnsigned_present, storedUnsigned_is])
        fun v => ?_
      · split
        · exact .pure _
        · exact runProcessors_lockstep h
  | .section_ subFields, h => by
      rw [Item.Blind] at h
      rw [Item.modify]
      refine lockstep_get_bind
        (fun v => by simp only [storedUnsigned_present, storedUnsigned_isObject]) fun v => ?_
      · split
        · exact .pure _
        split
        · exact .throw _
        · exact processNested_lockstep h
  | .serverConditional active inners, h => by
      rw [Item.Blind] at h
      rw [Item.modify]
      split
      · exact modifyAll_lockstep h
      · exact .pure _
  | .requirement _, _ => by simpa only [Item.modify] using .pure ()
  | .deprecated, _ => by simpa only [Item.modify] using .pure ()
  | .guard _, _ => by simpa only [Item.modify] using .pure ()
  | .defaultTo _, _ => by simpa only [Item.modify] using .pure ()

theorem modifyAll_lockstep : ∀ {items : List (Item α)}, ItemsBlind items →
    Lockstep SameNumbers (modifyAll items)
  | [], _ => by rw [modifyAll]; exact .pure ()
  | item :: rest, h => by
      rw [ItemsBlind] at h
      rw [modifyAll_cons]
      refine .bind ?_ fun _ => modifyAll_lockstep h.2
      split
      · exact Item.modify_lockstep h.1
      · exact .pure ()

/-- Blind items process both stored forms together. -/
theorem runProcessors_lockstep : ∀ {items : List (Item α)}, ItemsBlind items →
    Lockstep SameNumbers (runProcessors items)
  | [], _ => by rw [runProcessors]; exact .pure ()
  | item :: rest, h => by
      rw [ItemsBlind] at h
      rw [runProcessors_cons]
      refine .bind ?_ fun _ => runProcessors_lockstep h.2
      unfold callIfProcessor
      split
      · exact lockstep_requirement (Item.verify_blind h.1)
      split
      · exact Item.modify_lockstep h.1
      · exact .pure ()

theorem processNested_lockstep : ∀ {subFields : List (FieldSpec α)}, SectionBlind subFields →
    Lockstep SameNumbers (processNested subFields)
  | [], _ => by rw [processNested]; exact .pure ()
  | .mk key items :: rest, h => by
      rw [SectionBlind] at h
      rw [processNested]
      refine .bind ?_ fun _ => processNested_lockstep h.2
      exact lockstep_onChild key (runProcessors_lockstep h.1)

end

/-! ## Fields and specs -/

namespace Converter

/-- The converter returns the same for both stored forms. -/
def Blind (conv : Converter α) : Prop := FieldView.Blind conv.parse

end Converter

variable {Input : Type}

/-- Nothing of the field depends on how integers are stored. -/
def Field.Blind : Field Input → Prop
  | .bound field => ItemsBlind field.items ∧ field.conv.Blind
  | .aliased _ field => ItemsBlind field.items ∧ field.conv.Blind
  | .ledgerSelector _ => True
  | .unbound field => ItemsBlind field.items

theorem rootChild_storedUnsigned (root : Json) (key : String) :
    rootChild root.storedUnsigned key = (rootChild root key).storedUnsigned := by
  rw [rootChild, Json.member?_storedUnsigned]
  rfl

section

variable {root root' : Json}

/-- Documents with the same numbers have members with the same numbers. -/
theorem Json.SameNumbers.rootChild (h : root.SameNumbers root') (key : String) :
    FieldView.SameNumbers (rootChild root key) (Dsl.rootChild root' key) := by
  rw [FieldView.SameNumbers, ← rootChild_storedUnsigned, ← rootChild_storedUnsigned, h]

theorem Json.SameNumbers.samePresence (h : root.SameNumbers root') : SamePresence root root' :=
  fun key => (Blind.eq storedUnsigned_present (h.rootChild key)).symm

end

namespace BoundField

variable {field : BoundField Input} {root root' : Json}

theorem onView_blind (hitems : ItemsBlind field.items) (hconv : field.conv.Blind)
    {v v' : FieldView} (hv : SameNumbers v v') : field.onView v = field.onView v' := by
  obtain ⟨hanswer, hstate⟩ := runProcessors_lockstep hitems v v' hv
  unfold endState at hstate
  unfold onView
  cases hrun : runProcessors field.items v <;> cases hrun' : runProcessors field.items v' <;>
    rw [hrun, hrun'] at hanswer hstate
  case ok.ok =>
    dsimp only
    rw [Blind.eq storedUnsigned_present hstate, Blind.eq hconv hstate]
  case error.error =>
    cases hanswer
    rfl
  all_goals cases hanswer

end BoundField

/-- The outcomes differ at most in how integers of the value are stored. -/
structure Outcome.SameNumbers (outcome outcome' : Outcome Input) : Prop where
  target : outcome.target = outcome'.target
  value : outcome.value.map Json.storedUnsigned = outcome'.value.map Json.storedUnsigned
  result : outcome.result = outcome'.result

section Fields

variable {root root' : Json}

/-- The values left under a key by items. -/
theorem value_sameNumbers {items : List (Item α)} (h : ItemsBlind items)
    (hroot : root.SameNumbers root') (key : String) :
    (endState (runProcessors items) (rootChild root key)).value.map Json.storedUnsigned =
      (endState (runProcessors items) (rootChild root' key)).value.map Json.storedUnsigned :=
  congrArg FieldView.value (runProcessors_lockstep h _ _ (hroot.rootChild key)).2

theorem member?_sameNumbers (hroot : root.SameNumbers root') (key : String) :
    (root.member? key).map Json.storedUnsigned = (root'.member? key).map Json.storedUnsigned :=
  congrArg FieldView.value (hroot.rootChild key)

theorem outcomeAt_sameNumbers {field : BoundField Input} (hitems : ItemsBlind field.items)
    (hconv : field.conv.Blind) (hroot : root.SameNumbers root') (key : String) :
    (field.outcomeAt key root).SameNumbers (field.outcomeAt key root') := by
  have hskips := skipsField_congr (hroot.samePresence.guarded field.items)
  unfold BoundField.outcomeAt
  rw [hskips]
  cases skipsField field.items root with
  | true => exact ⟨rfl, member?_sameNumbers hroot key, rfl⟩
  | false =>
      exact ⟨rfl, value_sameNumbers hitems hroot key,
        BoundField.onView_blind hitems hconv (hroot.rootChild key)⟩

variable [Build] [LibXrpl]

theorem selectLedger_sameNumbers (hroot : root.SameNumbers root') :
    selectLedger root = selectLedger root' := by
  have hblind (root : Json) : selectLedger root.storedUnsigned = selectLedger root := by
    simp [selectLedger, xrpldLedgerFromRequest, rootChild_storedUnsigned, xrpldLedgerFromHash,
      xrpldLedgerFromIndex, ledgerSpecifierFromHash, ledgerSpecifierFromIndex, isStringOrInteger]
  rw [← hblind root, hroot, hblind root']

/-- A blind field has the same outcome on documents with the same numbers. -/
theorem Field.outcome_sameNumbers {field : Field Input} (h : field.Blind)
    (hroot : root.SameNumbers root') :
    (field.outcome root).SameNumbers (field.outcome root') := by
  cases field with
  | bound field => exact outcomeAt_sameNumbers h.1 h.2 hroot field.key
  | aliased alternateKey field =>
      simp only [outcome, outcomeAliased, present_congr hroot.samePresence]
      split
      · split
        · exact ⟨rfl, member?_sameNumbers hroot alternateKey, rfl⟩
        · exact outcomeAt_sameNumbers h.1 h.2 hroot alternateKey
      · exact outcomeAt_sameNumbers h.1 h.2 hroot field.key
  | ledgerSelector member =>
      refine ⟨rfl, member?_sameNumbers hroot _, ?_⟩
      simp only [outcome, outcomeSelector, selectLedger_sameNumbers hroot]
  | unbound field =>
      refine ⟨rfl, value_sameNumbers h hroot field.key, ?_⟩
      obtain ⟨hanswer, -⟩ := runProcessors_lockstep h _ _ (hroot.rootChild field.key)
      simp only [outcome, outcomeUnbound]
      generalize runProcessors field.items (rootChild root field.key) = result,
        runProcessors field.items (rootChild root' field.key) = result' at hanswer
      cases result <;> cases result' <;> cases hanswer <;> rfl

/-- A blind field parses documents with the same numbers alike. -/
theorem Field.parseOne_lockstep {field : Field Input} (h : field.Blind) (out : Input) :
    Lockstep Json.SameNumbers (field.parseOne out) := by
  intro root root' hroot
  obtain ⟨htarget, hvalue, hresult⟩ := field.outcome_sameNumbers h hroot
  have hput : Json.SameNumbers
      (root.putChild (field.outcome root).value (field.outcome root).target)
      (root'.putChild (field.outcome root').value (field.outcome root').target) := by
    rw [Json.SameNumbers, Json.storedUnsigned_putChild, Json.storedUnsigned_putChild, hroot,
      hvalue, htarget]
  simp only [endState, field.parseOne_eq, Outcome.run, hresult]
  cases (field.outcome root').result <;> exact ⟨rfl, hput⟩

end Fields

namespace TypedSpec

variable [InputAggregate Input] [Build] [LibXrpl] {spec : TypedSpec Input} {root root' : Json}

/-- A spec none of whose fields depends on how integers are stored. -/
def Blind (spec : TypedSpec Input) : Prop := ∀ f ∈ spec.fields, f.Blind

/-- A blind spec parses documents with the same numbers alike. -/
theorem parse_lockstep (h : spec.Blind) : Lockstep Json.SameNumbers spec.parse := by
  unfold parse
  exact .foldlM (fun out f hf =>
    f.parseOne_lockstep (h f (mem_of_mem_effectiveFields hf)) out) _

/-- Requests that differ in storage only are answered alike. -/
theorem parse_check_sameNumbers (h : spec.Blind) (hroot : root.SameNumbers root') :
    answer (spec.parse root) = answer (spec.parse root') ∧ spec.check root = spec.check root' :=
  ⟨(parse_lockstep h root root' hroot).1, (check_congr hroot.samePresence).symm⟩

end TypedSpec

end RpcSpec.Dsl
