import RpcSpec.Dsl.Errors
set_option autoImplicit false

/-!
# JSON documents and field views (`rpcspec/backends/BoostJson.hpp`)

A request is a `boost::json::value`.  The view of a field holds the key it was
looked up by and the value found there; the source's pointer into the document
becomes a copy that `zoom` writes back.

An accessor outside its contract is a fault.  `asInt64` and `asUint32` would in
some of these cases cast silently instead of throwing; the contract is the one
`SomeFieldView` documents.  A `double` is kept as its 64-bit pattern.

The lemmas say what each accessor returns within its contract, and what of a view is left
as it was when a member or an element is written back.
-/

namespace RpcSpec.Dsl

open RpcSpec.Foundation

/-- The bytes of a string.  They may hold NULs. -/
abbrev Bytes := List UInt8

/-- The bytes of a text constant of the source, which are all ASCII. -/
def bytesOf (text : String) : Bytes := text.toList.map fun c => UInt8.ofNat c.toNat

/-- `boost::json::value`. -/
inductive Json where
  | null
  | bool (b : Bool)
  | int64 (n : Int64)
  | uint64 (n : UInt64)
  | double (bits : UInt64)
  | string (text : Bytes)
  | array (items : List Json)
  | object (members : List (String × Json))
  deriving Inhabited

/-- The types a spec may name: the argument of `type<…>` and of `ifType<…>`. -/
inductive JsonType where
  | int64
  | uint32
  | bool
  | double
  | string
  | object
  | array
  deriving DecidableEq, Repr

/-! ## Members of an object -/

/-- Replace the value under a key, in place. -/
def putMember (key : String) (value : Json) : List (String × Json) → List (String × Json)
  | [] => []
  | (k, old) :: rest =>
      if k = key then (k, value) :: rest else (k, old) :: putMember key value rest

/-- Where the key is there, the value put under it is found. -/
theorem lookup_putMember_same {key : String} {value old : Json}
    {members : List (String × Json)} (h : members.lookup key = some old) :
    (putMember key value members).lookup key = some value := by
  induction members with
  | nil => simp at h
  | cons entry rest ih =>
      obtain ⟨k, v⟩ := entry
      by_cases hk : k = key
      · simp [putMember, hk]
      · have hne : (key == k) = false := by simpa using Ne.symm hk
        simp only [List.lookup_cons, hne] at h
        simp [putMember, hk, List.lookup_cons, hne, ih h]

/-- Any other key finds what it found. -/
theorem lookup_putMember_ne {key key' : String} (hne : key' ≠ key) (value : Json)
    (members : List (String × Json)) :
    (putMember key value members).lookup key' = members.lookup key' := by
  induction members with
  | nil => rfl
  | cons entry rest ih =>
      obtain ⟨k, v⟩ := entry
      by_cases hk : k = key
      · have hkey : (key' == key) = false := by simpa using hne
        simp [putMember, hk, List.lookup_cons, hkey]
      · simp [putMember, hk, List.lookup_cons, ih]

/-- To put back what was found changes nothing. -/
theorem putMember_lookup {key : String} {value : Json} {members : List (String × Json)}
    (h : members.lookup key = some value) : putMember key value members = members := by
  induction members with
  | nil => rfl
  | cons entry rest ih =>
      obtain ⟨k, v⟩ := entry
      by_cases hk : k = key
      · simp only [List.lookup_cons, hk, BEq.rfl, Option.some.injEq] at h
        simp [putMember, hk, h]
      · have hne : (key == k) = false := by simpa using Ne.symm hk
        simp only [List.lookup_cons, hne] at h
        simp [putMember, hk, ih h]

/-- Where the key is not there nothing is written. -/
theorem putMember_of_lookup_eq_none {key : String} {value : Json}
    {members : List (String × Json)} (h : members.lookup key = none) :
    putMember key value members = members := by
  induction members with
  | nil => rfl
  | cons entry rest ih =>
      obtain ⟨k, v⟩ := entry
      by_cases hk : k = key
      · simp [hk] at h
      · have hne : (key == k) = false := by simpa using Ne.symm hk
        simp only [List.lookup_cons, hne] at h
        simp [putMember, hk, ih h]

namespace Json

/-- What `set(uint32_t)` stores. -/
def ofUint32 (value : UInt32) : Json := .uint64 value.toUInt64

/-- `find(key)` in an object; nothing is found in any other value. -/
def member? (key : String) : Json → Option Json
  | .object members => members.lookup key
  | _ => none

/-- Write a value found under a key back. -/
def putChild (value : Option Json) (key : String) : Json → Json
  | .object members =>
      match value with
      | some v => .object (putMember key v members)
      | none => .object members
  | other => other

/-- Write an element back. -/
def putElement (value : Option Json) (idx : Nat) : Json → Json
  | .array items =>
      match value with
      | some v => .array (items.set idx v)
      | none => .array items
  | other => other

/-- A child is written under its own key only. -/
theorem member?_putChild_ne {key key' : String} (hne : key' ≠ key) (value : Option Json)
    (json : Json) : (json.putChild value key).member? key' = json.member? key' := by
  cases json with
  | object members =>
      cases value with
      | none => rfl
      | some v => exact lookup_putMember_ne hne v members
  | _ => rfl

/-- And there it is found again, unless it was not there before. -/
theorem member?_putChild_same {key : String} {value : Option Json} {json : Json}
    (h : value.isSome = (json.member? key).isSome) :
    (json.putChild value key).member? key = value := by
  cases json with
  | object members =>
      cases value with
      | none => simpa [putChild] using h.symm
      | some v =>
          obtain ⟨old, hold⟩ := Option.isSome_iff_exists.mp h.symm
          exact lookup_putMember_same hold
  | _ => cases value <;> simp_all [member?, putChild]

/-- Where there is a value it is replaced, if there is a new one. -/
theorem member?_putChild_self (key : String) (value : Option Json) (json : Json) :
    (json.putChild value key).member? key = (json.member? key).map fun old => value.getD old := by
  cases json with
  | object members =>
      cases hlookup : members.lookup key with
      | none =>
          cases value with
          | none => simp [putChild, member?, hlookup]
          | some v => simp [putChild, member?, putMember_of_lookup_eq_none hlookup, hlookup]
      | some old =>
          cases value with
          | none => simp [putChild, member?, hlookup]
          | some v => simp [putChild, member?, lookup_putMember_same hlookup, hlookup]
  | _ => rfl

/-- Writing back what was found changes nothing. -/
theorem putChild_member? (json : Json) (key : String) :
    json.putChild (json.member? key) key = json := by
  cases json with
  | object members =>
      cases h : members.lookup key with
      | none => simp [putChild, member?, h]
      | some value => simp [putChild, member?, h, putMember_lookup h]
  | _ => rfl

end Json

/-! ## Field views -/

/-- `BoostJsonFieldView`: the key and the value found under it, if any. -/
structure FieldView where
  key : String
  value : Option Json

namespace FieldView

/-- A view of nothing is a view too. -/
def present (fieldView : FieldView) : Bool := fieldView.value.isSome

/-- There, and `null`. -/
def isNull (fieldView : FieldView) : Bool :=
  match fieldView.value with
  | some .null => true
  | _ => false

/-- The largest `int64_t`. -/
def int64Max : UInt64 := 0x7fffffffffffffff

/-- The largest `uint32_t`. -/
def uint32Max : UInt64 := 0xffffffff

/-- An integer in the range of `int64_t`, whichever way it is stored. -/
def isInt64 (fieldView : FieldView) : Bool :=
  match fieldView.value with
  | some (.int64 _) => true
  | some (.uint64 n) => n ≤ int64Max
  | _ => false

/-- An integer in the range of `uint32_t`, whichever way it is stored. -/
def isUint32 (fieldView : FieldView) : Bool :=
  match fieldView.value with
  | some (.uint64 n) => n ≤ uint32Max
  | some (.int64 n) => 0 ≤ n && n ≤ 0xffffffff
  | _ => false

/-- `isBool`. -/
def isBool (fieldView : FieldView) : Bool :=
  match fieldView.value with
  | some (.bool _) => true
  | _ => false

/-- `isString`. -/
def isString (fieldView : FieldView) : Bool :=
  match fieldView.value with
  | some (.string _) => true
  | _ => false

/-- `isDouble`. -/
def isDouble (fieldView : FieldView) : Bool :=
  match fieldView.value with
  | some (.double _) => true
  | _ => false

/-- There, and an object. -/
def isObject (fieldView : FieldView) : Bool :=
  match fieldView.value with
  | some (.object _) => true
  | _ => false

/-- There, and an array. -/
def isArray (fieldView : FieldView) : Bool :=
  match fieldView.value with
  | some (.array _) => true
  | _ => false

/-- `is<T>()`. -/
def is (fieldView : FieldView) : JsonType → Bool
  | .int64 => fieldView.isInt64
  | .uint32 => fieldView.isUint32
  | .bool => fieldView.isBool
  | .double => fieldView.isDouble
  | .string => fieldView.isString
  | .object => fieldView.isObject
  | .array => fieldView.isArray

/-! ### Reading -/

/-- To be called when `isInt64` says so. -/
def asInt64 (fieldView : FieldView) : Parsed Int64 :=
  match fieldView.value with
  | some (.int64 n) => pure n
  | some (.uint64 n) =>
      if n ≤ int64Max then pure n.toInt64 else throw (.fault (.accessor .asInt64))
  | _ => throw (.fault (.accessor .asInt64))

/-- To be called when `isUint32` says so. -/
def asUint32 (fieldView : FieldView) : Parsed UInt32 :=
  match fieldView.value with
  | some (.uint64 n) =>
      if n ≤ uint32Max then pure n.toUInt32 else throw (.fault (.accessor .asUint32))
  | some (.int64 n) =>
      if 0 ≤ n && n ≤ 0xffffffff then pure n.toUInt64.toUInt32
      else throw (.fault (.accessor .asUint32))
  | _ => throw (.fault (.accessor .asUint32))

/-- To be called when `isBool` says so. -/
def asBool (fieldView : FieldView) : Parsed Bool :=
  match fieldView.value with
  | some (.bool b) => pure b
  | _ => throw (.fault (.accessor .asBool))

/-- To be called when `isString` says so. -/
def asString (fieldView : FieldView) : Parsed Bytes :=
  match fieldView.value with
  | some (.string text) => pure text
  | _ => throw (.fault (.accessor .asString))

/-- To be called when `isDouble` says so. -/
def asDouble (fieldView : FieldView) : Parsed UInt64 :=
  match fieldView.value with
  | some (.double bits) => pure bits
  | _ => throw (.fault (.accessor .asDouble))

/-- What is no array has no elements. -/
def arraySize (fieldView : FieldView) : Nat :=
  match fieldView.value with
  | some (.array items) => items.length
  | _ => 0

/-- What is no object has no members. -/
def objectSize (fieldView : FieldView) : Nat :=
  match fieldView.value with
  | some (.object members) => members.length
  | _ => 0

/-- The member of that name, or a view of nothing. -/
def child (fieldView : FieldView) (childKey : String) : FieldView where
  key := childKey
  value := fieldView.value.bind (·.member? childKey)

/-- The element at an index, under the key of the array. -/
def element (fieldView : FieldView) (idx : Nat) : FieldView where
  key := fieldView.key
  value :=
    match fieldView.value with
    | some (.array items) => items[idx]?
    | _ => none

/-- What a loop over `element(0)`, …, `element(arraySize() - 1)` visits. -/
def elements (fieldView : FieldView) : List FieldView :=
  (List.range fieldView.arraySize).map fieldView.element

@[simp] theorem child_key (v : FieldView) (key : String) : (v.child key).key = key := rfl

@[simp] theorem element_key (v : FieldView) (idx : Nat) : (v.element idx).key = v.key := rfl

/-- A value of some type is a value. -/
theorem present_of_is {v : FieldView} {t : JsonType} (h : v.is t = true) : v.present = true := by
  obtain ⟨key, value⟩ := v
  cases value with
  | none => cases t <;> cases h
  | some json => rfl

/-! ### The accessors inside their contracts -/

/-- A string is read of a string, and it is that string. -/
theorem asString_eq_ok_iff {v : FieldView} {text : Bytes} :
    v.asString = .ok text ↔ v.value = some (.string text) := by
  unfold asString
  split <;> simp_all [Pure.pure, Except.pure, throw, throwThe, MonadExceptOf.throw]

/-- Within its contract the accessor reads the string. -/
theorem asString_safe {v : FieldView} (h : v.isString = true) :
    Safe v.asString fun text => v.value = some (.string text) := by
  unfold isString at h
  split at h
  · rename_i text hv
    simp [asString, hv]
  · cases h

theorem asBool_safe {v : FieldView} (h : v.isBool = true) :
    Safe v.asBool fun b => v.value = some (.bool b) := by
  unfold isBool at h
  split at h
  · rename_i b hv
    simp [asBool, hv]
  · cases h

theorem asDouble_safe {v : FieldView} (h : v.isDouble = true) :
    Safe v.asDouble fun bits => v.value = some (.double bits) := by
  unfold isDouble at h
  split at h
  · rename_i bits hv
    simp [asDouble, hv]
  · cases h

/-- Either storage is read where the number fits. -/
theorem asInt64_safe {v : FieldView} (h : v.isInt64 = true) :
    Safe v.asInt64 fun _ => True := by
  unfold isInt64 at h
  split at h
  · rename_i n hv
    simp [asInt64, hv]
  · rename_i n hv
    simp [asInt64, hv, of_decide_eq_true h]
  · cases h

/-- Either storage is read where the number fits. -/
theorem asUint32_safe {v : FieldView} (h : v.isUint32 = true) :
    Safe v.asUint32 fun _ => True := by
  unfold isUint32 at h
  split at h
  · rename_i n hv
    simp [asUint32, hv, of_decide_eq_true h]
  · rename_i n hv
    simp [asUint32, hv, h]
  · cases h

/-! ### Writing -/

/-- `*writeValue_ = value`. -/
def set (value : Json) : EStateM Failure FieldView Unit := do
  let fieldView ← get
  if fieldView.present then
    EStateM.set { fieldView with value := some value }
  else
    throw (.fault (.accessor .set))

/-- A modifier of the value itself: it looks at the view and may `set` a new value
at its end. -/
def rewriteBy (newValue : FieldView → Parsed (Option Json)) :
    EStateM Failure FieldView Unit := do
  let fieldView ← get
  match ← (newValue fieldView : Parsed _) with
  | some value => set value
  | none => pure ()

/-- Write back the value found under a key of this one. -/
def putChild (fieldView : FieldView) (childKey : String) (childView : FieldView) : FieldView :=
  { fieldView with value := fieldView.value.map (·.putChild childView.value childKey) }

/-- Write the view of an element back into the array. -/
def putElement (fieldView : FieldView) (idx : Nat) (elementView : FieldView) : FieldView :=
  { fieldView with value := fieldView.value.map (·.putElement elementView.value idx) }

/-- Work on `child(childKey)` in place. -/
def onChild {α : Type} (childKey : String) (x : EStateM Failure FieldView α) :
    EStateM Failure FieldView α :=
  zoom (·.child childKey) (·.putChild childKey ·) x

/-- Work on `element(idx)` in place. -/
def onElement {α : Type} (idx : Nat) (x : EStateM Failure FieldView α) :
    EStateM Failure FieldView α :=
  zoom (·.element idx) (·.putElement idx ·) x

/-- The same field of the document: neither its key nor its presence differs. -/
def SameField (v v' : FieldView) : Prop := v'.key = v.key ∧ v'.present = v.present

theorem SameField.refl (v : FieldView) : SameField v v := ⟨rfl, rfl⟩

/-- The same key, and the same answer to `present`. -/
theorem SameField.trans {v v' v'' : FieldView} (h : SameField v v') (h' : SameField v' v'') :
    SameField v v'' := ⟨h'.1.trans h.1, h'.2.trans h.2⟩

/-- A child that is written back takes nothing away. -/
theorem sameField_putChild (v : FieldView) (key : String) (childView : FieldView) :
    SameField v (v.putChild key childView) := ⟨rfl, by simp [putChild, present]⟩

/-- A modifier that rewrites the value of a present field only. -/
theorem rewriteBy_safe {newValue : FieldView → Parsed (Option Json)} {v : FieldView}
    {Q : FieldView → Prop}
    (h : Safe (newValue v) fun value =>
      match value with
      | some json => v.present = true ∧ Q { v with value := some json }
      | none => Q v) :
    SafeRun (rewriteBy newValue) v fun _ v' => SameField v v' ∧ Q v' := by
  refine SafeRun.bind (Q := fun a s' => a = v ∧ s' = v) ⟨rfl, rfl⟩ ?_
  rintro _ _ ⟨rfl, rfl⟩
  refine SafeRun.bind (SafeRun.lift h) ?_
  rintro value _ ⟨hvalue, rfl⟩
  cases value with
  | none => exact ⟨.refl _, hvalue⟩
  | some json =>
      obtain ⟨hpresent, hQ⟩ := hvalue
      refine SafeRun.bind (Q := fun a s' => a = _ ∧ s' = _) ⟨rfl, rfl⟩ ?_
      rintro _ _ ⟨rfl, rfl⟩
      rw [if_pos hpresent]
      exact ⟨⟨rfl, hpresent.symm⟩, hQ⟩

/-- An object stays one. -/
theorem isObject_putChild (v : FieldView) (key : String) (childView : FieldView) :
    (v.putChild key childView).isObject = v.isObject := by
  obtain ⟨k, value⟩ := v
  rcases value with _ | (_ | _ | _ | _ | _ | _ | _ | _) <;> try rfl
  cases hc : childView.value <;> simp [putChild, isObject, Json.putChild, hc]

/-- The other children are where they were. -/
theorem child_putChild_ne {key key' : String} (hne : key' ≠ key) (v childView : FieldView) :
    (v.putChild key childView).child key' = v.child key' := by
  obtain ⟨k, value⟩ := v
  cases value with
  | none => rfl
  | some json => simp [putChild, child, Json.member?_putChild_ne hne]

/-- What was written back is found again.  A view is present after work on it
just when it was before. -/
theorem child_putChild_same {key : String} {v childView : FieldView}
    (hkey : childView.key = key) (h : childView.present = (v.child key).present) :
    (v.putChild key childView).child key = childView := by
  obtain ⟨k, value⟩ := v
  obtain ⟨k', value'⟩ := childView
  subst hkey
  cases value with
  | none =>
      cases value' with
      | none => rfl
      | some json => simp [present, child] at h
  | some json =>
      simp only [putChild, child, Option.map_some, Option.bind_some]
      rw [Json.member?_putChild_same (by simpa [present, child] using h)]

/-- To write a child back unchanged changes nothing. -/
theorem putChild_child (v : FieldView) (key : String) : v.putChild key (v.child key) = v := by
  obtain ⟨k, value⟩ := v
  cases value with
  | none => rfl
  | some json => simp [putChild, child, Json.putChild_member?]

/-! ### Elements of an array -/

/-- Nor does an element take anything away. -/
theorem sameField_putElement (v : FieldView) (idx : Nat) (elementView : FieldView) :
    SameField v (v.putElement idx elementView) := ⟨rfl, by simp [putElement, present]⟩

theorem putElement_element (v : FieldView) (idx : Nat) : v.putElement idx (v.element idx) = v := by
  obtain ⟨k, value⟩ := v
  rcases value with _ | (_ | _ | _ | _ | _ | _ | items | _) <;> try rfl
  simp only [putElement, element, Option.map_some, Json.putElement]
  split
  · rename_i json hget
    obtain ⟨hidx, rfl⟩ := List.getElem?_eq_some_iff.mp hget
    rw [List.set_getElem_self]
  · rfl

/-- An array stays one. -/
theorem isArray_putElement (v : FieldView) (idx : Nat) (elementView : FieldView) :
    (v.putElement idx elementView).isArray = v.isArray := by
  obtain ⟨k, value⟩ := v
  rcases value with _ | (_ | _ | _ | _ | _ | _ | _ | _) <;> try rfl
  cases hc : elementView.value <;> simp [putElement, isArray, Json.putElement, hc]

/-- And keeps its length. -/
theorem arraySize_putElement (v : FieldView) (idx : Nat) (elementView : FieldView) :
    (v.putElement idx elementView).arraySize = v.arraySize := by
  obtain ⟨k, value⟩ := v
  rcases value with _ | (_ | _ | _ | _ | _ | _ | _ | _) <;> try rfl
  cases hc : elementView.value <;> simp [putElement, arraySize, Json.putElement, hc]

/-- The other elements are where they were. -/
theorem element_putElement_ne {idx idx' : Nat} (hne : idx' ≠ idx) (v elementView : FieldView) :
    (v.putElement idx elementView).element idx' = v.element idx' := by
  obtain ⟨k, value⟩ := v
  rcases value with _ | (_ | _ | _ | _ | _ | _ | _ | _) <;> try rfl
  cases hc : elementView.value <;>
    simp [putElement, element, Json.putElement, hc, List.getElem?_set_ne hne.symm]

/-- What was written back to an element of the array is found again. -/
theorem element_putElement_same {idx : Nat} {v elementView : FieldView}
    (hkey : elementView.key = v.key) (hidx : idx < v.arraySize)
    (h : elementView.present = true) :
    (v.putElement idx elementView).element idx = elementView := by
  obtain ⟨k, value⟩ := v
  obtain ⟨k', value'⟩ := elementView
  obtain ⟨json, rfl⟩ := Option.isSome_iff_exists.mp h
  obtain rfl : k' = k := hkey
  rcases value with _ | (_ | _ | _ | _ | _ | _ | items | _) <;> try cases hidx
  all_goals simp_all [putElement, element, Json.putElement, arraySize]

/-- Below the length of the array there is an element. -/
theorem present_element {idx : Nat} {v : FieldView} (hidx : idx < v.arraySize) :
    (v.element idx).present = true := by
  obtain ⟨k, value⟩ := v
  rcases value with _ | (_ | _ | _ | _ | _ | _ | items | _) <;>
    simp_all [arraySize, element, present]

/-- All elements stand under the key of the array. -/
theorem elements_array (key : String) (items : List Json) :
    elements ⟨key, some (.array items)⟩ = items.map fun json => ⟨key, some json⟩ := by
  apply List.ext_getElem (by simp [elements, arraySize])
  intro idx hidx hidx'
  have hlt : idx < items.length := by simpa using hidx'
  simp [elements, element, hlt]

/-- The elements are those the indices find. -/
theorem mem_elements {v elem : FieldView} :
    elem ∈ v.elements ↔ ∃ idx < v.arraySize, v.element idx = elem := by
  simp [elements]

end FieldView

end RpcSpec.Dsl
