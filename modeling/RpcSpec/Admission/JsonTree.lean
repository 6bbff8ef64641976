import RpcSpec.Admission.JsonVisitor
import Mathlib.Algebra.BigOperators.Group.List.Basic
import Mathlib.Algebra.Group.Int.Defs
set_option autoImplicit false

/-!
# JSON documents and the callbacks of a parser

A tree over any type of texts and numbers.  Over bytes and numbers it is a JSON
value; over texts and numbers that come in pieces it is a value as a parser hands
it over, and `callbacks` is the order in which it does.

The last section counts the containers that are open after a number of callbacks.
-/

namespace RpcSpec.Admission

mutual

/-- A JSON value. -/
inductive JsonTree (Text Number : Type) where
  | null
  | bool (b : Bool)
  | number (n : Number)
  | string (s : Text)
  | array (elements : JsonElements Text Number)
  | object (members : JsonMembers Text Number)

/-- The elements of an array. -/
inductive JsonElements (Text Number : Type) where
  | nil
  | cons (value : JsonTree Text Number) (rest : JsonElements Text Number)

/-- The members of an object, in the order of the document. -/
inductive JsonMembers (Text Number : Type) where
  | nil
  | cons (key : Text) (value : JsonTree Text Number) (rest : JsonMembers Text Number)

end

/-- A number as the parser reads it. -/
inductive JsonNumber where
  | int64 (i : Int64)
  | uint64 (u : UInt64)
  /-- the bit pattern of a `double` -/
  | double (bits : UInt64)
  deriving DecidableEq

/-- A JSON value as such. -/
abbrev JsonValue := JsonTree Bytes JsonNumber

/-- A text in pieces, the last of which may be empty. -/
structure Pieces where
  parts : List Bytes
  last : Bytes

/-- The whole text. -/
def Pieces.text (pieces : Pieces) : Bytes := pieces.parts.flatten ++ pieces.last

/-- A number whose source text comes in pieces. -/
structure SplitNumber where
  source : Pieces
  value : JsonNumber

/-- A JSON value in pieces. -/
abbrev SplitJson := JsonTree Pieces SplitNumber

variable {Text Number : Type}

/-- How many elements there are. -/
def JsonElements.length : JsonElements Text Number → Nat
  | .nil => 0
  | .cons _ rest => rest.length + 1

/-- How many members there are. -/
def JsonMembers.length : JsonMembers Text Number → Nat
  | .nil => 0
  | .cons _ _ rest => rest.length + 1

mutual

/-- How deep containers are nested. -/
def JsonTree.nesting : JsonTree Text Number → Nat
  | .null | .bool _ | .number _ | .string _ => 0
  | .array elements => elements.nesting + 1
  | .object members => members.nesting + 1

/-- The deepest nesting among the elements. -/
def JsonElements.nesting : JsonElements Text Number → Nat
  | .nil => 0
  | .cons value rest => max value.nesting rest.nesting

def JsonMembers.nesting : JsonMembers Text Number → Nat
  | .nil => 0
  | .cons _ value rest => max value.nesting rest.nesting

end

mutual

/-- The value that was split. -/
def JsonTree.value : SplitJson → JsonValue
  | .null => .null
  | .bool b => .bool b
  | .number n => .number n.value
  | .string s => .string s.text
  | .array elements => .array elements.value
  | .object members => .object members.value

/-- The elements with their pieces put together. -/
def JsonElements.value : JsonElements Pieces SplitNumber → JsonElements Bytes JsonNumber
  | .nil => .nil
  | .cons value rest => .cons value.value rest.value

def JsonMembers.value : JsonMembers Pieces SplitNumber → JsonMembers Bytes JsonNumber
  | .nil => .nil
  | .cons key value rest => .cons key.text value.value rest.value

end

theorem JsonElements.length_value (elements : JsonElements Pieces SplitNumber) :
    elements.value.length = elements.length := by
  cases elements with
  | nil => rfl
  | cons value rest =>
      rw [JsonElements.value, length, length, JsonElements.length_value rest]

theorem JsonMembers.length_value (members : JsonMembers Pieces SplitNumber) :
    members.value.length = members.length := by
  cases members with
  | nil => rfl
  | cons key value rest =>
      rw [JsonMembers.value, length, length, JsonMembers.length_value rest]

mutual

theorem JsonTree.nesting_value : ∀ value : SplitJson, value.value.nesting = value.nesting
  | .null | .bool _ | .number _ | .string _ => rfl
  | .array elements => congrArg (· + 1) elements.nesting_value
  | .object members => congrArg (· + 1) members.nesting_value

theorem JsonElements.nesting_value :
    ∀ elements : JsonElements Pieces SplitNumber, elements.value.nesting = elements.nesting
  | .nil => rfl
  | .cons value rest => congrArg₂ max value.nesting_value rest.nesting_value

theorem JsonMembers.nesting_value :
    ∀ members : JsonMembers Pieces SplitNumber, members.value.nesting = members.nesting
  | .nil => rfl
  | .cons _ value rest => congrArg₂ max value.nesting_value rest.nesting_value

end

/-! ## Callbacks -/

/-- The callbacks for the pieces before the last, with the length so far. -/
def partCallbacks (part : Bytes → Nat → JsonCallback) : Nat → List Bytes → List JsonCallback
  | _, [] => []
  | soFar, s :: parts =>
      part s (soFar + s.length) :: partCallbacks part (soFar + s.length) parts

/-- The callbacks for a text in pieces. -/
def Pieces.callbacks (part final : Bytes → Nat → JsonCallback) (pieces : Pieces) :
    List JsonCallback :=
  partCallbacks part 0 pieces.parts ++ [final pieces.last pieces.text.length]

/-- The callback for a finished number. -/
def JsonNumber.callback (source : Bytes) : JsonNumber → JsonCallback
  | .int64 i => .int64 i source
  | .uint64 u => .uint64 u source
  | .double d => .double d source

/-- The callbacks for a number. -/
def SplitNumber.callbacks (number : SplitNumber) : List JsonCallback :=
  number.source.parts.map .numberPart ++ [number.value.callback number.source.last]

mutual

/-- The callbacks for a value. -/
def JsonTree.callbacks : SplitJson → List JsonCallback
  | .null => [.null]
  | .bool b => [.bool b]
  | .number n => n.callbacks
  | .string s => s.callbacks .stringPart .string
  | .array elements => .arrayBegin :: (elements.callbacks ++ [.arrayEnd elements.length])
  | .object members => .objectBegin :: (members.callbacks ++ [.objectEnd members.length])

/-- The callbacks of the elements, one after the other. -/
def JsonElements.callbacks : JsonElements Pieces SplitNumber → List JsonCallback
  | .nil => []
  | .cons value rest => value.callbacks ++ rest.callbacks

def JsonMembers.callbacks : JsonMembers Pieces SplitNumber → List JsonCallback
  | .nil => []
  | .cons key value rest =>
      key.callbacks .keyPart .key ++ (value.callbacks ++ rest.callbacks)

end

/-- The callbacks for a document. -/
def JsonTree.documentCallbacks (document : SplitJson) : List JsonCallback :=
  .documentBegin :: (document.callbacks ++ [.documentEnd])

/-! ## Open containers -/

/-- What a callback adds to the number of open containers. -/
def JsonCallback.delta : JsonCallback → ℤ
  | .arrayBegin | .objectBegin => 1
  | .arrayEnd _ | .objectEnd _ => -1
  | _ => 0

/-- The containers begun and not ended by these callbacks. -/
def openContainers (callbacks : List JsonCallback) : ℤ :=
  (callbacks.map JsonCallback.delta).sum

@[simp] theorem openContainers_nil : openContainers [] = 0 := rfl

@[simp] theorem openContainers_cons (callback : JsonCallback)
    (callbacks : List JsonCallback) :
    openContainers (callback :: callbacks) = callback.delta + openContainers callbacks := by
  simp [openContainers]

@[simp] theorem openContainers_append (callbacks callbacks' : List JsonCallback) :
    openContainers (callbacks ++ callbacks') =
      openContainers callbacks + openContainers callbacks' := by
  simp [openContainers]

/-- Callbacks that close what they open, never close anything else, and have at
most `height` containers open at a time. -/
structure Nested (height : Nat) (callbacks : List JsonCallback) : Prop where
  inside : ∀ done, done <+: callbacks →
    0 ≤ openContainers done ∧ openContainers done ≤ height
  closed : openContainers callbacks = 0

namespace Nested

variable {height height' : Nat} {callbacks callbacks' : List JsonCallback}

theorem nil : Nested height [] where
  inside done hdone := by
    rw [List.prefix_nil.mp hdone]
    simp
  closed := rfl

theorem mono (h : Nested height callbacks) (hle : height ≤ height') :
    Nested height' callbacks where
  inside done hdone := by
    have hinside := h.inside done hdone
    omega
  closed := h.closed

theorem append (h : Nested height callbacks) (h' : Nested height callbacks') :
    Nested height (callbacks ++ callbacks') where
  inside done hdone := by
    rcases List.prefix_or_prefix_of_prefix hdone (List.prefix_append callbacks callbacks')
      with hfirst | ⟨rest, rfl⟩
    · exact h.inside done hfirst
    · rw [openContainers_append, h.closed, zero_add]
      exact h'.inside rest ((List.prefix_append_right_inj _).mp hdone)
  closed := by rw [openContainers_append, h.closed, h'.closed, zero_add]

/-- A callback that opens and closes nothing. -/
theorem singleton {callback : JsonCallback} (h : callback.delta = 0) :
    Nested height [callback] where
  inside done hdone := by
    rcases List.prefix_cons_iff.mp hdone with rfl | ⟨rest, rfl, hrest⟩
    · simp
    · rw [List.prefix_nil.mp hrest]
      simp [h]
  closed := by simp [h]

theorem cons {callback : JsonCallback} (hdelta : callback.delta = 0)
    (h : Nested height callbacks) : Nested height (callback :: callbacks) :=
  (singleton hdelta).append h

/-- A container around callbacks. -/
theorem container {first last : JsonCallback} (hfirst : first.delta = 1)
    (hlast : last.delta = -1) (h : Nested height callbacks) :
    Nested (height + 1) (first :: (callbacks ++ [last])) where
  inside done hdone := by
    rcases List.prefix_cons_iff.mp hdone with rfl | ⟨rest, rfl, hrest⟩
    · rw [openContainers_nil]
      omega
    · rcases List.prefix_concat_iff.mp hrest with rfl | hinner
      · rw [openContainers_cons, openContainers_append, openContainers_cons, hfirst, hlast,
          h.closed, openContainers_nil]
        omega
      · have hinside := h.inside rest hinner
        rw [openContainers_cons, hfirst]
        omega
  closed := by simp [hfirst, hlast, h.closed]

end Nested

theorem partCallbacks_nested {part : Bytes → Nat → JsonCallback}
    (hdelta : ∀ s n, (part s n).delta = 0) (height soFar : Nat) (parts : List Bytes) :
    Nested height (partCallbacks part soFar parts) := by
  induction parts generalizing soFar with
  | nil => exact .nil
  | cons s parts ih => exact .cons (hdelta _ _) (ih _)

theorem Pieces.callbacks_nested {part final : Bytes → Nat → JsonCallback}
    (hpart : ∀ s n, (part s n).delta = 0) (hfinal : ∀ s n, (final s n).delta = 0)
    (height : Nat) (pieces : Pieces) : Nested height (pieces.callbacks part final) :=
  (partCallbacks_nested hpart height 0 pieces.parts).append (.singleton (hfinal _ _))

theorem SplitNumber.callbacks_nested (height : Nat) (number : SplitNumber) :
    Nested height number.callbacks := by
  obtain ⟨⟨parts, last⟩, value⟩ := number
  refine Nested.append ?_ (.singleton (by cases value <;> rfl))
  induction parts with
  | nil => exact .nil
  | cons s parts ih => exact .cons rfl ih

mutual

theorem JsonTree.callbacks_nested : ∀ value : SplitJson, Nested value.nesting value.callbacks
  | .null => .singleton rfl
  | .bool _ => .singleton rfl
  | .number n => n.callbacks_nested 0
  | .string s => s.callbacks_nested (fun _ _ => rfl) (fun _ _ => rfl) 0
  | .array elements => .container rfl rfl elements.callbacks_nested
  | .object members => .container rfl rfl members.callbacks_nested

theorem JsonElements.callbacks_nested :
    ∀ elements : JsonElements Pieces SplitNumber,
      Nested elements.nesting elements.callbacks
  | .nil => .nil
  | .cons value rest =>
      (value.callbacks_nested.mono (Nat.le_max_left _ _)).append
        (rest.callbacks_nested.mono (Nat.le_max_right _ _))

theorem JsonMembers.callbacks_nested :
    ∀ members : JsonMembers Pieces SplitNumber, Nested members.nesting members.callbacks
  | .nil => .nil
  | .cons key value rest =>
      (key.callbacks_nested (fun _ _ => rfl) (fun _ _ => rfl) _).append
        ((value.callbacks_nested.mono (Nat.le_max_left _ _)).append
          (rest.callbacks_nested.mono (Nat.le_max_right _ _)))

end

theorem JsonTree.documentCallbacks_nested (document : SplitJson) :
    Nested document.nesting document.documentCallbacks :=
  .cons rfl (document.callbacks_nested.append (.singleton rfl))

end RpcSpec.Admission
