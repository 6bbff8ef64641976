import Mathlib.Data.Rat.Defs
import Mathlib.Algebra.Order.Ring.Rat
set_option autoImplicit false

/-!
# Admission types (`admissionspec/Types.hpp`)

The values the admission stages exchange: the decision a stage produces, the
events a visitor feeds to a check, and the size-to-cost ramp.

Token costs are `double` in the source and exact rationals here.  A `double`
leaf of a JSON document is only handed through, so it is kept as its 64-bit
pattern.  The source's `admit` is spelled `admit_` throughout, the bare word being
a tactic.  Text is the bytes the parser hands over: a piece of a key or a string
may end in the middle of a UTF-8 sequence.
-/

namespace RpcSpec.Admission

/-- The bytes of a string, a key or a payload. -/
abbrev Bytes := List UInt8

/-- Outcome of an admission stage. -/
inductive AdmissionAction where
  | admit_
  | drop
  deriving DecidableEq, Repr

/-- The result an admission stage produces. -/
structure AdmissionDecision where
  action : AdmissionAction := .admit_
  tokenCost : ℚ := 0
  reason : String := ""
  deriving DecidableEq, Repr

namespace AdmissionDecision

/-- The request goes through. -/
def admitted (d : AdmissionDecision) : Bool := d.action == .admit_

/-- The request is refused. -/
def dropped (d : AdmissionDecision) : Bool := d.action == .drop

/-- `AdmissionDecision::admit(cost)`; the source's default cost is 0. -/
def admit_ (cost : ℚ) : AdmissionDecision := { action := .admit_, tokenCost := cost }

/-- `AdmissionDecision::drop(why, cost)`; the source's default cost is 0. -/
def drop (why : String) (cost : ℚ) : AdmissionDecision :=
  { action := .drop, tokenCost := cost, reason := why }

@[simp] theorem admitted_admit_ (cost : ℚ) : (admit_ cost).admitted = true := rfl
@[simp] theorem dropped_admit_ (cost : ℚ) : (admit_ cost).dropped = false := rfl
@[simp] theorem dropped_drop (why : String) (cost : ℚ) : (drop why cost).dropped = true := rfl
@[simp] theorem admitted_drop (why : String) (cost : ℚ) : (drop why cost).admitted = false := rfl
@[simp] theorem tokenCost_admit_ (cost : ℚ) : (admit_ cost).tokenCost = cost := rfl
@[simp] theorem tokenCost_drop (why : String) (cost : ℚ) : (drop why cost).tokenCost = cost := rfl

/-- A decision is a drop exactly when it is not an admit. -/
theorem dropped_eq_not_admitted (d : AdmissionDecision) : d.dropped = !d.admitted := by
  cases d with
  | mk action cost reason => cases action <;> rfl

end AdmissionDecision

/-! ## Spans -/

/-- `std::span<uint8_t const>`: the bytes of an object.  No object is larger
than `PTRDIFF_MAX` bytes. -/
structure ByteSpan where
  bytes : Bytes
  size_lt : bytes.length < 2 ^ 63
  deriving DecidableEq

namespace ByteSpan

/-- The number of bytes. -/
def size (span : ByteSpan) : Nat := span.bytes.length

/-- There are no bytes. -/
def empty : ByteSpan := ⟨[], by decide⟩

end ByteSpan

/-- The pair of a start and a count that `span::subspan` forms.  The standard
leaves a pair outside the span to the caller; the pair is kept as it is, so that
such a pair can be seen. -/
structure SubSpan where
  base : ByteSpan
  offset : Nat
  count : Nat
  deriving DecidableEq

namespace SubSpan

/-- The pair lies inside the span it was taken from. -/
def InBounds (sub : SubSpan) : Prop := sub.offset + sub.count ≤ sub.base.size

instance (sub : SubSpan) : Decidable sub.InBounds :=
  inferInstanceAs (Decidable (_ ≤ _))

/-- The bytes of the base that the pair covers. -/
def toSpan (sub : SubSpan) : ByteSpan where
  bytes := (sub.base.bytes.drop sub.offset).take sub.count
  size_lt := by
    have hbase := sub.base.size_lt
    simp only [List.length_take, List.length_drop]
    omega

end SubSpan

/-- `bytes.subspan(offset, count)`, where a count of `std::dynamic_extent`
(the largest `size_t`) means the rest of the span. -/
def ByteSpan.subspan (span : ByteSpan) (offset count : Nat) : SubSpan where
  base := span
  offset := offset
  count := if count = 2 ^ 64 - 1 then span.size - offset else count

/-! ## Events -/

/-- The shape of one event in a streaming visit of a payload. -/
inductive EventKind where
  | objectBegin | objectEnd | arrayBegin | arrayEnd
  | keyPart | key | stringPart | string | numberPart
  | int64 | uint64 | double | bool | null
  | commentPart | comment
  | bytes
  deriving DecidableEq, Repr

/-- The leaf payload of an event. -/
inductive EventValue where
  | monostate
  | bool (value : Bool)
  | int64 (value : Int64)
  | uint64 (value : UInt64)
  /-- the bit pattern of a `double` -/
  | double (bits : UInt64)
  | text (value : Bytes)
  | bytes (value : SubSpan)
  deriving DecidableEq

/-- An event handed to a streaming check. -/
structure VisitEvent where
  kind : EventKind := .null
  key : Bytes := []
  size : Nat := 0
  depth : UInt32 := 0
  /-- the largest `uint64_t` for JSON -/
  fieldNumber : UInt64 := 0xFFFFFFFFFFFFFFFF
  value : EventValue := .monostate
  deriving DecidableEq

/-- A streaming check: a callable that carries its own state from one event of
a message to the next. -/
abbrev Check (σ : Type) := σ → VisitEvent → AdmissionDecision × σ

/-- The check admits every event, whatever its state. -/
def AdmitsAll {σ : Type} (check : Check σ) : Prop :=
  ∀ s event, (check s event).1.admitted = true

/-- The check that keeps the events it is fed, in order, and admits them. -/
def recording : Check (List VisitEvent) := fun events event =>
  (.admit_ 0, events ++ [event])

theorem recording_admitsAll : AdmitsAll recording := fun _ _ => rfl

/-- The check, with the events it was handed kept next to its state. -/
def observed {σ : Type} (check : Check σ) : Check (σ × List VisitEvent) :=
  fun (state, events) event =>
    let (decision, state) := check state event
    (decision, state, events ++ [event])

/-! ## Size pricing -/

/-- One step of a size ramp: payloads up to `upToBytes` cost `cost` tokens. -/
structure SizeTier where
  upToBytes : Nat
  cost : ℚ
  deriving DecidableEq, Repr

/-- Token cost for a payload of `bytes` against a list of tiers. -/
def costFor (tiers : List SizeTier) (bytes : Nat) : ℚ :=
  match tiers.find? (fun tier => bytes ≤ tier.upToBytes) with
  | some tier => tier.cost
  | none => (tiers.getLast?.map (·.cost)).getD 0

/-- The resolved per-connection bucket parameters. -/
structure BucketSettings where
  capacity : ℚ
  refillRatePerSecond : ℚ
  deriving DecidableEq, Repr

end RpcSpec.Admission
