import RpcSpec.Admission.Types
import RpcSpec.Foundation.Loop
set_option autoImplicit false

/-!
# The protobuf visitor (`admissionspec/ProtobufVisitor.hpp`)

`readVarint` and the field loop of `visitProtobuf`.

Conventions.  `size_t` positions are natural numbers, and every addition of two
of them is reduced modulo `2 ^ 64` (`sizeAdd`); `uint64_t` values are `UInt64`.
A left shift of a `uint64_t` by 64 or more has no value in C++, so a run that
comes to one stops there as `undefined`.  `span::subspan` with a pair outside the
span is kept as the pair it forms (see `SubSpan`), which is what an unchecked
build hands on.

The loop body is split at the call of the check: `decodeField` is what the body
computes before it, `visitBody` adds the check and its early return.
-/

namespace RpcSpec.Admission

open RpcSpec.Foundation

/-- Addition of two `size_t`. -/
def sizeAdd (a b : Nat) : Nat := (a + b) % 2 ^ 64

/-! ## Varints -/

/-- Result of `readVarint`: the value and the new position, or `false`. -/
inductive VarintRead where
  | ok (out : UInt64) (pos : Nat)
  | truncated
  /-- a shift amount of 64 or more was reached -/
  | undefinedShift
  deriving DecidableEq, Repr

/-- The loop of `readVarint` over the bytes from `pos` on. -/
def readVarintLoop : Bytes → Nat → UInt64 → Nat → VarintRead
  | [], _, _, _ => .truncated
  | byte :: rest, pos, result, shift =>
      if 64 ≤ shift then .undefinedShift
      else
        let result := result ||| ((byte &&& 0x7F).toUInt64 <<< UInt64.ofNat shift)
        if byte &&& 0x80 = 0 then .ok result (pos + 1)
        else readVarintLoop rest (pos + 1) result (shift + 7)

/-- `detail::readVarint(bytes, pos, out)`. -/
def readVarint (bytes : ByteSpan) (pos : Nat) : VarintRead :=
  readVarintLoop (bytes.bytes.drop pos) pos 0 0

/-! ## Fields -/

/-- `ProtobufVisitorOptions`. -/
structure ProtobufVisitorOptions where
  costForInvalidPayload : ℚ := 10
  deriving DecidableEq, Repr

/-- The drop for a payload that is not a valid protobuf encoding. -/
def ProtobufVisitorOptions.invalidPayload (options : ProtobufVisitorOptions) :
    AdmissionDecision :=
  .drop "Invalid protobuf payload" options.costForInvalidPayload

/-- What the loop body comes to before it calls the check. -/
inductive FieldRead where
  /-- hand this event to the check; the next field starts at `pos` -/
  | event (event : VisitEvent) (pos : Nat)
  /-- no case of the switch applies: the next field starts at `pos` -/
  | noCase (pos : Nat)
  /-- return the invalid-payload drop -/
  | invalid
  | undefined
  deriving DecidableEq

/-- `scalar`: the event of a numeric field. -/
def scalarEvent (field : UInt64) (scalarValue : Int64) : VisitEvent :=
  { kind := .int64, fieldNumber := field, value := .int64 scalarValue }

/-- The event of a length-delimited field. -/
def bytesEvent (field : UInt64) (body : SubSpan) : VisitEvent :=
  { kind := .bytes, fieldNumber := field, value := .bytes body }

/-- `std::memcpy(&value, &bytes[pos], size)` into a zeroed little-endian
`uint64_t`. -/
def readLittleEndian : Bytes → Nat
  | [] => 0
  | byte :: rest => byte.toNat + 256 * readLittleEndian rest

/-- `handleInt(size)`, up to the call of the check. -/
def handleInt (bytes : ByteSpan) (pos : Nat) (field : UInt64) (size : Nat) : FieldRead :=
  if sizeAdd pos size > bytes.size then .invalid
  else
    let value := UInt64.ofNat (readLittleEndian ((bytes.bytes.drop pos).take size))
    .event (scalarEvent field value.toInt64) (sizeAdd pos size)

/-- The `Varint` case of the switch. -/
def handleVarint (bytes : ByteSpan) (pos : Nat) (field : UInt64) : FieldRead :=
  match readVarint bytes pos with
  | .truncated => .invalid
  | .undefinedShift => .undefined
  | .ok value pos => .event (scalarEvent field value.toInt64) pos

/-- The `Len` case of the switch. -/
def handleLen (bytes : ByteSpan) (pos : Nat) (field : UInt64) : FieldRead :=
  match readVarint bytes pos with
  | .truncated => .invalid
  | .undefinedShift => .undefined
  | .ok len pos =>
      if sizeAdd pos len.toNat > bytes.size then .invalid
      else .event (bytesEvent field (bytes.subspan pos len.toNat)) (sizeAdd pos len.toNat)

/-- The switch over the wire type.  The enumeration has no value for 3, 4, 6
and 7, and the switch no default. -/
def handleField (bytes : ByteSpan) (pos : Nat) (field : UInt64) (wireType : Nat) :
    FieldRead :=
  match wireType with
  | 0 => handleVarint bytes pos field
  | 1 => handleInt bytes pos field 8
  | 2 => handleLen bytes pos field
  | 5 => handleInt bytes pos field 4
  | _ => .noCase pos

/-- The loop body of `visitProtobuf` up to the call of the check. -/
def decodeField (bytes : ByteSpan) (pos : Nat) : FieldRead :=
  match readVarint bytes pos with
  | .truncated => .invalid
  | .undefinedShift => .undefined
  | .ok tag pos => handleField bytes pos (tag >>> 3) (tag &&& 7).toNat

/-! ## The visitors -/

/-- State of a visitor's loop: the position and the state of the check. -/
structure VisitState (σ : Type) where
  pos : Nat
  check : σ
  deriving DecidableEq

variable {σ : Type}

/-- Hand an event to the check: a drop returns from the visitor, anything else
goes on at `pos`. -/
def offer (check : Check σ) (s : σ) (event : VisitEvent) (pos : Nat) :
    Pass (VisitState σ) (AdmissionDecision × σ) :=
  let (decision, s') := check s event
  if decision.dropped then .ret (decision, s') else .next ⟨pos, s'⟩

/-- One pass through the loop of `visitProtobuf`. -/
def visitBody (bytes : ByteSpan) (check : Check σ) (options : ProtobufVisitorOptions)
    (state : VisitState σ) : Pass (VisitState σ) (AdmissionDecision × σ) :=
  match decodeField bytes state.pos with
  | .event event pos => offer check state.check event pos
  | .noCase pos => .next ⟨pos, state.check⟩
  | .invalid => .ret (options.invalidPayload, state.check)
  | .undefined => .undefined

/-- The field loop of `visitProtobuf`. -/
def visitLoop (bytes : ByteSpan) (check : Check σ) (options : ProtobufVisitorOptions) :
    While (VisitState σ) (AdmissionDecision × σ) where
  guard state := state.pos < bytes.size
  body := visitBody bytes check options
  exit state := (.admit_ 0, state.check)

/-- `visitProtobuf(bytes, check, options)` with the check in state `s`, for at
most `passes` passes through its loop. -/
def visitProtobuf (bytes : ByteSpan) (check : Check σ) (s : σ)
    (options : ProtobufVisitorOptions) (passes : Nat) : Ending (AdmissionDecision × σ) :=
  (visitLoop bytes check options).run passes ⟨0, s⟩

/-- `visitProtobuf(bytes, check, options)` returns `result`, leaving the check
in the state that comes with it. -/
def VisitReturns (bytes : ByteSpan) (check : Check σ) (s : σ)
    (options : ProtobufVisitorOptions) (result : AdmissionDecision × σ) : Prop :=
  (visitLoop bytes check options).Returns ⟨0, s⟩ result

/-- `state` is the state of the loop after some number of passes of the visit. -/
def VisitReaches (bytes : ByteSpan) (check : Check σ) (s : σ)
    (options : ProtobufVisitorOptions) (state : VisitState σ) : Prop :=
  (visitLoop bytes check options).Reaches ⟨0, s⟩ state

end RpcSpec.Admission
