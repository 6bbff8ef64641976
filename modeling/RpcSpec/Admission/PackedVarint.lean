import RpcSpec.Admission.ProtobufVisitor
set_option autoImplicit false

/-!
# Packed fields of varints (`visitPackedVarint`)

The visitor of a run of varints without tags.  Each is reported under the number of
the packed field.
-/

namespace RpcSpec.Admission

open RpcSpec.Foundation

variable {σ : Type}

/-- One pass through the loop of `visitPackedVarint`. -/
def packedVarintBody (body : ByteSpan) (field : UInt64) (check : Check σ)
    (options : ProtobufVisitorOptions) (state : VisitState σ) :
    Pass (VisitState σ) (AdmissionDecision × σ) :=
  match readVarint body state.pos with
  | .truncated => .ret (options.invalidPayload, state.check)
  | .undefinedShift => .undefined
  | .ok varint pos => offer check state.check (scalarEvent field varint.toInt64) pos

/-- The loop of `visitPackedVarint`. -/
def packedVarintLoop (body : ByteSpan) (field : UInt64) (check : Check σ)
    (options : ProtobufVisitorOptions) : While (VisitState σ) (AdmissionDecision × σ) where
  guard state := state.pos < body.size
  body := packedVarintBody body field check options
  exit state := (.admit_ 0, state.check)

/-- `visitPackedVarint(body, field, check, options)` returns `result`, leaving the check
in the state that comes with it. -/
def PackedVarintReturns (body : ByteSpan) (field : UInt64) (check : Check σ) (s : σ)
    (options : ProtobufVisitorOptions) (result : AdmissionDecision × σ) : Prop :=
  (packedVarintLoop body field check options).Returns ⟨0, s⟩ result

end RpcSpec.Admission
