import RpcSpec.Admission.Types
set_option autoImplicit false

/-!
# Admission specs (`admissionspec/AdmissionSpec.hpp`)

The policy of a message type: its tunables and, possibly, a streaming check with
state of its own.  `preAdmit` is the stage before a message is parsed;
`makeChecker` makes the check of one message, in the state the spec was declared
with.
-/

namespace RpcSpec.Admission

/-- The resolved tunables of a spec.  `extra` stands for those that only the
author's check reads. -/
structure ResolvedTunables (Extra : Type) where
  maxPayloadBytes : Nat
  sizeRamp : List SizeTier
  extra : Extra

/-- `AdmissionSpec<T, TunablesTuple, Check>`, with the tunables' default values
resolved.  A spec without a check (`NoHook`) has none here. -/
structure AdmissionSpec where
  Extra : Type
  State : Type
  tunables : ResolvedTunables Extra
  /-- the state the check is declared with -/
  initial : State
  check : Option (State → VisitEvent → ResolvedTunables Extra → AdmissionDecision × State)

namespace AdmissionSpec

/-- `resolvedFor<T>()`: the tunables at their defaults, shared by all messages. -/
def resolved (spec : AdmissionSpec) : ResolvedTunables spec.Extra := spec.tunables

/-- `AdmissionSpec::preAdmit(payload, cfg)`. -/
def preAdmit (spec : AdmissionSpec) (payload : ByteSpan)
    (cfg : ResolvedTunables spec.Extra) : AdmissionDecision :=
  let cost := costFor cfg.sizeRamp payload.size
  if payload.size > cfg.maxPayloadBytes then
    .drop "payload exceeds max bytes for this type" cost
  else .admit_ cost

/-- `AdmissionSpec::makeChecker(cfg)`: the transition function of the checker;
its first state is `initial`. -/
def makeChecker (spec : AdmissionSpec) (cfg : ResolvedTunables spec.Extra) :
    Check spec.State := fun state event =>
  match spec.check with
  | none => (.admit_ 0, state)
  | some check => check state event cfg

/-- A spec without a check that charges every message the same. -/
def flat (maxPayloadBytes : Nat) (cost : ℚ) : AdmissionSpec where
  Extra := Unit
  State := Unit
  tunables := ⟨maxPayloadBytes, [⟨maxPayloadBytes, cost⟩], ()⟩
  initial := ()
  check := none

end AdmissionSpec

/-- A caller-provided traversal `visitor(check)`: it is given a checker and its
state and comes to a decision. -/
abbrev Visitor (σ : Type) := Check σ → σ → AdmissionDecision

end RpcSpec.Admission
