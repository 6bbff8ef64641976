import RpcSpec.Foundation.Faults
set_option autoImplicit false

/-!
# Errors and warnings (`rpcspec/Errors.hpp`, `rpcspec/Types.hpp`)

What a spec reports: the error a request is rejected with and the warnings it
draws.  The server that is compiled for decides several codes and texts; it is
the class `Build`, which the source fixes with a macro.

Next to the errors of the source stand the faults: an accessor of a field view
used outside its contract, a decoder of already validated text that throws, an
empty `std::optional` that is dereferenced, signed arithmetic that overflows.  The
source reports none of them.

`Failure` has both, and `Safe` rules the faults out; `SafeRun` does so for a run over a
document.
-/

namespace RpcSpec.Dsl

open RpcSpec.Foundation

/-- The server a build is for: `RPCSPEC_IS_CLIO` or `RPCSPEC_IS_XRPLD`, never both. -/
class Build where
  isClio : Bool

/-- `RPCSPEC_IS_CLIO`. -/
abbrev Build.clio : Build := ⟨true⟩

/-- `RPCSPEC_IS_XRPLD`. -/
abbrev Build.xrpld : Build := ⟨false⟩

section Build

variable [Build]

/-- Whether the build is for Clio. -/
def kIsClioBuild : Bool := Build.isClio

/-- Whether it is for xrpld. -/
def kIsXrpldBuild : Bool := !kIsClioBuild

end Build

/-! ## Error codes -/

/-- `xrpl::ErrorCodeI`: the codes the specs use. -/
inductive XrpldError where
  | rpcInvalidParams
  | rpcActMalformed
  | rpcNotSupported
  | rpcNoPermission
  | rpcIssueMalformed
  | rpcDomainMalformed
  | rpcDstAmtMalformed
  | rpcDstIsrMalformed
  | rpcSrcCurMalformed
  | rpcSrcIsrMalformed
  | rpcOracleMalformed
  | rpcInvalidHotwallet
  | rpcStreamMalformed
  | rpcBadIssuer
  | rpcBadMarket
  deriving DecidableEq, Repr

/-- The Clio codes the specs use. -/
inductive ClioError where
  | rpcMalformedCurrency
  | rpcMalformedRequest
  | rpcMalformedOwner
  | rpcMalformedAddress
  | rpcFieldNotFoundTransaction
  | rpcMalformedOracleDocumentId
  | rpcMalformedAuthorizedCredentials
  deriving DecidableEq, Repr

/-- `std::variant<XrpldError, ClioError>`. -/
inductive CombinedError where
  | xrpld (code : XrpldError)
  | clio (code : ClioError)
  deriving DecidableEq, Repr

instance : Coe XrpldError CombinedError := ⟨.xrpld⟩

section Codes

variable [Build]

/-- A code of Clio's own, for which xrpld answers `RpcInvalidParams`. -/
def clioCode (code : ClioError) : CombinedError :=
  if kIsClioBuild then .clio code else .xrpld .rpcInvalidParams

/-- The codes that have a name of Clio's own. -/
def kMalformedRequest : CombinedError := clioCode .rpcMalformedRequest
def kMalformedAddress : CombinedError := clioCode .rpcMalformedAddress
def kMalformedOwner : CombinedError := clioCode .rpcMalformedOwner
def kMalformedCurrency : CombinedError := clioCode .rpcMalformedCurrency
def kMalformedOracleDocumentId : CombinedError := clioCode .rpcMalformedOracleDocumentId
def kMalformedAuthorizedCredentials : CombinedError :=
  clioCode .rpcMalformedAuthorizedCredentials
def kFieldNotFoundTransaction : CombinedError := clioCode .rpcFieldNotFoundTransaction

end Codes

/-- The one code both servers have for a field. -/
def kMalformedField : CombinedError := .xrpld .rpcInvalidParams

/-! ## Messages -/

section Messages

variable [Build]

/-- A required field that is not there. -/
def missingFieldMessage (field : String) : String :=
  if kIsClioBuild then "Required field '" ++ field ++ "' missing"
  else "Missing field '" ++ field ++ "'."

/-- A field of another type than it must be. -/
def expectedFieldMessage (field type : String) : String :=
  "Invalid field '" ++ field ++ "', not " ++ type ++ "."

/-- A field of the right type, and no more than that. -/
def invalidFieldMessage (field : String) : String := "Invalid field '" ++ field ++ "'."

/-- A field that must be a string. -/
def notStringFieldMessage (field : String) : String :=
  if kIsClioBuild then field ++ "NotString" else invalidFieldMessage field

/-- A string that does not parse. -/
def malformedFieldMessage (field : String) : String :=
  if kIsClioBuild then field ++ "Malformed" else invalidFieldMessage field

/-- A ledger index that is none of the spellings. -/
def malformedLedgerIndexMessage : String :=
  if kIsClioBuild then "ledgerIndexMalformed"
  else expectedFieldMessage "ledger_index" "string or number"

/-- A marker that does not parse. -/
def malformedCursorMessage (field : String) : String :=
  if kIsClioBuild then "Malformed cursor." else invalidFieldMessage field

end Messages

/-! ## Results -/

/-- `rpc::Status`: the code and the message.  No spec sets its other two members. -/
structure Status where
  code : CombinedError
  message : String := ""
  deriving DecidableEq, Repr

/-- The reading operations of a field view that have a contract. -/
inductive Accessor where
  | asInt64
  | asUint32
  | asBool
  | asString
  | asDouble
  | set
  deriving DecidableEq, Repr

/-- How the code can go wrong instead of answering. -/
inductive Fault where
  /-- an accessor applied to a value of another kind, or to an absent field -/
  | accessor (which : Accessor)
  /-- a `std::logic_error` from one of the `…FromValidated` decoders -/
  | notPreValidated
  /-- an empty optional dereferenced -/
  | emptyOptional
  /-- a signed integer operation whose result does not fit -/
  | signedOverflow
  deriving DecidableEq, Repr

/-- What a computation of a spec may end in instead of a value. -/
abbrev Failure := Foundation.Failure Fault Status

/-- `Parsed<T>`: a value or the status the request is rejected with. -/
abbrev Parsed (α : Type) := Except Failure α

/-- `MaybeError`. -/
abbrev MaybeError := Parsed Unit

/-- `std::unexpected{rpc::Status{code, message}}`. -/
def unexpected (code : CombinedError) (message : String := "") : Failure :=
  .error { code, message }

/-- `if (bad) return std::unexpected{rpc::Status{code, message}};` -/
def rejectIf (bad : Bool) (code : CombinedError) (message : String := "") : MaybeError :=
  if bad then throw (unexpected code message) else pure ()

/-- `if (not decoded) return std::unexpected{rpc::Status{code, message}};`, with the
decoded value at hand afterwards. -/
def orReject {α : Type} (decoded : Option α) (code : CombinedError) (message : String := "") :
    Parsed α :=
  match decoded with
  | some a => pure a
  | none => throw (unexpected code message)

/-- A value is returned when one was decoded. -/
theorem orReject_eq_ok_iff {α : Type} {decoded : Option α} {code : CombinedError}
    {message : String} {a : α} : orReject decoded code message = .ok a ↔ decoded = some a := by
  cases decoded <;> simp [orReject, Pure.pure, Except.pure, throw, throwThe, MonadExceptOf.throw]

/-- A check passes when nothing is bad. -/
theorem rejectIf_eq_ok_iff {bad : Bool} {code : CombinedError} {message : String} {u : Unit} :
    rejectIf bad code message = .ok u ↔ bad = false := by
  cases bad <;> simp [rejectIf, Pure.pure, Except.pure, throw, throwThe, MonadExceptOf.throw]

section Safety

variable {α β : Type} {code : CombinedError} {message : String} {Q : β → Prop}

/-- What follows a refusal runs only where nothing was refused. -/
theorem safe_rejectIf_bind {bad : Bool} {rest : Unit → Parsed β}
    (h : bad = false → Safe (rest ()) Q) : Safe (rejectIf bad code message >>= rest) Q := by
  cases bad with
  | true => trivial
  | false => exact h rfl

/-- A refusal is no fault, and after it what was refused is not the case. -/
theorem safe_rejectIf {bad : Bool} : Safe (rejectIf bad code message) fun _ => bad = false := by
  cases bad with
  | true => trivial
  | false => exact rfl

/-- Nor is it one here, and after it there is a value. -/
theorem safe_orReject {decoded : Option α} :
    Safe (orReject decoded code message) fun a => decoded = some a := by
  cases decoded with
  | none => trivial
  | some a => exact rfl

/-- What follows works on the decoded value. -/
theorem safe_orReject_bind {decoded : Option α} {rest : α → Parsed β}
    (h : ∀ a, decoded = some a → Safe (rest a) Q) :
    Safe (orReject decoded code message >>= rest) Q :=
  safe_orReject.bind h

end Safety

/-! ## Warnings -/

/-- `rpc::WarningCode`. -/
inductive WarningCode where
  | warnUnknown
  | warnRpcClio
  | warnRpcOutdated
  | warnRpcRateLimit
  | warnRpcDeprecated
  deriving DecidableEq, Repr

/-- A warning, with the field it is about. -/
structure Warning where
  code : WarningCode
  field : String
  message : String
  deriving DecidableEq, Repr

/-- In the order of the fields. -/
abbrev Warnings := List Warning

end RpcSpec.Dsl
