import RpcSpec.Handlers.Common
set_option autoImplicit false

/-!
# Searches through the history of the ledger

`account_tx`, `nft_history` and `mptoken_issuance_history`.

The three share the bounds and the marker of the common module. Each section has the
`Input`, the specs of the two versions of the API and the lemmas that they never fault.
-/

namespace RpcSpec.Handlers

open RpcSpec.Dsl RpcSpec.Foundation XrpldError

variable [Build] [LibXrpl]

/-! ## `account_tx` -/

namespace AccountTx

/-- The bounds of the page size; there is no default. -/
def kLimitMin : UInt32 := 1
def kLimitMax : UInt32 := 1000

/-- `DelegateFilter::Role`. -/
inductive Role where
  | actor
  | authorizer
  deriving DecidableEq, Repr

/-- `DelegateFilter`: transactions by delegates, seen from one of the two sides. -/
structure DelegateFilter where
  delegateType : Role := .actor
  counterParty : Option Bytes := none
  deriving DecidableEq, Repr

/-- Whose transactions to list, in which ledgers, and from which one on. -/
structure Input where
  ledger : LedgerSpecifier := .unspecified
  account : AccountID := 0
  ledgerIndexMin : Option Int32 := none
  ledgerIndexMax : Option Int32 := none
  binary : JsonBool := false
  forward : JsonBool := false
  limit : Option UInt32 := none
  marker : Option Marker := none
  transactionTypeInLowercase : Option Bytes := none
  mptIssuanceId : Option Uint192 := none
  delegateFilter : Option DelegateFilter := none

instance : InputAggregate Input := ⟨{}, 11⟩

/-- The type of transaction, already in lower case. -/
def kTxTypeValidator : Item Bytes := txTypeValidator

/-- A bound of the ledger range. -/
def int32Bound : Converter (Option Int32) := int32BoundConverter

/-- Where in the history the page begins. -/
def markerConv : Converter Marker := markerConverter

/-! ### The `delegate` field -/

/-- The function of `kDelegateValidator`. -/
def verifyDelegate (fieldView : FieldView) : MaybeError := do
  rejectIf (!fieldView.isObject) rpcInvalidParams (fieldView.key ++ "NotObject")
  let filterView := fieldView.child "delegate_filter"
  rejectIf (!filterView.present) rpcInvalidParams
    "Field 'delegate_filter' is required but missing."
  rejectIf (!filterView.isString) rpcInvalidParams
    "Field 'delegate_filter' value must be 'actor' or 'authorizer'."
  let filter ← filterView.asString
  rejectIf (filter ≠ bytesOf "actor" && filter ≠ bytesOf "authorizer") rpcInvalidParams
    "Field 'delegate_filter' value must be 'actor' or 'authorizer'."
  let counterPartyView := fieldView.child "counter_party"
  if counterPartyView.present then
    (AccountFormat.verify counterPartyView).mapError
      (customFailure rpcActMalformed "Field 'counter_party' value must be a valid account.")

/-- An object with a known role. -/
def kDelegateValidator : Item DelegateFilter := customValidator verifyDelegate

/-- `DelegateConverter`, for values the validator has accepted. -/
def delegateConv : Converter DelegateFilter where
  parse fieldView := do
    let filter ← (fieldView.child "delegate_filter").asString
    let delegateType := if filter = bytesOf "actor" then Role.actor else Role.authorizer
    let counterPartyView := fieldView.child "counter_party"
    if counterPartyView.present then do
      let counterParty ← counterPartyView.asString
      pure { delegateType, counterParty := some counterParty }
    else pure { delegateType }

omit [Build] in
/-- The filter is a string, and so is the counterparty if there is one. -/
theorem verifyDelegate_safe (v : FieldView) : Safe (verifyDelegate v) fun _ =>
    (v.child "delegate_filter").isString = true ∧
      ((v.child "counter_party").present = true → (v.child "counter_party").isString = true) := by
  refine safe_rejectIf_bind fun _ => safe_rejectIf_bind fun _ => safe_rejectIf_bind fun hs => ?_
  have hs : (v.child "delegate_filter").isString = true := by simpa using hs
  refine safe_asString_bind hs fun _ _ => safe_rejectIf_bind fun _ => ?_
  dsimp only
  split
  · rename_i hp
    apply ((AccountFormat.verify_safe _).mapError (customFailure_error _ _)).mono
    intro _ h
    exact ⟨hs, fun _ => (h hp).isString⟩
  · rename_i hp
    exact ⟨hs, fun h => absurd h hp⟩

omit [Build] in
/-- The filter is read after its validator has found an object with a role in it. -/
theorem delegate_neverFaults {Input : Type} {key : String}
    {member : Member Input DelegateFilter} {unguarded} :
    (field key member [kDelegateValidator] delegateConv unguarded).NeverFaults := by
  refine field_neverFaults_of_meets
    (.cons (.requirement fun v _ => safe_ifPresent fun _ => verifyDelegate_safe v) .nil) ?_
  intro v hp hv
  apply safe_asString_bind (hv hp).1
  intro _ _
  dsimp only
  split
  · rename_i hcounterParty
    exact safe_asString_bind ((hv hp).2 hcounterParty) fun _ _ => trivial
  · trivial

/-! ### The spec -/

/-- The converters that need it stand behind the check of their value. -/
def kInputSpecV1 : TypedSpec Input where
  fields := [
    ledgerSelector ⟨"ledger", fun out v => { out with ledger := v }⟩,
    field "account" ⟨"account", fun out v => { out with account := v }⟩ [required] accountId,
    field "ledger_index_min" ⟨"ledgerIndexMin", fun out v => { out with ledgerIndexMin := v }⟩
      int32BoundItems int32Bound,
    field "ledger_index_max" ⟨"ledgerIndexMax", fun out v => { out with ledgerIndexMax := v }⟩
      int32BoundItems int32Bound,
    unboundField "ctid" [type [.string]],
    field "limit" ⟨"limit", fun out v => { out with limit := some v }⟩
      [type [.uint32], min kLimitMin, clamp kLimitMin kLimitMax] asUint32,
    field "marker" ⟨"marker", fun out v => { out with marker := some v }⟩ markerItems markerConv,
    field "binary" ⟨"binary", fun out v => { out with binary := v }⟩ [] jsonBool,
    field "forward" ⟨"forward", fun out v => { out with forward := v }⟩ [] jsonBool,
    field "tx_type"
      ⟨"transactionTypeInLowercase", fun out v => { out with transactionTypeInLowercase := some v }⟩
      [toLower, kTxTypeValidator] asString,
    field "mpt_issuance_id" ⟨"mptIssuanceId", fun out v => { out with mptIssuanceId := some v }⟩
      [] asUint192,
    field "delegate" ⟨"delegateFilter", fun out v => { out with delegateFilter := some v }⟩
      [kDelegateValidator] delegateConv]
  complete := by rfl

/-- From version 2 on the flags must be booleans. -/
def kInputSpecV2 : TypedSpec Input := extend kInputSpecV1
  [field "binary" ⟨"binary", fun out v => { out with binary := v }⟩ [] jsonBoolStrict,
  field "forward" ⟨"forward", fun out v => { out with forward := v }⟩ [] jsonBoolStrict]
  (by rfl)

/-- The bounds, the marker and the filter are read behind their checks. -/
theorem kInputSpecV1_neverFaults : kInputSpecV1.NeverFaults := by
  simp [TypedSpec.NeverFaults, kInputSpecV1, int32Bound, int32Bound_neverFaults, markerConv,
    marker_neverFaults, kTxTypeValidator, delegate_neverFaults]

theorem kInputSpecV2_neverFaults : kInputSpecV2.NeverFaults :=
  kInputSpecV1_neverFaults.extend (by simp)

end AccountTx

/-! ## `nft_history` -/

namespace NftHistory

/-- The bounds of the page size; there is no default. -/
def kLimitMin : UInt32 := 1
def kLimitMax : UInt32 := 100

/-- Which token's transactions to list, in which ledgers, and from which one on. -/
structure Input where
  ledger : LedgerSpecifier := .unspecified
  nftID : Uint256 := 0
  ledgerIndexMin : Option Int32 := none
  ledgerIndexMax : Option Int32 := none
  binary : JsonBool := false
  forward : JsonBool := false
  limit : Option UInt32 := none
  marker : Option Marker := none

instance : InputAggregate Input := ⟨{}, 8⟩

/-- A bound of the ledger range. -/
def int32Bound : Converter (Option Int32) := int32BoundConverter

/-- Where in the history the page begins. -/
def markerConv : Converter Marker := markerConverter

/-- The history of a token is searched as that of an account is, but by no type; its flags
are booleans in either version. -/
def kInputSpecV1 : TypedSpec Input where
  fields := [
    ledgerSelector ⟨"ledger", fun out v => { out with ledger := v }⟩,
    field "nft_id" ⟨"nftID", fun out v => { out with nftID := v }⟩ [required] asUint256,
    field "ledger_index_min" ⟨"ledgerIndexMin", fun out v => { out with ledgerIndexMin := v }⟩
      int32BoundItems int32Bound,
    field "ledger_index_max" ⟨"ledgerIndexMax", fun out v => { out with ledgerIndexMax := v }⟩
      int32BoundItems int32Bound,
    field "limit" ⟨"limit", fun out v => { out with limit := some v }⟩
      [type [.uint32], min kLimitMin, clamp kLimitMin kLimitMax] asUint32,
    field "marker" ⟨"marker", fun out v => { out with marker := some v }⟩ markerItems markerConv,
    field "binary" ⟨"binary", fun out v => { out with binary := v }⟩ [] jsonBoolStrict,
    field "forward" ⟨"forward", fun out v => { out with forward := v }⟩ [] jsonBoolStrict]
  complete := by rfl

/-- The versions do not differ. -/
def kInputSpecV2 : TypedSpec Input := kInputSpecV1

/-- The bounds and the marker are read behind their checks. -/
theorem kInputSpecV1_neverFaults : kInputSpecV1.NeverFaults := by
  simp [TypedSpec.NeverFaults, kInputSpecV1, int32Bound, int32Bound_neverFaults, markerConv,
    marker_neverFaults]

theorem kInputSpecV2_neverFaults : kInputSpecV2.NeverFaults := kInputSpecV1_neverFaults

end NftHistory

/-! ## `mptoken_issuance_history` -/

namespace MptokenIssuanceHistory

/-- The bounds of the page size; there is no default. -/
def kLimitMin : UInt32 := 1
def kLimitMax : UInt32 := 100

/-- Which issuance's transactions to list, and whose among them. -/
structure Input where
  ledger : LedgerSpecifier := .unspecified
  mptIssuanceId : Uint192 := 0
  account : Option AccountID := none
  ledgerIndexMin : Option Int32 := none
  ledgerIndexMax : Option Int32 := none
  binary : JsonBool := false
  forward : JsonBool := false
  limit : Option UInt32 := none
  marker : Option Marker := none
  transactionTypeInLowercase : Option Bytes := none

instance : InputAggregate Input := ⟨{}, 10⟩

/-- The type of transaction, already in lower case. -/
def kTxTypeValidator : Item Bytes := txTypeValidator

/-- A bound of the ledger range. -/
def int32Bound : Converter (Option Int32) := int32BoundConverter

/-- Where in the history the page begins. -/
def markerConv : Converter Marker := markerConverter

/-- The id is checked by its validator and parsed once more by its converter. -/
def kInputSpec : TypedSpec Input where
  fields := [
    ledgerSelector ⟨"ledger", fun out v => { out with ledger := v }⟩,
    field "mpt_issuance_id" ⟨"mptIssuanceId", fun out v => { out with mptIssuanceId := v }⟩
      [required, uint192Hex] asUint192,
    field "account" ⟨"account", fun out v => { out with account := some v }⟩ [] accountId,
    field "tx_type"
      ⟨"transactionTypeInLowercase", fun out v => { out with transactionTypeInLowercase := some v }⟩
      [toLower, kTxTypeValidator] asString,
    field "ledger_index_min" ⟨"ledgerIndexMin", fun out v => { out with ledgerIndexMin := v }⟩
      int32BoundItems int32Bound,
    field "ledger_index_max" ⟨"ledgerIndexMax", fun out v => { out with ledgerIndexMax := v }⟩
      int32BoundItems int32Bound,
    field "binary" ⟨"binary", fun out v => { out with binary := v }⟩ [] jsonBoolStrict,
    field "forward" ⟨"forward", fun out v => { out with forward := v }⟩ [] jsonBoolStrict,
    field "limit" ⟨"limit", fun out v => { out with limit := some v }⟩
      [type [.uint32], min kLimitMin, clamp kLimitMin kLimitMax] asUint32,
    field "marker" ⟨"marker", fun out v => { out with marker := some v }⟩ markerItems markerConv]
  complete := by rfl

theorem kInputSpec_neverFaults : kInputSpec.NeverFaults := by
  simp [TypedSpec.NeverFaults, kInputSpec, int32Bound, int32Bound_neverFaults, markerConv,
    marker_neverFaults, kTxTypeValidator]

end MptokenIssuanceHistory

end RpcSpec.Handlers
