import RpcSpec.Handlers.Common
set_option autoImplicit false

/-!
# Requests about an account (`handlers/account_*`)

The specs that read what an account owns, but for its transactions.  Apart from the
marker of `account_objects`, every converter here checks what it reads.

Each section has the `Input`, the specs and the lemma that they never fault
(`kInputSpec_neverFaults`, or one for each version of the API).
-/

namespace RpcSpec.Handlers

open RpcSpec.Dsl RpcSpec.Foundation XrpldError

variable [Build] [LibXrpl]

/-! ## `account_channels` -/

namespace AccountChannels

/-- The bounds of the page size, and the size of a page nobody asked for. -/
def kLimitMin : UInt32 := 10
def kLimitMax : UInt32 := 400
def kLimitDefault : UInt32 := 200

/-- Whose payment channels to list, to whom, and from which page on. -/
structure Input where
  ledger : LedgerSpecifier := .unspecified
  account : AccountID := 0
  destinationAccount : Option AccountID := none
  limit : UInt32 := 0
  marker : Option Bytes := none

instance : InputAggregate Input := ⟨{}, 5⟩

/-- The destination may be the empty string, which asks for every destination. -/
def kInputSpec : TypedSpec Input where
  fields := [
    ledgerSelector ⟨"ledger", fun out v => { out with ledger := v }⟩,
    field "account" ⟨"account", fun out v => { out with account := v }⟩ [required] accountId,
    field "destination_account"
      ⟨"destinationAccount", fun out v => { out with destinationAccount := v }⟩
      [ifServerClio [type [.string]]]
      (emptyAsAbsent accountId),
    -- the default stands before the bounds here
    field "limit" ⟨"limit", fun out v => { out with limit := v }⟩
      (serverLimitChecks kLimitDefault ++
        [defaultTo kLimitDefault, ifServerClio [clamp kLimitMin kLimitMax]])
      asUint32,
    field "marker" ⟨"marker", fun out v => { out with marker := some v }⟩ []
      accountMarkerStrInvalidParams]
  complete := by rfl

theorem kInputSpec_neverFaults : kInputSpec.NeverFaults := by
  simp [TypedSpec.NeverFaults, kInputSpec]

end AccountChannels

/-! ## `account_currencies` -/

namespace AccountCurrencies

/-- The bounds of the page size, and the size of a page nobody asked for. -/
def kLimitMin : UInt32 := 10
def kLimitMax : UInt32 := 400
def kLimitDefault : UInt32 := 200

/-- The account is converted late: what is wrong with it is part of the `Input`. -/
structure Input where
  ledger : LedgerSpecifier := .unspecified
  account : DeferredAccountId := .ok 0
  limit : UInt32 := 0
  marker : Option Bytes := none

instance : InputAggregate Input := ⟨{}, 4⟩

/-- On xrpld `ident` stands in for `account`; Clio does not know it. -/
def kInputSpec : TypedSpec Input where
  fields := [
    ledgerSelector ⟨"ledger", fun out v => { out with ledger := v }⟩,
    field "ident" ⟨"account", fun out v => { out with account := v }⟩
      [ifServerXrpld
        [ifAbsent "account",
        withCustomError required rpcInvalidParams "Missing field 'account'."],
      ifServerClio [never]]
      deferredAccountId,
    field "account" ⟨"account", fun out v => { out with account := v }⟩
      [ifServerClio [required]] deferredAccountId,
    field "limit" ⟨"limit", fun out v => { out with limit := v }⟩
      (serverLimitItems kLimitMin kLimitMax kLimitDefault) asUint32,
    field "marker" ⟨"marker", fun out v => { out with marker := some v }⟩ []
      accountMarkerStrInvalidParams,
    unboundField "account_index" [ifServerClio [deprecated]],
    unboundField "strict" [ifServerClio [deprecated]]]
  complete := by rfl

theorem kInputSpec_neverFaults : kInputSpec.NeverFaults := by
  simp [TypedSpec.NeverFaults, kInputSpec]

end AccountCurrencies

/-! ## `account_info` -/

namespace AccountInfo

/-- No account is an account too: `missing`, for the handler to report. -/
structure Input where
  ledger : LedgerSpecifier := .unspecified
  account : DeferredAccountId := .error .missing
  signerLists : JsonBool := false
  queue : JsonBool := false

instance : InputAggregate Input := ⟨{}, 4⟩

/-- Neither spelling of the account is required on Clio, where `ident` is deprecated. -/
def kInputSpecV1 : TypedSpec Input where
  fields := [
    ledgerSelector ⟨"ledger", fun out v => { out with ledger := v }⟩,
    field "ident" ⟨"account", fun out v => { out with account := v }⟩
      [ifServerXrpld
        [ifAbsent "account",
        withCustomError required rpcInvalidParams "Missing field 'account'."],
      ifServerClio [deprecated]]
      deferredAccountId,
    field "account" ⟨"account", fun out v => { out with account := v }⟩ [] deferredAccountId,
    field "signer_lists" ⟨"signerLists", fun out v => { out with signerLists := v }⟩ []
      jsonBool,
    field "queue" ⟨"queue", fun out v => { out with queue := v }⟩ [] jsonBool,
    unboundField "ledger" [ifServerClio [deprecated]],
    unboundField "strict" [ifServerClio [deprecated]]]
  complete := by rfl

/-- From version 2 on Clio takes booleans alone for `signer_lists`. -/
def kInputSpecV2 : TypedSpec Input := extend kInputSpecV1
  [field "signer_lists" ⟨"signerLists", fun out v => { out with signerLists := v }⟩ []
    (jsonBoolConverter kIsClioBuild)]
  (by rfl)

/-- The converters decide on every value. -/
theorem kInputSpecV1_neverFaults : kInputSpecV1.NeverFaults := by
  simp [TypedSpec.NeverFaults, kInputSpecV1]

/-- The field that is listed again has a converter that checks. -/
theorem kInputSpecV2_neverFaults : kInputSpecV2.NeverFaults :=
  kInputSpecV1_neverFaults.extend (by simp)

end AccountInfo

/-! ## `account_lines` -/

namespace AccountLines

/-- The bounds of the page size, and the size of a page nobody asked for. -/
def kLimitMin : UInt32 := 10
def kLimitMax : UInt32 := 400
def kLimitDefault : UInt32 := 200

/-- Whose trust lines to list, and to which peer. -/
structure Input where
  ledger : LedgerSpecifier := .unspecified
  account : DeferredAccountId := .ok 0
  peer : DeferredAccountId := .error .missing
  ignoreDefault : Bool := false
  limit : UInt32 := 0
  marker : Option Bytes := none

instance : InputAggregate Input := ⟨{}, 6⟩

/-- `LinesAccountConverter`. -/
def linesAccount : Converter DeferredAccountId where
  parse fieldView :=
    if kIsXrpldBuild then deferredAccountId.parse fieldView
    else .ok <$> accountIdActMalformed.parse fieldView

/-- Either converter it chooses between decides on every value. -/
@[simp] theorem linesAccount_neverFaults : linesAccount.NeverFaults := by
  intro v
  unfold linesAccount
  dsimp only
  split
  · exact deferredAccountId_neverFaults v
  · exact (accountIdActMalformed_neverFaults v).map

/-- `AsBoolConverter`: on xrpld a value that is no boolean counts as `false`. -/
def asBool : Converter Bool where
  parse fieldView :=
    if kIsXrpldBuild then
      match jsonBool.parse fieldView with
      | .ok coerced => pure coerced
      | .error (.error _) => pure false
      | .error (.fault why) => throw (.fault why)
    else do
      rejectIf (!fieldView.isBool) rpcInvalidParams
      fieldView.asBool

omit [LibXrpl] in
/-- On xrpld an error is swallowed, and there is no fault to swallow. -/
@[simp] theorem asBool_neverFaults : asBool.NeverFaults := by
  intro v
  unfold asBool
  dsimp only
  split
  · rcases Safe.iff_ok_or_error.mp (jsonBool_neverFaults v) with ⟨b, hb, -⟩ | ⟨status, hs⟩
    · simp [hb]
    · simp [hs]
  · apply safe_rejectIf_bind
    intro h
    exact (FieldView.asBool_safe (by simpa using h)).mono fun _ _ => trivial

/-- The empty string as `peer` is no peer. -/
def kInputSpecV1 : TypedSpec Input where
  fields := [
    ledgerSelector ⟨"ledger", fun out v => { out with ledger := v }⟩,
    field "account" ⟨"account", fun out v => { out with account := v }⟩ [required] linesAccount,
    field "peer" ⟨"peer", fun out v => { out with peer := v }⟩ [] (emptyAsAbsent linesAccount),
    field "ignore_default" ⟨"ignoreDefault", fun out v => { out with ignoreDefault := v }⟩
      [ifServerClio [type [.bool]]] asBool,
    field "limit" ⟨"limit", fun out v => { out with limit := v }⟩
      (serverLimitItems kLimitMin kLimitMax kLimitDefault) asUint32,
    field "marker" ⟨"marker", fun out v => { out with marker := some v }⟩ []
      accountMarkerStrInvalidParams,
    unboundField "ledger" [ifServerClio [deprecated]],
    unboundField "peer_index" [ifServerClio [deprecated]]]
  complete := by rfl

/-- Every converter of `account_lines` checks what it reads. -/
theorem kInputSpecV1_neverFaults : kInputSpecV1.NeverFaults := by
  simp [TypedSpec.NeverFaults, kInputSpecV1]

end AccountLines

/-! ## `account_mptoken_issuances` -/

namespace AccountMptokenIssuances

/-- The bounds of the page size, and the size of a page nobody asked for. -/
def kLimitMin : UInt32 := 10
def kLimitMax : UInt32 := 400
def kLimitDefault : UInt32 := 200

/-- Whose token issuances to list, and from which page on. -/
structure Input where
  ledger : LedgerSpecifier := .unspecified
  account : AccountID := 0
  limit : UInt32 := 0
  marker : Option Bytes := none

instance : InputAggregate Input := ⟨{}, 4⟩

/-- A malformed account is reported with the code for accounts; the page size is checked
alike on both servers. -/
def kInputSpec : TypedSpec Input where
  fields := [
    ledgerSelector ⟨"ledger", fun out v => { out with ledger := v }⟩,
    field "account" ⟨"account", fun out v => { out with account := v }⟩ [required]
      accountIdActMalformed,
    field "limit" ⟨"limit", fun out v => { out with limit := v }⟩
      (limitItems kLimitMin kLimitMax kLimitDefault 1) asUint32,
    field "marker" ⟨"marker", fun out v => { out with marker := some v }⟩ [accountMarker]
      asString,
    unboundField "ledger" [deprecated]]
  complete := by rfl

theorem kInputSpec_neverFaults : kInputSpec.NeverFaults := by
  simp [TypedSpec.NeverFaults, kInputSpec]

end AccountMptokenIssuances

/-! ## `account_mptokens` -/

namespace AccountMptokens

/-- The bounds of the page size, and the size of a page nobody asked for. -/
def kLimitMin : UInt32 := 10
def kLimitMax : UInt32 := 400
def kLimitDefault : UInt32 := 200

/-- Whose tokens to list, and from which page on. -/
structure Input where
  ledger : LedgerSpecifier := .unspecified
  account : AccountID := 0
  limit : UInt32 := 0
  marker : Option Bytes := none

instance : InputAggregate Input := ⟨{}, 4⟩

/-- The fields are those of `account_mptoken_issuances`. -/
def kInputSpec : TypedSpec Input where
  fields := [
    ledgerSelector ⟨"ledger", fun out v => { out with ledger := v }⟩,
    field "account" ⟨"account", fun out v => { out with account := v }⟩ [required]
      accountIdActMalformed,
    field "limit" ⟨"limit", fun out v => { out with limit := v }⟩
      (limitItems kLimitMin kLimitMax kLimitDefault 1) asUint32,
    field "marker" ⟨"marker", fun out v => { out with marker := some v }⟩ [accountMarker]
      asString,
    unboundField "ledger" [deprecated]]
  complete := by rfl

theorem kInputSpec_neverFaults : kInputSpec.NeverFaults := by
  simp [TypedSpec.NeverFaults, kInputSpec]

end AccountMptokens

/-! ## `account_nfts` -/

namespace AccountNfts

/-- The bounds of the page size, and the size of a page nobody asked for. -/
def kLimitMin : UInt32 := 20
def kLimitMax : UInt32 := 400
def kLimitDefault : UInt32 := 100

/-- Whose tokens to list; a page is named by the id of the last token before it. -/
structure Input where
  ledger : LedgerSpecifier := .unspecified
  account : AccountID := 0
  limit : UInt32 := 0
  marker : Option Uint256 := none

instance : InputAggregate Input := ⟨{}, 4⟩

/-- That the marker is a string is asked on xrpld first, for a text of its own. -/
def kInputSpec : TypedSpec Input where
  fields := [
    ledgerSelector ⟨"ledger", fun out v => { out with ledger := v }⟩,
    field "account" ⟨"account", fun out v => { out with account := v }⟩ [required] accountId,
    field "limit" ⟨"limit", fun out v => { out with limit := v }⟩
      (serverLimitItems kLimitMin kLimitMax kLimitDefault) asUint32,
    field "marker" ⟨"marker", fun out v => { out with marker := some v }⟩
      [ifServerXrpld
        [withCustomError (type [.string]) rpcInvalidParams
          "Invalid field 'marker', not string."]]
      asUint256]
  complete := by rfl

theorem kInputSpec_neverFaults : kInputSpec.NeverFaults := by
  simp [TypedSpec.NeverFaults, kInputSpec]

end AccountNfts

/-! ## `account_objects` -/

namespace AccountObjects

/-- The bounds of the page size, and the size of a page nobody asked for. -/
def kLimitMin : UInt32 := 10
def kLimitMax : UInt32 := 400
def kLimitDefault : UInt32 := 200

/-- Which of the objects of an account to list. -/
structure Input where
  ledger : LedgerSpecifier := .unspecified
  account : AccountID := 0
  limit : UInt32 := 0
  marker : Option Bytes := none
  type : Option LedgerEntryType := none
  deletionBlockersOnly : Bool := false
  sponsored : Option JsonBool := none

instance : InputAggregate Input := ⟨{}, 7⟩

/-- `AccountOwnedTypeConverter`. -/
def accountOwnedTypeConv : Converter LedgerEntryType where
  parse fieldView := do
    rejectIf (!fieldView.isString) kMalformedField
      (expectedFieldMessage fieldView.key "string")
    let entryType := accountOwnedLedgerTypeFromStr (← fieldView.asString)
    rejectIf (entryType = .ltANY) kMalformedField (invalidFieldMessage fieldView.key)
    pure entryType

omit [Build] [LibXrpl] in
/-- What is no string is refused before it is read as one. -/
@[simp] theorem accountOwnedTypeConv_neverFaults : accountOwnedTypeConv.NeverFaults := by
  intro v
  refine safe_rejectIf_bind fun hs => safe_asString_bind (by simpa using hs) fun _ _ => ?_
  exact safe_rejectIf_bind fun _ => trivial

/-- `MarkerStringConverter`, for strings. -/
def markerStringConv : Converter Bytes where
  parse fieldView := fieldView.asString

/-- The type must be that of an object an account can own. -/
def kInputSpecV1 : TypedSpec Input where
  fields := [
    ledgerSelector ⟨"ledger", fun out v => { out with ledger := v }⟩,
    field "account" ⟨"account", fun out v => { out with account := v }⟩ [required] accountId,
    field "limit" ⟨"limit", fun out v => { out with limit := v }⟩
      (limitItems kLimitMin kLimitMax kLimitDefault 1) asUint32,
    field "type" ⟨"type", fun out v => { out with type := some v }⟩ [] accountOwnedTypeConv,
    field "marker" ⟨"marker", fun out v => { out with marker := some v }⟩ [accountMarker]
      markerStringConv,
    field "deletion_blockers_only"
      ⟨"deletionBlockersOnly", fun out v => { out with deletionBlockersOnly := v }⟩ []
      jsonBoolStrict,
    field "sponsored" ⟨"sponsored", fun out v => { out with sponsored := some v }⟩ []
      jsonBoolStrict]
  complete := by rfl

/-- The marker is read as a string once `accountMarker` has accepted it as one. -/
theorem marker_neverFaults {Input : Type} {key : String} {member : Member Input Bytes}
    {unguarded} : (field key member [accountMarker] markerStringConv unguarded).NeverFaults := by
  refine field_neverFaults_of_meets
    (.cons (.requirement fun v _ => AccountMarkerValidator.verify_safe v) .nil) ?_
  intro v hp hv
  exact (FieldView.asString_safe (hv hp)).mono fun _ _ => trivial

/-- All but the marker have converters that check. -/
theorem kInputSpecV1_neverFaults : kInputSpecV1.NeverFaults := by
  simp [TypedSpec.NeverFaults, kInputSpecV1, marker_neverFaults]

end AccountObjects

/-! ## `account_offers` -/

namespace AccountOffers

/-- The bounds of the page size, and the size of a page nobody asked for. -/
def kLimitMin : UInt32 := 10
def kLimitMax : UInt32 := 400
def kLimitDefault : UInt32 := 200

/-- Whose offers to list; the account is converted late. -/
structure Input where
  ledger : LedgerSpecifier := .unspecified
  account : DeferredAccountId := .ok 0
  limit : UInt32 := 0
  marker : Option Bytes := none

instance : InputAggregate Input := ⟨{}, 4⟩

/-- The account must be there, but need not be one: that is deferred. -/
def kInputSpecV1 : TypedSpec Input where
  fields := [
    ledgerSelector ⟨"ledger", fun out v => { out with ledger := v }⟩,
    field "account" ⟨"account", fun out v => { out with account := v }⟩ [required]
      deferredAccountId,
    field "limit" ⟨"limit", fun out v => { out with limit := v }⟩
      (serverLimitItems kLimitMin kLimitMax kLimitDefault) asUint32,
    field "marker" ⟨"marker", fun out v => { out with marker := some v }⟩ [] accountMarkerStr,
    unboundField "ledger" [ifServerClio [deprecated]],
    unboundField "strict" [ifServerClio [deprecated]]]
  complete := by rfl

/-- The versions do not differ. -/
def kInputSpecV2 : TypedSpec Input := kInputSpecV1

/-- Every converter of `account_offers` decides on every value. -/
theorem kInputSpecV1_neverFaults : kInputSpecV1.NeverFaults := by
  simp [TypedSpec.NeverFaults, kInputSpecV1]

theorem kInputSpecV2_neverFaults : kInputSpecV2.NeverFaults := kInputSpecV1_neverFaults

end AccountOffers

end RpcSpec.Handlers
