import RpcSpec.Handlers.Common
set_option autoImplicit false

/-!
# Requests about ledgers and transactions

`ledger`, `ledger_data`, `ledger_index`, `book_changes`, `feature`, `server_info`,
`transaction_entry`, `tx` and `vault_info`.

Each section has the `Input`, the specs and the lemmas that they never fault.
`ledger_index` is the exception: `LedgerIndex.parse_of_dateFits` and
`LedgerIndex.parse_of_not_dateFits` say that it does for a `date` the clock cannot hold,
and for no other request.
-/

namespace RpcSpec.Handlers

open RpcSpec.Dsl RpcSpec.Foundation XrpldError

variable [Build] [LibXrpl]

/-! ## `ledger` -/

namespace Ledger

/-- Which ledger to show, and how much of it. -/
structure Input where
  ledger : LedgerSpecifier := .unspecified
  binary : JsonBool := false
  expand : JsonBool := false
  ownerFunds : JsonBool := false
  transactions : JsonBool := false
  diff : JsonBool := false
  full : JsonBool := false
  accounts : JsonBool := false
  queue : JsonBool := false

instance : InputAggregate Input := ⟨{}, 9⟩

/-- Clio supports neither `full` nor `accounts` nor `queue` when they are true. -/
def kInputSpecV1 : TypedSpec Input where
  fields := [
    ledgerSelector ⟨"ledger", fun out v => { out with ledger := v }⟩,
    field "full" ⟨"full", fun out v => { out with full := v }⟩
      [type [.bool], ifServerClio [notSupportedIf true, deprecated]] jsonBool,
    field "accounts" ⟨"accounts", fun out v => { out with accounts := v }⟩
      [type [.bool], ifServerClio [notSupportedIf true, deprecated]] jsonBool,
    field "owner_funds" ⟨"ownerFunds", fun out v => { out with ownerFunds := v }⟩
      [type [.bool]] jsonBool,
    field "queue" ⟨"queue", fun out v => { out with queue := v }⟩
      [type [.bool], ifServerClio [notSupportedIf true]] jsonBool,
    field "transactions" ⟨"transactions", fun out v => { out with transactions := v }⟩
      [type [.bool]] jsonBool,
    field "expand" ⟨"expand", fun out v => { out with expand := v }⟩ [type [.bool]] jsonBool,
    field "binary" ⟨"binary", fun out v => { out with binary := v }⟩ [type [.bool]] jsonBool,
    field "diff" ⟨"diff", fun out v => { out with diff := v }⟩ [ifServerClio [type [.bool]]]
      jsonBool,
    unboundField "ledger" [ifServerClio [deprecated]],
    unboundField "type" [deprecated]]
  complete := by rfl

/-- From version 2 on four of the flags must be booleans. -/
def kInputSpecV2 : TypedSpec Input := extend kInputSpecV1
  [field "transactions" ⟨"transactions", fun out v => { out with transactions := v }⟩ []
    jsonBoolStrict,
  field "expand" ⟨"expand", fun out v => { out with expand := v }⟩ [] jsonBoolStrict,
  field "binary" ⟨"binary", fun out v => { out with binary := v }⟩ [] jsonBoolStrict,
  field "owner_funds" ⟨"ownerFunds", fun out v => { out with ownerFunds := v }⟩ []
    jsonBoolStrict]
  (by rfl)

omit [LibXrpl] in
/-- The flags are coerced, never read as what they may not be. -/
theorem kInputSpecV1_neverFaults : kInputSpecV1.NeverFaults := by
  simp [TypedSpec.NeverFaults, kInputSpecV1]

omit [LibXrpl] in
theorem kInputSpecV2_neverFaults : kInputSpecV2.NeverFaults :=
  kInputSpecV1_neverFaults.extend (by simp)

end Ledger

/-! ## `ledger_data` -/

namespace LedgerData

/-- `MarkerValue`. -/
inductive MarkerValue where
  | hash (hash : Uint256)
  | seq (seq : UInt32)
  deriving DecidableEq, Repr

/-- Which ledger to page through, and where to begin. -/
structure Input where
  ledger : LedgerSpecifier := .unspecified
  binary : Bool := false
  limit : Option UInt32 := none
  marker : Option MarkerValue := none
  outOfOrder : Bool := false
  type : LedgerEntryType := .ltANY

instance : InputAggregate Input := ⟨{}, 6⟩

/-- `MarkerConverter`. -/
def markerConv : Converter (Option MarkerValue) where
  parse fieldView :=
    if fieldView.isString then do
      let sv ← fieldView.asString
      let parsed ← orReject (parseHexCString 256 sv) kMalformedField
        (malformedFieldMessage "marker")
      pure (some (.hash parsed))
    else if fieldView.isUint32 then (fun seq => some (.seq seq)) <$> fieldView.asUint32
    else throw (unexpected kMalformedField (if kIsClioBuild then "" else "markerNotString"))

/-- `LedgerEntryTypeConverter`. -/
def ledgerEntryTypeConv : Converter LedgerEntryType where
  parse fieldView := do
    rejectIf (!fieldView.isString) kMalformedField
      (expectedFieldMessage fieldView.key "string")
    let entryType := ledgerEntryTypeFromStr (← fieldView.asString)
    rejectIf (entryType = .ltANY) kMalformedField (invalidFieldMessage fieldView.key)
    pure entryType

/-- The kind of the value is asked for before it is read. -/
@[simp] theorem markerConv_neverFaults : markerConv.NeverFaults := by
  refine fun v => safe_ite_asString (fun _ _ => safe_orReject_bind fun _ _ => trivial) fun _ => ?_
  split
  · rename_i h
    exact (FieldView.asUint32_safe h).map
  · trivial

omit [Build] [LibXrpl] in
/-- What is no string is refused before it is read as one. -/
@[simp] theorem ledgerEntryTypeConv_neverFaults : ledgerEntryTypeConv.NeverFaults := by
  intro v
  refine safe_rejectIf_bind fun hs => safe_asString_bind (by simpa using hs) fun _ _ => ?_
  exact safe_rejectIf_bind fun _ => trivial

/-- The limit has a lower bound only; the type is any an entry can have. -/
def kInputSpec : TypedSpec Input where
  fields := [
    ledgerSelector ⟨"ledger", fun out v => { out with ledger := v }⟩,
    field "binary" ⟨"binary", fun out v => { out with binary := v }⟩ [] jsonBoolStrict,
    field "limit" ⟨"limit", fun out v => { out with limit := some v }⟩
      [type [.uint32], min (1 : UInt32)] asUint32,
    field "marker" ⟨"marker", fun out v => { out with marker := v }⟩ [] markerConv,
    field "out_of_order" ⟨"outOfOrder", fun out v => { out with outOfOrder := v }⟩ []
      jsonBoolStrict,
    field "type" ⟨"type", fun out v => { out with type := v }⟩ [] ledgerEntryTypeConv,
    unboundField "ledger" [deprecated]]
  complete := by rfl

theorem kInputSpec_neverFaults : kInputSpec.NeverFaults := by
  simp [TypedSpec.NeverFaults, kInputSpec]

end LedgerData

/-! ## `ledger_index` -/

namespace LedgerIndex

/-- `%Y-%m-%dT%TZ`. -/
def kDateFormat : List TimeDirective :=
  [.year, .literal 0x2d, .month, .literal 0x2d, .day, .literal 0x54, .time, .literal 0x5a]

/-- The time whose ledger is wanted. -/
structure Input where
  date : Option SystemTimePoint := none

instance : InputAggregate Input := ⟨{}, 1⟩

/-- `DateConverter`, for texts of the format: the optional is dereferenced unchecked. -/
def dateConv : Converter SystemTimePoint where
  parse fieldView := do
    match ← systemTpFromUtcStr (← fieldView.asString) kDateFormat with
    | some date => pure date
    | none => throw (.fault .emptyOptional)

/-- The date is read twice, by the validator and by the converter. -/
def kInputSpec : TypedSpec Input where
  fields := [
    field "date" ⟨"date", fun out v => { out with date := some v }⟩ [timeFormat kDateFormat]
      dateConv]
  complete := by rfl

/-- The date of the request, where it names a time, is one from 1677-09-21T00:12:44Z to
2262-04-11T23:47:16Z. -/
def DateFits (root : Json) : Prop :=
  ∀ text tm, root.member? "date" = some (.string text) → readTime text kDateFormat = some tm →
    -9223372036 ≤ tm.sysSeconds ∧ tm.sysSeconds ≤ 9223372036

omit [Build] [LibXrpl] in
/-- These are the times the clock can tell. -/
theorem dateFits_iff {root : Json} : DateFits root ↔
    ∀ text, root.member? "date" = some (.string text) → TimeFits kDateFormat text := by
  simp only [DateFits, TimeFits, fitsTimePoint_iff]
  exact ⟨fun h text hdate tm => h text tm hdate, fun h text tm hdate => h text hdate tm⟩

omit [Build] [LibXrpl] in
/-- `timeFormat` has read the date in the same format before. -/
theorem timeFormat_meets : (timeFormat kDateFormat : Item SystemTimePoint).Meets
    (fun v => ∀ text, v.value = some (.string text) → TimeFits kDateFormat text)
    fun v => v.present = true → Safe (dateConv.parse v) fun _ => True := by
  refine .requirement fun v hfits => safe_ifPresent fun _ => safe_rejectIf_bind fun hs => ?_
  refine safe_asString_bind (by simpa using hs) fun text hv => ?_
  obtain ⟨-, date, hdate⟩ | ⟨hover, -⟩ := systemTpFromUtcStr_cases text kDateFormat
  · rw [hdate]
    refine safe_rejectIf.mono fun _ hread => ?_
    obtain ⟨time, rfl⟩ := Option.isSome_iff_exists.mp (by simpa using hread)
    have hconv : dateConv.parse v = .ok time := by
      simp only [dateConv, FieldView.asString, hv, pure_bind]
      exact bind_eq_ok_iff.mpr ⟨some time, hdate, rfl⟩
    simp [hconv]
  · exact absurd (hfits text hv) hover

/-- The one field of the spec. -/
def dateField : BoundField Input where
  key := "date"
  member := ⟨"date", fun out v => { out with date := some v }⟩
  items := [timeFormat kDateFormat]
  conv := dateConv
  unguarded := rfl

theorem parse_eq : kInputSpec.parse = dateField.parseAt "date" {} := bind_pure _

/-- A date the clock can tell is read or refused, and so is everything that is no text. -/
theorem parse_of_dateFits {root : Json} (h : DateFits root) :
    SafeRun kInputSpec.parse root fun _ _ => True := by
  have hitems : ItemsMeet
      (fun v => ∀ text, v.value = some (.string text) → TimeFits kDateFormat text) dateField.items
      fun v => v.present = true → Safe (dateField.conv.parse v) fun _ => True :=
    .cons timeFormat_meets .nil
  rw [parse_eq]
  exact BoundField.parseAt_safe_of_meets hitems "date" {} (dateFits_iff.mp h)

omit [Build] [LibXrpl] in
/-- The validator reads the date too, and is the first to overflow. -/
theorem verify_overflows {v : FieldView} {text : Bytes} (hv : v.value = some (.string text))
    (hfits : ¬ TimeFits kDateFormat text) :
    TimeFormatValidator.verify kDateFormat v = .error (.fault .signedOverflow) := by
  obtain ⟨hfits', -⟩ | ⟨-, hover⟩ := systemTpFromUtcStr_cases text kDateFormat
  · exact absurd hfits' hfits
  · simp only [TimeFormatValidator.verify, ifPresent, FieldView.present, FieldView.isString,
      FieldView.asString, hv, Option.isSome_some, Bool.not_true, rejectIf]
    change (systemTpFromUtcStr text kDateFormat >>= _) = _
    rw [hover]
    rfl

/-- A date the clock cannot tell overflows it, before anything is read or refused. -/
theorem parse_of_not_dateFits {root : Json} (h : ¬ DateFits root) :
    ∃ root', kInputSpec.parse root = .error (.fault .signedOverflow) root' := by
  simp only [dateFits_iff, not_forall] at h
  obtain ⟨text, hdate, hfits⟩ := h
  refine ⟨root.putChild (root.member? "date") "date", ?_⟩
  rw [parse_eq, BoundField.parseAt]
  change EStateM.bind (BoundField.onRootChild "date"
    (do runProcessors [timeFormat kDateFormat]; get)) _ root = _
  rw [EStateM.bind, BoundField.onRootChild_get, timeFormat, runProcessors_requirement,
    verify_overflows hdate hfits]
  rfl

end LedgerIndex

/-! ## `book_changes` -/

namespace BookChanges

/-- The ledger whose changes are wanted. -/
structure Input where
  ledger : LedgerSpecifier := .unspecified

instance : InputAggregate Input := ⟨{}, 1⟩

/-- Nothing but the ledger is asked for. -/
def kInputSpec : TypedSpec Input where
  fields := [ledgerSelector ⟨"ledger", fun out v => { out with ledger := v }⟩]
  complete := by rfl

omit [Build] [LibXrpl] in
theorem kInputSpec_neverFaults : kInputSpec.NeverFaults := by
  simp [TypedSpec.NeverFaults, kInputSpec]

end BookChanges

/-! ## `feature` -/

namespace Feature

/-- The amendment asked about, by name or by id. -/
structure Input where
  ledger : LedgerSpecifier := .unspecified
  feature : Option Bytes := none

instance : InputAggregate Input := ⟨{}, 2⟩

/-- To vote is not possible here, and asking for it is refused. -/
def kInputSpec : TypedSpec Input where
  fields := [
    ledgerSelector ⟨"ledger", fun out v => { out with ledger := v }⟩,
    field "feature" ⟨"feature", fun out v => { out with feature := some v }⟩ [] asString,
    unboundField "vetoed"
      [withCustomError notSupported rpcNoPermission
        "The admin portion of feature API is not available through Clio."]]
  complete := by rfl

omit [Build] [LibXrpl] in
theorem kInputSpec_neverFaults : kInputSpec.NeverFaults := by
  simp [TypedSpec.NeverFaults, kInputSpec]

end Feature

/-! ## `server_info` -/

namespace ServerInfo

/-- The one key of `server_info`. -/
def kBackendCountersKey : String := "backend_counters"

/-- Whether the counters of the backend are wanted too. -/
structure Input where
  backendCounters : JsonBool := false

instance : InputAggregate Input := ⟨{}, 1⟩

/-- The value is coerced to a boolean. -/
def kInputSpec : TypedSpec Input where
  fields := [
    field kBackendCountersKey
      ⟨"backendCounters", fun out v => { out with backendCounters := v }⟩ [] jsonBool]
  complete := by rfl

omit [Build] [LibXrpl] in
theorem kInputSpec_neverFaults : kInputSpec.NeverFaults := by
  simp [TypedSpec.NeverFaults, kInputSpec]

end ServerInfo

/-! ## `transaction_entry` -/

namespace TransactionEntry

/-- What is wrong with a hash, for the handler to report. -/
inductive TxHashError where
  | missing
  | malformed
  deriving DecidableEq, Repr

/-- The hash is converted late: what is wrong with it is part of the `Input`. -/
structure Input where
  ledger : LedgerSpecifier := .unspecified
  txHash : Except TxHashError Uint256 := .error .missing

instance : InputAggregate Input := ⟨{}, 2⟩

/-- `TxHashConverter`. -/
def txHashConverter : Converter (Except TxHashError Uint256) where
  parse fieldView :=
    if fieldView.isString then do
      let text ← fieldView.asString
      match parseHexCString 256 text with
      | some hash => pure (.ok hash)
      | none => pure (.error .malformed)
    else pure (.error .malformed)

omit [Build] in
@[simp] theorem txHashConverter_neverFaults : txHashConverter.NeverFaults := fun _ =>
  safe_ite_asString (fun _ _ => by split <;> trivial) fun _ => trivial

/-- Clio requires a hash that parses, xrpld defers both questions. -/
def kInputSpec : TypedSpec Input where
  fields := [
    ledgerSelector ⟨"ledger", fun out v => { out with ledger := v }⟩,
    field "tx_hash" ⟨"txHash", fun out v => { out with txHash := v }⟩
      [ifServerClio [withCustomError required kFieldNotFoundTransaction, uint256Hex]]
      txHashConverter]
  complete := by rfl

theorem kInputSpec_neverFaults : kInputSpec.NeverFaults := by
  simp [TypedSpec.NeverFaults, kInputSpec]

end TransactionEntry

/-! ## `tx` -/

namespace Tx

/-- The transaction, by hash or by its place in a ledger, and the ledgers to look in. -/
structure Input where
  transaction : Option Uint256 := none
  ctid : Option Bytes := none
  binary : JsonBool := false
  minLedger : Option UInt32 := none
  maxLedger : Option UInt32 := none

instance : InputAggregate Input := ⟨{}, 5⟩

/-- `ToUpperModifier`. -/
def toUpper : Item Bytes := .modifier (mapText Text.toUpper)

/-- A `ctid` is put into upper case, and what it says is left to the handler. -/
def kInputSpecV1 : TypedSpec Input where
  fields := [
    field "transaction" ⟨"transaction", fun out v => { out with transaction := some v }⟩ []
      asUint256,
    field "ctid" ⟨"ctid", fun out v => { out with ctid := some v }⟩ [toUpper] asString,
    field "binary" ⟨"binary", fun out v => { out with binary := v }⟩ [] jsonBool,
    field "min_ledger" ⟨"minLedger", fun out v => { out with minLedger := some v }⟩ [] asUint32,
    field "max_ledger" ⟨"maxLedger", fun out v => { out with maxLedger := some v }⟩ [] asUint32]
  complete := by rfl

/-- From version 2 on `binary` must be a boolean. -/
def kInputSpecV2 : TypedSpec Input := extend kInputSpecV1
  [field "binary" ⟨"binary", fun out v => { out with binary := v }⟩ [] jsonBoolStrict]
  (by rfl)

/-- Every converter of `tx` checks what it reads. -/
theorem kInputSpecV1_neverFaults : kInputSpecV1.NeverFaults := by
  simp [TypedSpec.NeverFaults, kInputSpecV1, toUpper]

theorem kInputSpecV2_neverFaults : kInputSpecV2.NeverFaults :=
  kInputSpecV1_neverFaults.extend (by simp)

end Tx

/-! ## `vault_info` -/

namespace VaultInfo

/-- The vault, by its id or by its owner and sequence. -/
structure Input where
  ledger : LedgerSpecifier := .unspecified
  vaultID : Option Uint256 := none
  owner : Option AccountID := none
  tnxSequence : Option UInt32 := none

instance : InputAggregate Input := ⟨{}, 4⟩

/-- The code for a bad id or sequence. -/
def kVaultFieldError : CombinedError :=
  if kIsClioBuild then kMalformedRequest else rpcInvalidParams

/-- Clio leaves the text to its code. -/
def kVaultIdMessage : String :=
  if kIsClioBuild then "" else "Invalid field 'vault_id', not hex string."

/-- The code for a bad owner. -/
def kOwnerError : CombinedError := if kIsClioBuild then kMalformedRequest else rpcActMalformed

/-- The servers name a bad owner in their own ways. -/
def kOwnerMessage : String :=
  if kIsClioBuild then "OwnerNotHexString" else "Invalid field 'owner', not AccountID."

/-- Clio leaves the text to its code. -/
def kSeqMessage : String :=
  if kIsClioBuild then "" else "Invalid field 'seq', not a positive 32-bit integer."

/-- `OwnerConverter`. -/
def ownerConv : Converter AccountID where
  parse fieldView :=
    if fieldView.isString then do
      let text ← fieldView.asString
      orReject (accountFromStringStrict text) kOwnerError kOwnerMessage
    else throw (unexpected kOwnerError kOwnerMessage)

@[simp] theorem ownerConv_neverFaults : ownerConv.NeverFaults := fun _ =>
  safe_ite_asString (fun _ _ => safe_orReject_true) fun _ => trivial

/-- Which of the three fields go together is left to the handler. -/
def kInputSpec : TypedSpec Input where
  fields := [
    ledgerSelector ⟨"ledger", fun out v => { out with ledger := v }⟩,
    field "vault_id" ⟨"vaultID", fun out v => { out with vaultID := some v }⟩
      [withCustomError uint256Hex kVaultFieldError kVaultIdMessage] asUint256,
    field "owner" ⟨"owner", fun out v => { out with owner := some v }⟩
      [ifServerClio [withCustomError accountBase58 kOwnerError kOwnerMessage]] ownerConv,
    field "seq" ⟨"tnxSequence", fun out v => { out with tnxSequence := some v }⟩
      [withCustomError (type [.uint32]) kVaultFieldError kSeqMessage] asUint32]
  complete := by rfl

/-- The converters decide on every value, whatever the checks before them say. -/
theorem kInputSpec_neverFaults : kInputSpec.NeverFaults := by
  simp [TypedSpec.NeverFaults, kInputSpec]

end VaultInfo

end RpcSpec.Handlers
