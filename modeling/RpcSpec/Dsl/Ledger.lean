import RpcSpec.Dsl.Converters
set_option autoImplicit false

/-!
# Ledger selection (`rpcspec/Ledger.hpp`)

Which ledger a request asks for: by hash, by sequence or by a shortcut.  Clio reads
`ledger_hash` and `ledger_index`; xrpld also reads `ledger`, and takes only one of
the three.

`selectLedger_safe` is what the rest relies on: the rule reads no value by an accessor
that does not fit it, whatever the request holds.
-/

namespace RpcSpec.Dsl

open RpcSpec.Foundation XrpldError

/-- The ledgers that have a name. -/
inductive LedgerShortcut where
  | validated
  | current
  | closed
  deriving DecidableEq, Repr

/-- `LedgerSpecifier`: the variant it holds. -/
inductive LedgerSpecifier where
  | unspecified
  | shortcut (shortcut : LedgerShortcut)
  | hash (hash : Uint256)
  | sequence (seq : UInt32)
  deriving DecidableEq, Repr

variable [Build] [LibXrpl]

/-- The sequence a text spells. -/
def sequenceFromText (text : Bytes) : Option LedgerSpecifier :=
  (Text.parseWhole Text.uint32Max text).map fun seq => .sequence (UInt32.ofNat seq)

/-! ## The forms a ledger may be given in -/

/-- `detail::ledgerSpecifierFromIndex`. -/
def ledgerSpecifierFromIndex (fieldView : FieldView) : Parsed LedgerSpecifier :=
  let invalid := unexpected kMalformedField malformedLedgerIndexMessage
  if fieldView.isUint32 then .sequence <$> fieldView.asUint32
  else if fieldView.isInt64 then throw invalid
  else if !fieldView.isString then throw invalid
  else do
    let text ← fieldView.asString
    if text = bytesOf "validated" then pure (.shortcut .validated)
    else orReject (sequenceFromText text) kMalformedField malformedLedgerIndexMessage

/-- `detail::ledgerSpecifierFromHash`. -/
def ledgerSpecifierFromHash (fieldView : FieldView) : Parsed LedgerSpecifier :=
  if !fieldView.isString then
    throw (unexpected kMalformedField (notStringFieldMessage "ledger_hash"))
  else do
    let text ← fieldView.asString
    let hash ← orReject (parseHexCString 256 text) kMalformedField
      (malformedFieldMessage "ledger_hash")
    pure (.hash hash)

/-- `detail::xrpldLedgerFromHash`, for a string. -/
def xrpldLedgerFromHash (fieldView : FieldView) : Parsed LedgerSpecifier := do
  let text ← fieldView.asString
  let hash ← orReject (parseHexCString 256 text) kMalformedField
    (expectedFieldMessage fieldView.key "hex string")
  pure (.hash hash)

/-- `detail::xrpldLedgerFromIndex`. -/
def xrpldLedgerFromIndex (fieldView : FieldView) : Parsed LedgerSpecifier :=
  let message := expectedFieldMessage fieldView.key "string or number"
  if !fieldView.isString then
    if fieldView.isUint32 then .sequence <$> fieldView.asUint32
    else throw (unexpected kMalformedField message)
  else do
    let text ← fieldView.asString
    if text = bytesOf "current" || text.isEmpty then pure (.shortcut .current)
    else if text = bytesOf "validated" then pure (.shortcut .validated)
    else if text = bytesOf "closed" then pure (.shortcut .closed)
    else
      let digits := if text.head? = some 0x2b then text.tail else text
      orReject (sequenceFromText digits) kMalformedField message

/-- A value a ledger may be named by on xrpld. -/
def isStringOrInteger (fieldView : FieldView) : Bool :=
  fieldView.isString || fieldView.isInt64

/-- `detail::xrpldLedgerFromRequest`. -/
def xrpldLedgerFromRequest (root : Json) : Parsed LedgerSpecifier :=
  let legacyView := rootChild root "ledger"
  let hashView := rootChild root "ledger_hash"
  let indexView := rootChild root "ledger_index"
  let count := legacyView.present.toNat + hashView.present.toNat + indexView.present.toNat
  if 1 < count then
    if legacyView.present then
      throw (unexpected kMalformedField
        "Exactly one of 'ledger', 'ledger_hash', or 'ledger_index' can be specified.")
    else
      throw (unexpected kMalformedField
        "Exactly one of 'ledger_hash' or 'ledger_index' can be specified.")
  else if legacyView.present then do
    rejectIf (!isStringOrInteger legacyView) kMalformedField
      (expectedFieldMessage "ledger" "string or number")
    if legacyView.isString then do
      let text ← legacyView.asString
      if text.length = 64 then xrpldLedgerFromHash legacyView
      else xrpldLedgerFromIndex legacyView
    else xrpldLedgerFromIndex legacyView
  else if hashView.present then do
    rejectIf (!hashView.isString) kMalformedField
      (expectedFieldMessage "ledger_hash" "hex string")
    xrpldLedgerFromHash hashView
  else if indexView.present then do
    rejectIf (!isStringOrInteger indexView) kMalformedField
      (expectedFieldMessage "ledger_index" "string or number")
    xrpldLedgerFromIndex indexView
  else pure .unspecified

/-- What `LedgerSelectorField::parseInto` stores in its member, if anything. -/
def selectLedger (root : Json) : Parsed (Option LedgerSpecifier) :=
  if kIsXrpldBuild then some <$> xrpldLedgerFromRequest root
  else
    let hashView := rootChild root "ledger_hash"
    let indexView := rootChild root "ledger_index"
    if hashView.present then do
      let res ← ledgerSpecifierFromHash hashView
      if indexView.present then
        let _ ← ledgerSpecifierFromIndex indexView
      pure (some res)
    else if indexView.present then
      some <$> ledgerSpecifierFromIndex indexView
    else pure none

/-! ## No accessor outside its contract -/

omit [LibXrpl] in
/-- The kind of the value is asked for before it is read. -/
theorem ledgerSpecifierFromIndex_safe (v : FieldView) :
    Safe (ledgerSpecifierFromIndex v) fun _ => True := by
  unfold ledgerSpecifierFromIndex
  dsimp only
  split
  · exact ((FieldView.asUint32_safe ‹_›).mono fun _ _ => trivial).map
  split
  · trivial
  refine safe_ite_not_asString (fun text _ => ?_) fun _ => trivial
  split
  · trivial
  · exact safe_orReject_true

/-- And so it is here. -/
theorem ledgerSpecifierFromHash_safe (v : FieldView) :
    Safe (ledgerSpecifierFromHash v) fun _ => True :=
  safe_ite_not_asString (fun _ _ => safe_orReject_bind fun _ _ => trivial) fun _ => trivial

omit [Build] in
/-- Whether it is a string its callers have asked. -/
theorem xrpldLedgerFromHash_safe {v : FieldView} (h : v.isString = true) :
    Safe (xrpldLedgerFromHash v) fun _ => True :=
  safe_asString_bind h fun _ _ => safe_orReject_bind fun _ _ => trivial

omit [Build] [LibXrpl] in
/-- A number is read as a number, a string as a string. -/
theorem xrpldLedgerFromIndex_safe (v : FieldView) :
    Safe (xrpldLedgerFromIndex v) fun _ => True := by
  unfold xrpldLedgerFromIndex
  refine safe_ite_not_asString ?_ ?_
  · intro text _
    split
    · trivial
    split
    · trivial
    split
    · trivial
    · exact safe_orReject_true
  · intro _
    split
    · exact ((FieldView.asUint32_safe ‹_›).mono fun _ _ => trivial).map
    · trivial

omit [Build] in
/-- The old key is read like one of the new ones. -/
theorem xrpldLedgerFromRequest_safe (root : Json) :
    Safe (xrpldLedgerFromRequest root) fun _ => True := by
  unfold xrpldLedgerFromRequest
  dsimp only
  split
  · split <;> trivial
  split
  · apply safe_rejectIf_bind
    intro _
    refine safe_ite_asString (fun text hv => ?_) fun _ => xrpldLedgerFromIndex_safe _
    split
    · exact xrpldLedgerFromHash_safe (by simp [FieldView.isString, hv])
    · exact xrpldLedgerFromIndex_safe _
  split
  · exact safe_rejectIf_bind fun h => xrpldLedgerFromHash_safe (by simpa using h)
  split
  · exact safe_rejectIf_bind fun _ => xrpldLedgerFromIndex_safe _
  · trivial

/-- Whichever of the keys are there, and whatever they hold. -/
theorem selectLedger_safe (root : Json) : Safe (selectLedger root) fun _ => True := by
  unfold selectLedger
  dsimp only
  split
  · exact (xrpldLedgerFromRequest_safe root).map
  split
  · apply (ledgerSpecifierFromHash_safe _).bind
    intro _ _
    split
    · exact (ledgerSpecifierFromIndex_safe _).bind fun _ _ => trivial
    · trivial
  split
  · exact (ledgerSpecifierFromIndex_safe _).map
  · trivial

end RpcSpec.Dsl
