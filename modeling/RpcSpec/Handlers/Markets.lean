import RpcSpec.Handlers.Common
set_option autoImplicit false

/-!
# Requests about markets

`amm_info`, `book_offers` and `get_aggregate_price`.

Each section has the `Input`, the specs and the lemmas that they never fault. The oracles
of `get_aggregate_price` are a modifier on Clio and a deferred member on xrpld; what they
come to is in the module on lists of oracles.
-/

namespace RpcSpec.Handlers

open RpcSpec.Dsl RpcSpec.Foundation XrpldError

variable [Build] [LibXrpl]

/-! ## `amm_info` -/

namespace AmmInfo

/-- All four are converted late: what is wrong with them is part of the `Input`. -/
structure Input where
  ledger : LedgerSpecifier := .unspecified
  accountID : DeferredAccountId := .error .missing
  ammAccount : DeferredAccountId := .error .missing
  asset1 : DeferredAsset := .error .missing
  asset2 : DeferredAsset := .error .missing

instance : InputAggregate Input := ⟨{}, 5⟩

/-- `kStringIssueValidator`, for strings. -/
def kStringIssueValidator : Item DeferredAsset := customValidator fun fieldView => do
  let text ← fieldView.asString
  rejectIf (LibXrpl.issueFromJson text).isNone rpcIssueMalformed

/-- `IssueConverter`.  Its `catch (...)` would turn a fault in the branch for objects
into an error; here the fault stays one. -/
def issueConv : Converter Issue where
  parse fieldView :=
    if fieldView.isString then do
      let text ← fieldView.asString
      orReject (LibXrpl.issueFromJson text) rpcIssueMalformed
    else if fieldView.isObject then do
      let currSv ← (fieldView.child "currency").asString
      let currency ← orReject (LibXrpl.toCurrency currSv) rpcIssueMalformed
      if Xrpl.isXRP currency then pure Xrpl.xrpIssue
      else do
        let issuerSv ← (fieldView.child "issuer").asString
        let issuer ← orReject (LibXrpl.toIssuer issuerSv) rpcIssueMalformed
        pure ⟨currency, issuer⟩
    else throw (unexpected rpcIssueMalformed)

/-- The items of both assets. -/
def assetItems : List (Item DeferredAsset) :=
  [ifServerClio [withCustomError (type [.string, .object]) rpcIssueMalformed],
  ifType .string [ifServerClio [kStringIssueValidator]],
  ifType .object [ifServerClio [withCustomError currencyIssue rpcIssueMalformed]]]

/-- Which of the four go together is left to the handler. -/
def kInputSpec : TypedSpec Input where
  fields := [
    ledgerSelector ⟨"ledger", fun out v => { out with ledger := v }⟩,
    field "asset" ⟨"asset1", fun out v => { out with asset1 := v }⟩ assetItems
      (deferredAsset issueConv),
    field "asset2" ⟨"asset2", fun out v => { out with asset2 := v }⟩ assetItems
      (deferredAsset issueConv),
    field "amm_account" ⟨"ammAccount", fun out v => { out with ammAccount := v }⟩ []
      deferredAccountIdActMalformed,
    field "account" ⟨"accountID", fun out v => { out with accountID := v }⟩ []
      deferredAccountIdActMalformed]
  complete := by rfl

/-- An object that Clio has accepted is one its converter can read. -/
theorem assetItems_meet : ItemsMeet (fun _ => True) assetItems fun v =>
    kIsClioBuild = true → v.isObject = true → CurrencyIssueValidator.Accepts v := by
  have hstring : kStringIssueValidator.Meets (fun v => True ∧ v.is .string = true)
      fun _ => True := by
    refine .requirement fun v hv => (safe_ifPresent (Q := True) fun _ => ?_).mono fun _ _ => trivial
    exact safe_asString_bind hv.2 fun _ _ => safe_rejectIf.mono fun _ _ => trivial
  have hobject : (withCustomError currencyIssue rpcIssueMalformed : Item DeferredAsset).Meets
      (fun v => True ∧ v.is .object = true)
      fun v => v.present = true → CurrencyIssueValidator.Accepts v :=
    .withCustomError (.requirement fun v _ => CurrencyIssueValidator.verify_safe v) _ _
  have hstringBranch : (ifServerClio [kStringIssueValidator]).Meets _ _ :=
    .whenActive (.inr rfl) (.cons hstring .nil)
  have hobjectBranch : (ifServerClio [withCustomError currencyIssue rpcIssueMalformed]).Meets _ _ :=
    .whenActive (.inr rfl) (.cons hobject .nil)
  refine .cons (ifServerClio_neverFaults (by simp)) (.cons (R := fun _ => True) ?_ (.cons ?_ .nil))
  · exact (Item.Meets.ifType (.cons hstringBranch .nil)).mono (fun _ h => h) fun _ _ => trivial
  · refine (Item.Meets.ifType (.cons hobjectBranch .nil)).mono (fun _ h => h) ?_
    rintro v (hv | ⟨-, hother⟩) hclio hv'
    · exact hv hclio (FieldView.present_of_is (t := .object) hv')
    · exact absurd hv' (by simpa [FieldView.is] using hother)

omit [Build] in
/-- The converter reads what the validator of issues has accepted. -/
theorem issueConv_safe {v : FieldView}
    (h : v.isObject = true → CurrencyIssueValidator.Accepts v) :
    Safe (issueConv.parse v) fun _ => True := by
  refine safe_ite_asString (fun _ _ => safe_orReject_true) fun _ => ?_
  split
  · rename_i hobject
    obtain ⟨-, hcurrency⟩ := h hobject
    refine hcurrency.asString_bind fun text _ ⟨currency, hc, hissuer⟩ => ?_
    simp only [hc, orReject, pure_bind]
    split
    · trivial
    · rename_i hxrp
      simp only [hxrp, Bool.false_eq_true, if_false] at hissuer
      exact hissuer.asString_bind fun _ _ _ => safe_orReject_bind fun _ _ => trivial
  · trivial

/-- Clio validates the asset and reads it, xrpld defers. -/
theorem asset_neverFaults {Input : Type} {key : String} {member : Member Input DeferredAsset}
    {unguarded} : (field key member assetItems (deferredAsset issueConv) unguarded).NeverFaults :=
  field_neverFaults_of_meets assetItems_meet fun _ _ hv =>
    deferredAsset_safe fun hclio => issueConv_safe (hv hclio)

theorem kInputSpec_neverFaults : kInputSpec.NeverFaults := by
  simp [TypedSpec.NeverFaults, kInputSpec, asset_neverFaults]

end AmmInfo

/-! ## `book_offers` -/

namespace BookOffers

/-- The bounds of the number of offers, and the number nobody asked for. -/
def kLimitMin : UInt32 := 1
def kLimitMax : UInt32 := 100
def kLimitDefault : UInt32 := 60

/-- What the taker pays and gets, who the taker is and in which domain. -/
structure Input where
  ledger : LedgerSpecifier := .unspecified
  limit : UInt32 := 0
  taker : Option AccountID := none
  takerPays : Asset := .issue Xrpl.xrpIssue
  takerGets : Asset := .issue Xrpl.xrpIssue
  domain : Option Bytes := none

instance : InputAggregate Input := ⟨{}, 6⟩

namespace TakerAssetConverter

/-- The issuer of `parseXrpld`: that of XRP where none is given. -/
def issuerXrpld (isrErr : XrpldError) (key : String) (issuerView : FieldView) :
    Parsed AccountID :=
  if issuerView.present then do
    rejectIf (!issuerView.isString) rpcInvalidParams
      ("Invalid field '" ++ key ++ ".issuer', not string.")
    let account ← orReject (LibXrpl.toIssuer (← issuerView.asString)) isrErr
      ("Invalid field '" ++ key ++ ".issuer', bad issuer.")
    rejectIf (account = Xrpl.noAccount) isrErr
      ("Invalid field '" ++ key ++ ".issuer', bad issuer account one.")
    pure account
  else pure Xrpl.xrpAccount

/-- `parseXrpld`: the members are checked in this order and reported one by one. -/
def parseXrpld (amtErr isrErr : XrpldError) (fieldView : FieldView) : Parsed Asset := do
  let key := fieldView.key
  let currency ← orReject (LibXrpl.toCurrency (← (fieldView.child "currency").asString)) amtErr
    ("Invalid field '" ++ key ++ ".currency', bad currency.")
  let account ← issuerXrpld isrErr key (fieldView.child "issuer")
  rejectIf (Xrpl.isXRP currency && !Xrpl.isXRP account) isrErr
    ("Unneeded field '" ++ key ++ ".issuer' for XRP currency specification.")
  rejectIf (!Xrpl.isXRP currency && Xrpl.isXRP account) isrErr
    ("Invalid field '" ++ key ++ ".issuer', expected non-XRP issuer.")
  pure (.issue ⟨currency, account⟩)

/-- `parseClio`, behind the section: the texts have been checked. -/
def parseClio (isrErr : XrpldError) (fieldView : FieldView) : Parsed Asset := do
  let currSv ← (fieldView.child "currency").asString
  let currency ← orReject (LibXrpl.toCurrency currSv) isrErr
  let hasIssuer := (fieldView.child "issuer").present
  if Xrpl.isXRP currency then
    if hasIssuer then
      throw (unexpected isrErr
        ("Unneeded field '" ++ fieldView.key ++ ".issuer' for XRP currency specification."))
    else pure (.issue Xrpl.xrpIssue)
  else if !hasIssuer then pure (.issue ⟨currency, Xrpl.xrpAccount⟩)
  else do
    let issuerSv ← (fieldView.child "issuer").asString
    let issuer ← orReject (LibXrpl.toIssuer issuerSv) isrErr
    pure (.issue ⟨currency, issuer⟩)

end TakerAssetConverter

open TakerAssetConverter in
/-- `TakerAssetConverter<AmtErr, IsrErr>`. -/
def takerAssetConverter (amtErr isrErr : XrpldError) : Converter Asset where
  parse fieldView :=
    let mptView := fieldView.child "mpt_issuance_id"
    if mptView.present then do
      let text ← mptView.asString
      let mptId ← orReject (LibXrpl.parseHex 192 text) isrErr
      pure (.mptIssue mptId)
    else if kIsXrpldBuild then parseXrpld amtErr isrErr fieldView
    else parseClio isrErr fieldView

/-- `TakerConverter`. -/
def takerConv : Converter AccountID where
  parse fieldView :=
    if !fieldView.isString then throw (unexpected rpcInvalidParams "Invalid field 'taker'.")
    else do
      let str ← fieldView.asString
      let id := if kIsXrpldBuild then LibXrpl.parseBase58AccountID str
        else accountFromStringStrict str
      orReject id rpcInvalidParams "Invalid field 'taker'."

/-- What `kTakerValidator` asks of the members. -/
def verifyTakerMembers (fieldView : FieldView) : MaybeError := do
  let currencyView := fieldView.child "currency"
  let mptView := fieldView.child "mpt_issuance_id"
  let hasCurrency := currencyView.present
  let hasMptId := mptView.present
  rejectIf (!hasCurrency && !hasMptId) rpcInvalidParams
    ("Missing field '" ++ fieldView.key ++ ".currency'.")
  rejectIf (hasMptId && (hasCurrency || (fieldView.child "issuer").present)) rpcInvalidParams
    ("Invalid field '" ++ fieldView.key ++ "'.")
  rejectIf (hasCurrency && !currencyView.isString) rpcInvalidParams
    ("Invalid field '" ++ fieldView.key ++ ".currency', not string.")
  rejectIf (hasMptId && !mptView.isString) rpcInvalidParams
    ("Invalid field '" ++ fieldView.key ++
      (if kIsXrpldBuild then ".currency" else ".mpt_issuance_id") ++ "', not string.")

/-- The function of `kTakerValidator`, after its test for presence. -/
def verifyTaker (fieldView : FieldView) : MaybeError :=
  if kIsXrpldBuild then do
    rejectIf (!fieldView.isNull && !fieldView.isObject) rpcInvalidParams
      ("Invalid field '" ++ fieldView.key ++ "', not object.")
    verifyTakerMembers fieldView
  else if !fieldView.isObject then pure ()
  else verifyTakerMembers fieldView

/-- The checks of a side that are made on the object as a whole. -/
def kTakerValidator : Item Asset := customValidator verifyTaker

/-- The errors of this side are those of the source currency and issuer. -/
def takerPaysConv : Converter Asset := takerAssetConverter rpcSrcCurMalformed rpcSrcIsrMalformed

/-- The errors of this side are those of the destination. -/
def takerGetsConv : Converter Asset := takerAssetConverter rpcDstAmtMalformed rpcDstIsrMalformed

/-- The members of the two assets. -/
def takerFields (key : String) (amtErr isrErr : XrpldError) : List (FieldSpec Asset) :=
  [.mk "currency" [ifServerClio [withCustomError currency amtErr]],
  .mk "mpt_issuance_id"
    [ifServerXrpld
      [withCustomError uint192Hex amtErr ("Invalid field '" ++ key ++ ".mpt_issuance_id'")],
    ifServerClio [withCustomError uint192Hex amtErr]],
  .mk "issuer" [ifServerClio [withCustomError issuer isrErr]]]

/-- The items of the two assets. -/
def takerItems (key : String) (amtErr isrErr : XrpldError) : List (Item Asset) :=
  [required, ifServerClio [type [.object]], kTakerValidator,
    section_ (takerFields key amtErr isrErr)]

/-- Both sides have the same items and converter, with codes of their own. -/
def kInputSpec : TypedSpec Input where
  fields := [
    ledgerSelector ⟨"ledger", fun out v => { out with ledger := v }⟩,
    field "taker_pays" ⟨"takerPays", fun out v => { out with takerPays := v }⟩
      (takerItems "taker_pays" rpcSrcCurMalformed rpcSrcIsrMalformed) takerPaysConv,
    field "taker_gets" ⟨"takerGets", fun out v => { out with takerGets := v }⟩
      (takerItems "taker_gets" rpcDstAmtMalformed rpcDstIsrMalformed) takerGetsConv,
    field "taker" ⟨"taker", fun out v => { out with taker := some v }⟩
      [ifServerXrpld
        [withCustomError (type [.string]) rpcInvalidParams "Invalid field 'taker', not string."],
      ifServerClio [withCustomError account rpcInvalidParams "Invalid field 'taker'."]]
      takerConv,
    field "domain" ⟨"domain", fun out v => { out with domain := some v }⟩
      [withCustomError (type [.string]) rpcDomainMalformed "Unable to parse domain.",
      withCustomError uint256Hex rpcDomainMalformed "Unable to parse domain."]
      asString,
    -- the default stands before the bounds here
    field "limit" ⟨"limit", fun out v => { out with limit := v }⟩
      (serverLimitChecks kLimitDefault ++
        [defaultTo kLimitDefault, ifServerClio [clamp kLimitMin kLimitMax]])
      asUint32]
  complete := by rfl

/-! ### The two assets -/

/-- The member an asset is read from is a string. -/
def MembersAreStrings (v : FieldView) : Prop :=
  ((v.child "mpt_issuance_id").present = true → (v.child "mpt_issuance_id").isString = true) ∧
    ((v.child "mpt_issuance_id").present = false → (v.child "currency").isString = true)

omit [LibXrpl] in
/-- What it lets through has texts for members. -/
theorem verifyTakerMembers_safe (v : FieldView) :
    Safe (verifyTakerMembers v) fun _ => MembersAreStrings v := by
  refine safe_rejectIf_bind fun hone => safe_rejectIf_bind fun _ => ?_
  refine safe_rejectIf_bind fun hcurrency => safe_rejectIf.mono fun _ hmpt => ⟨?_, ?_⟩
  · intro hp
    simpa [hp] using hmpt
  · intro hp
    have hp' : (v.child "currency").present = true := by simpa [hp] using hone
    simpa [hp'] using hcurrency

omit [LibXrpl] in
/-- On Clio the check of the type before it has left an object. -/
theorem verifyTaker_safe {v : FieldView} (hclio : kIsClioBuild = true → v.isObject = true) :
    Safe (verifyTaker v) fun _ => MembersAreStrings v := by
  unfold verifyTaker
  split
  · exact safe_rejectIf_bind fun _ => verifyTakerMembers_safe v
  · rename_i hbuild
    simp only [hclio (by simpa [kIsXrpldBuild] using hbuild), Bool.not_true, Bool.false_eq_true,
      if_false]
    exact verifyTakerMembers_safe v

/-- What the items of an asset establish. -/
def TakerAccepted (v : FieldView) : Prop :=
  MembersAreStrings v ∧ (kIsClioBuild = true → (v.child "issuer").present = true →
    (v.child "issuer").isString = true)

/-- What the section leaves of each of its three members. -/
theorem takerFields_check (key : String) (amtErr isrErr : XrpldError) :
    List.Forall₂ (fun field Q => ItemsCheck field.items Q) (takerFields key amtErr isrErr)
      [fun _ => True, fun _ => True,
        fun v => kIsClioBuild = true → v.present = true → v.isString = true] := by
  refine .cons ?_ (.cons ?_ (.cons ?_ .nil))
  · exact .of_neverFault (by simp [FieldSpec.items]) rfl
  · exact .of_neverFault (by simp [FieldSpec.items]) rfl
  · have hissuer : (withCustomError issuer isrErr : Item Asset).Checks
        fun v => v.present = true → v.isString = true :=
      .withCustomError (.requirement fun v => (IssuerValidator.verify_safe v).mono
        fun _ h hp => (h hp).isString) _ _
    exact .single (.serverConditional (.inr rfl) (.single hissuer))

/-- After the items the converter may read the side. -/
theorem takerItems_meet (key : String) (amtErr isrErr : XrpldError) :
    ItemsMeet (fun _ => True) (takerItems key amtErr isrErr)
      fun v => v.present = true → TakerAccepted v := by
  have hsection := Item.Checks.section_ (takerFields_check key amtErr isrErr)
  have htype : (ifServerClio [type [.object]] : Item Asset).Meets (fun _ => True)
      fun v => kIsClioBuild = true → v.present = true → v.is .object = true :=
    .whenActive (.inr rfl) (.cons (type_meets .object) .nil)
  have hvalidator : kTakerValidator.Meets
      (fun v => kIsClioBuild = true → v.present = true → v.is .object = true)
      fun v => v.present = true → MembersAreStrings v :=
    .requirement fun v hv => safe_ifPresent fun hp => verifyTaker_safe fun hclio => hv hclio hp
  refine .cons required_neverFaults (.cons htype (.cons hvalidator (.cons
    ((Item.Checks.meets hsection).mono (fun _ h => h) fun v hv hp => ?_) .nil)))
  obtain ⟨hmembers, hsection⟩ := hv
  refine ⟨hmembers hp, ?_⟩
  cases (hsection hp).2 with
  | cons _ hrest =>
      cases hrest with
      | cons _ hrest =>
          cases hrest with
          | cons hissuer _ => exact hissuer

omit [Build] in
/-- An issuer that is there is asked for its kind. -/
theorem issuerXrpld_safe (isrErr : XrpldError) (key : String) (v : FieldView) :
    Safe (TakerAssetConverter.issuerXrpld isrErr key v) fun _ => True := by
  unfold TakerAssetConverter.issuerXrpld
  split
  · refine safe_rejectIf_bind fun hs => safe_asString_bind (by simpa using hs) fun _ _ => ?_
    exact safe_orReject_bind fun _ _ => safe_rejectIf_bind fun _ => trivial
  · trivial

omit [Build] in
/-- The currency is read as a text, and so must be one. -/
theorem parseXrpld_safe {amtErr isrErr : XrpldError} {v : FieldView}
    (h : (v.child "currency").isString = true) :
    Safe (TakerAssetConverter.parseXrpld amtErr isrErr v) fun _ => True := by
  refine safe_asString_bind h fun _ _ => safe_orReject_bind fun currency _ => ?_
  apply (issuerXrpld_safe isrErr v.key _).bind
  intro account _
  exact safe_rejectIf_bind fun _ => safe_rejectIf_bind fun _ => trivial

omit [Build] in
theorem parseClio_safe {isrErr : XrpldError} {v : FieldView}
    (hcurrency : (v.child "currency").isString = true)
    (hissuer : (v.child "issuer").present = true → (v.child "issuer").isString = true) :
    Safe (TakerAssetConverter.parseClio isrErr v) fun _ => True := by
  refine safe_asString_bind hcurrency fun _ _ => safe_orReject_bind fun currency _ => ?_
  dsimp only
  split
  · split <;> trivial
  · split
    · trivial
    · rename_i hp
      apply safe_asString_bind (hissuer (by simpa using hp))
      intro _ _
      exact safe_orReject_bind fun _ _ => trivial

/-- A side of the book, under either key. -/
theorem taker_neverFaults {Input : Type} {key : String} {member : Member Input Asset}
    {amtErr isrErr : XrpldError} {unguarded} :
    (field key member (takerItems key amtErr isrErr) (takerAssetConverter amtErr isrErr)
      unguarded).NeverFaults := by
  apply field_neverFaults_of_meets (takerItems_meet key amtErr isrErr)
  intro v hp hv
  obtain ⟨⟨hmpt, hcurrency⟩, hissuer⟩ := hv hp
  unfold takerAssetConverter
  dsimp only
  split
  · rename_i hp
    exact safe_asString_bind (hmpt hp) fun _ _ => safe_orReject_bind fun _ _ => trivial
  · rename_i hp
    have hcurrency := hcurrency (by simpa using hp)
    split
    · exact parseXrpld_safe hcurrency
    · rename_i hbuild
      exact parseClio_safe hcurrency (hissuer (by simpa [kIsXrpldBuild] using hbuild))

@[simp] theorem takerConv_neverFaults : takerConv.NeverFaults := fun _ =>
  safe_ite_not_asString (fun _ _ => safe_orReject_true) fun _ => trivial

/-- No field of the spec is listed twice. -/
theorem nodup_keys : (kInputSpec.fields.map Field.key).Nodup := by
  have hkeys : kInputSpec.fields.map Field.key =
      ["ledger_index", "taker_pays", "taker_gets", "taker", "domain", "limit"] := rfl
  rw [hkeys]
  decide

theorem kInputSpec_neverFaults : kInputSpec.NeverFaults := by
  simp [TypedSpec.NeverFaults, kInputSpec, takerPaysConv, takerGetsConv, taker_neverFaults]

end BookOffers

/-! ## `get_aggregate_price` -/

namespace GetAggregatePrice

/-- The largest share that may be trimmed, in percent. -/
def kTrimMax : UInt32 := 25

/-- How many oracles a request may name. -/
def kOraclesMax : Nat := 200

/-- An oracle: whose it is and the id of its document. -/
structure Oracle where
  documentId : UInt32
  account : AccountID
  deriving DecidableEq, Repr

/-- The list, or what is wrong with it. -/
abbrev DeferredOracles := Deferred (List Oracle)

/-- The oracles to ask, for which pair, and which of their prices count. -/
structure Input where
  ledger : LedgerSpecifier := .unspecified
  oracles : DeferredOracles := .error .missing
  baseAsset : Currency := 0
  quoteAsset : Currency := 0
  timeThreshold : Option UInt32 := none
  trim : Option UInt8 := none

instance : InputAggregate Input := ⟨{}, 6⟩

/-- The body of the loop of `kOraclesValidator`, on an element. -/
def modifyOracle : EStateM Failure FieldView Unit := do
  let elem ← get
  rejectIf (!elem.isObject) rpcOracleMalformed
  let docIdView := elem.child "oracle_document_id"
  let accountView := elem.child "account"
  rejectIf (!docIdView.present || !accountView.present) rpcOracleMalformed
  TypeIs.verify [.uint32, .string] docIdView
  FieldView.onChild "oracle_document_id" ToNumberModifier.modify
  (AccountBase58Validator.verify accountView).mapError (customFailure rpcInvalidParams "")

/-- The function of `kOraclesValidator`. -/
def modifyOracles : EStateM Failure FieldView Unit := do
  let fieldView ← get
  rejectIf (!fieldView.isArray || fieldView.arraySize == 0 || kOraclesMax < fieldView.arraySize)
    rpcOracleMalformed
  forM (List.range fieldView.arraySize) fun i => FieldView.onElement i modifyOracle

/-- Clio's check of the list, which rewrites the ids on its way. -/
def kOraclesValidator : Item DeferredOracles := customModifier modifyOracles

namespace OraclesConverter

/-- The `documentId` of xrpld: a number, or a string that spells one. -/
def documentId (docId : FieldView) : Parsed (Option UInt32) :=
  if docId.isUint32 then some <$> docId.asUint32
  else if docId.isString then lexicalUint32 <$> docId.asString
  else pure none

/-- The account of xrpld. -/
def addressOf (account : FieldView) : Parsed (Option AccountID) :=
  if account.isString then LibXrpl.parseBase58AccountID <$> account.asString else pure none

/-- The body of the loop: an oracle, or the error that ends it. -/
def parseOracle (elem : FieldView) : Parsed (Deferred Oracle) :=
  let docId := elem.child "oracle_document_id"
  let account := elem.child "account"
  if kIsXrpldBuild then
    if !docId.present || !account.present then pure (.error .malformed)
    else do
      match ← documentId docId, ← addressOf account with
      | some documentId, some id =>
          if id = 0 then pure (.error .invalid) else pure (.ok { documentId, account := id })
      | _, _ => pure (.error .invalid)
  else do
    let id ← orReject (accountFromStringStrict (← account.asString)) rpcInvalidParams
    let documentId ← docId.asUint32
    pure (.ok { documentId, account := id })

/-- The loop: the first element without an oracle ends it. -/
def parseOracles : List FieldView → List Oracle → Parsed DeferredOracles
  | [], result => pure (.ok result)
  | elem :: rest, result => do
      match ← parseOracle elem with
      | .ok oracle => parseOracles rest (result ++ [oracle])
      | .error why => pure (.error why)

end OraclesConverter

/-- `OraclesConverter`. -/
def oraclesConv : Converter DeferredOracles where
  parse fieldView := OraclesConverter.parseOracles fieldView.elements []

/-- `Uint8Converter`. -/
def uint8Conv : Converter UInt8 where
  parse fieldView := do
    rejectIf (!fieldView.isUint32) rpcInvalidParams
    UInt32.toUInt8 <$> fieldView.asUint32

/-- `CurrencyConverter`. -/
def currencyConv : Converter Currency where
  parse fieldView := do
    rejectIf (!fieldView.isString) rpcInvalidParams
    orReject (LibXrpl.toCurrency (← fieldView.asString)) rpcInvalidParams

/-- The checks of the oracles. -/
def oraclesItems : List (Item DeferredOracles) :=
  [required,
  ifServerXrpld
    [withCustomError (type [.array]) rpcOracleMalformed,
    withCustomError (minArrayLength 1) rpcOracleMalformed,
    withCustomError (maxArrayLength kOraclesMax) rpcOracleMalformed],
  ifServerClio [kOraclesValidator]]

/-- The checks of the two currencies. -/
def currencyItems : List (Item Currency) :=
  [required, ifServerXrpld [withCustomError strictCurrency rpcInvalidParams],
  ifServerClio [withCustomError currency rpcInvalidParams]]

/-- How the two numbers are given on each server. -/
def numberItems {α : Type} : List (Item α) :=
  [ifServerXrpld [type [.uint32, .string]], ifServerClio [type [.uint32]],
  ifServerXrpld [lexicalUint32Item]]

/-- The list is required on either server, the assets too. -/
def kInputSpec : TypedSpec Input where
  fields := [
    ledgerSelector ⟨"ledger", fun out v => { out with ledger := v }⟩,
    field "oracles" ⟨"oracles", fun out v => { out with oracles := v }⟩ oraclesItems oraclesConv,
    field "base_asset" ⟨"baseAsset", fun out v => { out with baseAsset := v }⟩ currencyItems
      currencyConv,
    field "quote_asset" ⟨"quoteAsset", fun out v => { out with quoteAsset := v }⟩ currencyItems
      currencyConv,
    field "trim" ⟨"trim", fun out v => { out with trim := some v }⟩
      (numberItems ++ [between 1 kTrimMax]) uint8Conv,
    field "time_threshold" ⟨"timeThreshold", fun out v => { out with timeThreshold := some v }⟩
      numberItems asUint32]
  complete := by rfl

/-! ### The oracles -/

/-- What the converter of Clio may read of an element. -/
def OracleAccepted (elem : FieldView) : Prop :=
  (elem.child "oracle_document_id").isUint32 = true ∧ (elem.child "account").isString = true

/-- One element: the object, its account and its id, left as the converter wants them. -/
theorem modifyOracle_safe (elem : FieldView) :
    SafeRun modifyOracle elem fun _ elem' => FieldView.SameField elem elem' ∧
      OracleAccepted elem' := by
  refine SafeRun.get_bind ?_
  refine SafeRun.bind (SafeRun.lift safe_rejectIf) ?_
  rintro _ elem ⟨-, rfl⟩
  refine SafeRun.bind (SafeRun.lift safe_rejectIf) ?_
  rintro _ elem ⟨hpresent, rfl⟩
  simp only [Bool.or_eq_false_iff, Bool.not_eq_eq_eq_not, Bool.not_false] at hpresent
  refine SafeRun.bind (SafeRun.lift (TypeIs.verify_safe _ _)) ?_
  rintro _ elem ⟨htype, rfl⟩
  have htype : (elem.child "oracle_document_id").isUint32 = true ∨
      (elem.child "oracle_document_id").isString = true := by
    simpa [FieldView.is] using htype hpresent.1
  refine SafeRun.bind (SafeRun.zoom (toNumber_meets (α := Unit) _ htype)) ?_
  rintro _ _ ⟨docId, ⟨hsame, hnumber⟩, rfl⟩
  refine (SafeRun.lift ((AccountBase58Validator.verify_safe _).mapError
    (customFailure_error _ _))).mono ?_
  rintro _ _ ⟨haccount, rfl⟩
  refine ⟨FieldView.sameField_putChild _ _ _, ?_, ?_⟩
  · have hchild : (elem.putChild "oracle_document_id" docId).child "oracle_document_id" = docId :=
      FieldView.child_putChild_same hsame.1 hsame.2
    rw [hchild]
    exact hnumber
  · rw [FieldView.child_putChild_ne (by decide)]
    exact (haccount hpresent.2).isString

theorem modifyOracles_safe (v : FieldView) :
    SafeRun modifyOracles v fun _ v' => FieldView.SameField v v' ∧
      ∀ elem ∈ v'.elements, OracleAccepted elem := by
  refine SafeRun.get_bind ?_
  refine SafeRun.bind (SafeRun.lift safe_rejectIf) ?_
  rintro _ v ⟨-, rfl⟩
  refine (forM_onElement_safe modifyOracle_safe v le_rfl).mono ?_
  rintro _ v' ⟨hsame, -, hsize, hall⟩
  refine ⟨hsame, ?_⟩
  intro elem helem
  obtain ⟨i, hi, rfl⟩ := FieldView.mem_elements.mp helem
  exact hall i (hsize ▸ hi)

/-- On Clio the elements are left so that the converter can read them. -/
theorem oraclesItems_meet : ItemsMeet (fun _ => True) oraclesItems fun v =>
    kIsClioBuild = true → v.present = true → ∀ elem ∈ v.elements, OracleAccepted elem := by
  have hvalidator : kOraclesValidator.Meets (fun _ => True)
      fun v => v.present = true → ∀ elem ∈ v.elements, OracleAccepted elem := by
    refine .modifier fun v _ => SafeRun.get_bind ?_
    split
    · rename_i hp
      exact ⟨.refl v, fun hpresent => by simp [hpresent] at hp⟩
    · exact (modifyOracles_safe v).mono fun _ v' ⟨hsame, hall⟩ => ⟨hsame, fun _ => hall⟩
  refine .cons required_neverFaults (.cons (ifServerXrpld_neverFaults (by simp)) ?_)
  exact .cons (.whenActive (.inl rfl) (.cons hvalidator .nil)) .nil

/-- On Clio the element has been looked at, on xrpld it is looked at now. -/
theorem parseOracle_safe {elem : FieldView} (h : kIsClioBuild = true → OracleAccepted elem) :
    Safe (OraclesConverter.parseOracle elem) fun _ => True := by
  unfold OraclesConverter.parseOracle
  dsimp only
  split
  · split
    · trivial
    · have hdocId : Safe (OraclesConverter.documentId (elem.child "oracle_document_id"))
          fun _ => True := by
        unfold OraclesConverter.documentId
        split
        · exact (FieldView.asUint32_safe ‹_›).map
        split
        · exact ((FieldView.asString_safe ‹_›).mono fun _ _ => trivial).map
        · trivial
      have haddress : Safe (OraclesConverter.addressOf (elem.child "account")) fun _ => True := by
        unfold OraclesConverter.addressOf
        split
        · exact ((FieldView.asString_safe ‹_›).mono fun _ _ => trivial).map
        · trivial
      refine hdocId.bind fun _ _ => haddress.bind fun _ _ => ?_
      split
      · split <;> trivial
      · trivial
  · rename_i hbuild
    obtain ⟨hdocId, haccount⟩ := h (by simpa [kIsXrpldBuild] using hbuild)
    refine safe_asString_bind haccount fun _ _ => safe_orReject_bind fun _ _ => ?_
    exact (FieldView.asUint32_safe hdocId).bind fun _ _ => trivial

theorem parseOracles_safe {elems : List FieldView}
    (h : ∀ elem ∈ elems, kIsClioBuild = true → OracleAccepted elem) (result : List Oracle) :
    Safe (OraclesConverter.parseOracles elems result) fun _ => True := by
  induction elems generalizing result with
  | nil => trivial
  | cons elem rest ih =>
      apply (parseOracle_safe (h elem (by simp))).bind
      intro oracle _
      cases oracle with
      | ok oracle => exact ih (fun e he => h e (by simp [he])) _
      | error why => trivial

/-- On Clio the list has been checked, on xrpld the converter looks for itself. -/
theorem oracles_neverFaults {Input : Type} {key : String} {member : Member Input DeferredOracles}
    {unguarded} : (field key member oraclesItems oraclesConv unguarded).NeverFaults :=
  field_neverFaults_of_meets oraclesItems_meet fun _ hp hv =>
    parseOracles_safe (fun elem helem hclio => hv hclio hp elem helem) []

/-! ### The spec -/

omit [Build] [LibXrpl] in
@[simp] theorem uint8Conv_neverFaults : uint8Conv.NeverFaults := fun _ =>
  safe_rejectIf_bind fun h => (FieldView.asUint32_safe (by simpa using h)).map

omit [Build] in
@[simp] theorem currencyConv_neverFaults : currencyConv.NeverFaults := fun _ =>
  safe_rejectIf_bind fun h => safe_asString_bind (by simpa using h) fun _ _ => safe_orReject_true

theorem kInputSpec_neverFaults : kInputSpec.NeverFaults := by
  simp [TypedSpec.NeverFaults, kInputSpec, oracles_neverFaults, currencyItems, numberItems]

end GetAggregatePrice

end RpcSpec.Handlers
