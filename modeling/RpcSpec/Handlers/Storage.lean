import RpcSpec.Handlers.AllHandlers
import RpcSpec.Dsl.BlindItems
set_option autoImplicit false

/-!
# Requests that differ in how integers are stored

No handler tells apart two requests that differ in whether some non-negative integers
are stored as `int64_t` or as `uint64_t`.

`answers_sameNumbers` is the result, with the `Input`, the error, the warnings and the
document left. What a handler writes itself has a lemma here, and the items of the library
have theirs in their own module.
-/

namespace RpcSpec.Handlers

open RpcSpec.Dsl RpcSpec.Foundation FieldView

variable {α : Type}

/-! ## What the handlers share -/

/-- Bounds of 32 bits compare numbers, and a clamped number is written back as one. -/
@[simp] theorem limitItems_blind (kMin kMax kDefault lo : UInt32) :
    ItemsBlind (limitItems kMin kMax kDefault lo) := by
  simp [limitItems]

/-- The default that stands in for `null` on xrpld is the same number in either storage. -/
@[simp] theorem serverLimitChecks_blind [Build] (kDefault : UInt32) :
    ItemsBlind (serverLimitChecks kDefault) := by
  simp [serverLimitChecks]

@[simp] theorem serverLimitItems_blind [Build] (kMin kMax kDefault : UInt32) :
    ItemsBlind (serverLimitItems kMin kMax kDefault) := by
  simp [serverLimitItems]

@[simp] theorem txTypeValidator_blind [LibXrpl] : (txTypeValidator : Item α).Blind :=
  customValidator_blind fun v => by simp

@[simp] theorem int32BoundItems_blind : ItemsBlind int32BoundItems := by simp [int32BoundItems]

@[simp] theorem int32BoundConverter_blind : int32BoundConverter.Blind := fun v => by
  simp [int32BoundConverter]

@[simp] theorem markerItems_blind [Build] : ItemsBlind markerItems := by
  simp [markerItems, markerFields]

/-- The two members are read as 32-bit numbers, each by its own accessor. -/
@[simp] theorem markerConverter_blind : markerConverter.Blind := fun v => by
  simp [markerConverter]

/-! ## What a handler writes itself -/

variable [Build] [LibXrpl]

namespace AccountLines

/-- Neither of the converters it chooses between reads a number. -/
theorem linesAccount_blind : linesAccount.Blind := fun v => by
  simp [linesAccount, Converter.deferredAccountId_blind v,
    Converter.accountIdActMalformed_blind v]

omit [LibXrpl] in
/-- A number is coerced by whether it is zero. -/
theorem asBool_blind : asBool.Blind := fun v => by
  simp [asBool, Converter.jsonBool_blind v]

end AccountLines

namespace AccountTx

omit [Build] in
theorem kDelegateValidator_blind : kDelegateValidator.Blind :=
  customValidator_blind fun v => by
    simp only [verifyDelegate, AccountFormat.verify, ifPresent, storedUnsigned_key,
      storedUnsigned_isObject, storedUnsigned_child, storedUnsigned_present,
      storedUnsigned_isString, storedUnsigned_asString]

omit [Build] [LibXrpl] in
theorem delegateConv_blind : delegateConv.Blind := fun v => by simp [delegateConv]

end AccountTx

namespace AmmInfo

theorem assetItems_blind : ItemsBlind assetItems := by
  have hissue : kStringIssueValidator.Blind := customValidator_blind fun v => by simp
  simp [assetItems, hissue]

omit [Build] in
theorem issueConv_blind : issueConv.Blind := fun v => by simp [issueConv]

end AmmInfo

namespace BookOffers

/-- The section below the key is blind because each of its items is. -/
theorem takerItems_blind (key : String) (amtErr isrErr : XrpldError) :
    ItemsBlind (takerItems key amtErr isrErr) := by
  have htaker : kTakerValidator.Blind :=
    customValidator_blind fun v => by simp [verifyTaker, verifyTakerMembers]
  simp [takerItems, takerFields, htaker]

omit [Build] in
/-- On xrpld the members are asked for their kinds, and a number has the same in either
storage. -/
theorem parseXrpld_blind (amtErr isrErr : XrpldError) :
    Blind (TakerAssetConverter.parseXrpld amtErr isrErr) := fun v => by
  have hissuer (key : String) (issuerView : FieldView) :
      TakerAssetConverter.issuerXrpld isrErr key issuerView.storedUnsigned =
        TakerAssetConverter.issuerXrpld isrErr key issuerView := by
    unfold TakerAssetConverter.issuerXrpld
    rw [storedUnsigned_present, storedUnsigned_isString, storedUnsigned_asString]
  unfold TakerAssetConverter.parseXrpld
  rw [storedUnsigned_key, storedUnsigned_child, storedUnsigned_asString, storedUnsigned_child]
  simp only [hissuer]

omit [Build] in
/-- On Clio the section has seen to the kinds. -/
theorem parseClio_blind (isrErr : XrpldError) :
    Blind (TakerAssetConverter.parseClio isrErr) := fun v => by
  unfold TakerAssetConverter.parseClio
  rw [storedUnsigned_key, storedUnsigned_child, storedUnsigned_asString, storedUnsigned_child,
    storedUnsigned_present, storedUnsigned_asString]

theorem takerAssetConverter_blind (amtErr isrErr : XrpldError) :
    (takerAssetConverter amtErr isrErr).Blind := fun v => by
  simp [takerAssetConverter, parseXrpld_blind amtErr isrErr v, parseClio_blind isrErr v]

theorem takerConv_blind : takerConv.Blind := fun v => by simp [takerConv]

end BookOffers

namespace DepositAuthorized

theorem credentialsItems_blind : ItemsBlind credentialsItems := by simp [credentialsItems]

omit [Build] in
theorem credentialsArrayConv_blind : credentialsArrayConv.Blind := fun v => by
  simp [credentialsArrayConv, Function.comp_def]

end DepositAuthorized

namespace GatewayBalances

omit [Build]

theorem verifyHotWallet_blind (code : XrpldError) :
    (customValidator (verifyHotWallet code) : Item α).Blind :=
  customValidator_blind fun v => by simp [verifyHotWallet, getAccountID]

theorem parseOne_storedUnsigned (result : Finset AccountID) (elem : FieldView) :
    parseOne result elem.storedUnsigned = parseOne result elem := by
  simp [parseOne]

/-- The loop over the elements refuses alike at the same place. -/
theorem hotWalletConv_blind : hotWalletConv.Blind := fun v => by
  simp [hotWalletConv, parseOne_storedUnsigned, List.foldlM_map]

end GatewayBalances

namespace GetAggregatePrice

/-- The document id of one oracle is rewritten to the same number. -/
theorem modifyOracle_lockstep : Lockstep SameNumbers modifyOracle := by
  refine lockstep_get_bind (fun v => by simp) fun v => ?_
  refine .bind (.monadLift _) fun _ => .bind (.monadLift _) fun _ =>
    .bind (.monadLift _) fun _ => ?_
  exact .bind (lockstep_onChild _ toNumber_modify_lockstep) fun _ => .monadLift _

/-- Element by element, and the loops stop at the same one. -/
theorem modifyOracles_lockstep : Lockstep SameNumbers modifyOracles := by
  refine lockstep_get_bind (fun v => by simp) fun v => .bind (.monadLift _) fun _ => ?_
  exact .forM fun idx _ => lockstep_onElement idx modifyOracle_lockstep

/-- `kOraclesValidator` is a modifier: it rewrites the document ids. -/
theorem oraclesItems_blind : ItemsBlind oraclesItems := by
  have horacles : kOraclesValidator.Blind := customModifier_blind modifyOracles_lockstep
  simp [oraclesItems, horacles]

/-- The document id is read by an accessor that does not tell the storages apart. -/
theorem parseOracle_storedUnsigned (elem : FieldView) :
    OraclesConverter.parseOracle elem.storedUnsigned = OraclesConverter.parseOracle elem := by
  simp [OraclesConverter.parseOracle, OraclesConverter.documentId, OraclesConverter.addressOf]

theorem parseOracles_map (elems : List FieldView) (result : List Oracle) :
    OraclesConverter.parseOracles (elems.map storedUnsigned) result =
      OraclesConverter.parseOracles elems result := by
  induction elems generalizing result with
  | nil => rfl
  | cons elem rest ih =>
      simp only [List.map_cons, OraclesConverter.parseOracles, parseOracle_storedUnsigned, ih]

theorem oraclesConv_blind : oraclesConv.Blind := fun v => by
  simp [oraclesConv, parseOracles_map]

theorem currencyItems_blind : ItemsBlind currencyItems := by simp [currencyItems]

omit [Build] in
theorem currencyConv_blind : currencyConv.Blind := fun v => by simp [currencyConv]

omit [LibXrpl] in
theorem numberItems_blind : ItemsBlind (numberItems : List (Item α)) := by simp [numberItems]

omit [Build] [LibXrpl] in
/-- The number is read as 32 bits before it is cut to eight. -/
theorem uint8Conv_blind : uint8Conv.Blind := fun v => by simp [uint8Conv]

end GetAggregatePrice

namespace LedgerData

theorem markerConv_blind : markerConv.Blind := fun v => by simp [markerConv]

omit [Build] [LibXrpl] in
theorem ledgerEntryTypeConv_blind : ledgerEntryTypeConv.Blind := fun v => by
  simp [ledgerEntryTypeConv]

end LedgerData

/-! ### Subscriptions -/

omit [LibXrpl] in
theorem kSubscribeStreamValidator_blind : kSubscribeStreamValidator.Blind :=
  requirement_blind fun v => by simp [StreamsValidator.verify, ifPresent]

omit [Build] [LibXrpl] in
theorem streamVecConv_blind : streamVecConv.Blind := fun v => by
  simp [streamVecConv, Function.comp_def]

omit [Build] in
theorem verifySubscribeAccounts_blind :
    (customValidator verifySubscribeAccounts : Item α).Blind :=
  customValidator_blind fun v => by simp [verifySubscribeAccounts]

omit [Build] in
theorem bookCurrency_storedUnsigned (code : XrpldError) (v : FieldView) :
    bookCurrency code v.storedUnsigned = bookCurrency code v := by
  simp [bookCurrency]

omit [Build] in
theorem bookIssuer_storedUnsigned (errors : IssuerErrors) (currency : Currency) (v : FieldView) :
    bookIssuer errors currency v.storedUnsigned = bookIssuer errors currency v := by
  simp [bookIssuer, givenIssuer]

omit [Build] in
/-- The two sides and what else a server asks of a book. -/
theorem verifyBook_storedUnsigned {extras : FieldView → MaybeError} (hextras : Blind extras)
    (key : String) (book : FieldView) :
    verifyBook extras key book.storedUnsigned = verifyBook extras key book := by
  simp [verifyBook, hextras book, bookCurrency_storedUnsigned, bookIssuer_storedUnsigned]

omit [Build] in
theorem verifyBooks_blind {extras : FieldView → MaybeError} (hextras : Blind extras) :
    (customValidator (verifyBooks extras) : Item α).Blind :=
  customValidator_blind fun v => by simp [verifyBooks, verifyBook_storedUnsigned hextras]

omit [Build] in
theorem bookOf_storedUnsigned (book : FieldView) : bookOf book.storedUnsigned = bookOf book := by
  simp [bookOf, issuerOrXrp, bookDomain]

omit [Build] [LibXrpl] in
theorem bookFlag_storedUnsigned (v : FieldView) : bookFlag v.storedUnsigned = bookFlag v := by
  simp [bookFlag]

/-- Streams, accounts, books and the members that only xrpld reads. -/
theorem Subscribe.kInputSpec_blind : Subscribe.kInputSpec.Blind := by
  have hbooks : Subscribe.kBooksValidator.Blind :=
    verifyBooks_blind fun book => by simp [Subscribe.verifyExtras]
  have hbook (book : FieldView) :
      Subscribe.orderBookOf book.storedUnsigned = Subscribe.orderBookOf book := by
    simp [Subscribe.orderBookOf, Subscribe.bookTaker, bookFlag_storedUnsigned,
      bookOf_storedUnsigned]
  have hconv : Subscribe.subscribeBooksConv.Blind := fun v => by
    simp [Subscribe.subscribeBooksConv, Function.comp_def, hbook]
  simp [TypedSpec.Blind, Subscribe.kInputSpec, Subscribe.kSubscribeAccountsValidator,
    kSubscribeStreamValidator_blind, streamVecConv_blind, verifySubscribeAccounts_blind, hbooks,
    hconv]

theorem Unsubscribe.kInputSpec_blind : Unsubscribe.kInputSpec.Blind := by
  have hbooks : Unsubscribe.kBooksValidator.Blind := verifyBooks_blind fun _ => rfl
  have hbook (book : FieldView) :
      Unsubscribe.orderBookOf book.storedUnsigned = Unsubscribe.orderBookOf book := by
    simp [Unsubscribe.orderBookOf, bookFlag_storedUnsigned, bookOf_storedUnsigned]
  have hconv : Unsubscribe.unsubscribeBooksConv.Blind := fun v => by
    simp [Unsubscribe.unsubscribeBooksConv, Function.comp_def, hbook]
  simp [TypedSpec.Blind, Unsubscribe.kInputSpec, Unsubscribe.kSubscribeAccountsValidator,
    kSubscribeStreamValidator_blind, streamVecConv_blind, verifySubscribeAccounts_blind, hbooks,
    hconv]

/-! ### `ledger_entry` -/

namespace LedgerEntry

omit [Build] in
@[simp] theorem accountOf_storedUnsigned (v : FieldView) :
    accountOf v.storedUnsigned = accountOf v := by
  simp [accountOf]

omit [Build] in
@[simp] theorem uint256Of_storedUnsigned (v : FieldView) :
    uint256Of v.storedUnsigned = uint256Of v := by
  simp [uint256Of]

omit [Build] in
@[simp] theorem issueFromCurrencyIssue_storedUnsigned (v : FieldView) :
    issueFromCurrencyIssue v.storedUnsigned = issueFromCurrencyIssue v := by
  simp [issueFromCurrencyIssue]

omit [Build] in
@[simp] theorem bridgeSpecFromObject_storedUnsigned (v : FieldView) :
    bridgeSpecFromObject v.storedUnsigned = bridgeSpecFromObject v := by
  simp [bridgeSpecFromObject]

omit [Build] in
@[simp] theorem authorizeCredentialOf_storedUnsigned (v : FieldView) :
    authorizeCredentialOf v.storedUnsigned = authorizeCredentialOf v := by
  simp [authorizeCredentialOf]

omit [Build] in
/-- A selector is a hash, or an object whose members are read blindly. -/
theorem hashOrEntry_blind {β : Type} {entryOf : FieldView → Parsed β} (h : Blind entryOf) :
    (hashOrEntry entryOf).Blind := fun v => by simp [hashOrEntry, h v]

@[simp] theorem kRippleStateAccountsValidator_blind :
    (kRippleStateAccountsValidator : Item α).Blind :=
  customValidator_blind fun v => by simp [verifyRippleStateAccounts]

omit [Build] in
theorem selectorConverters_blind : directoryConv.Blind ∧ offerConv.Blind ∧ escrowConv.Blind ∧
    ticketConv.Blind ∧ permissionedDomainConv.Blind ∧ vaultConv.Blind ∧ loanBrokerConv.Blind ∧
    loanConv.Blind ∧ delegateConv.Blind ∧ sponsorshipConv.Blind ∧ mptokenConv.Blind ∧
    ammConv.Blind ∧ oracleConv.Blind ∧ credentialConv.Blind ∧ depositPreauthConv.Blind ∧
    rippleStateConv.Blind ∧ xChainClaimIdConv.Blind ∧ xChainCreateAccountClaimIdConv.Blind := by
  refine ⟨?_, ?_, ?_, ?_, ?_, ?_, ?_, ?_, ?_, ?_, ?_, ?_, ?_, ?_, ?_, ?_, ?_, ?_⟩ <;>
    exact hashOrEntry_blind fun v => by simp [Function.comp_def]

omit [Build] in
theorem bridgeConv_blind : bridgeConv.Blind := fun v => by simp [bridgeConv]

/-- All selectors, each through what it is made of. -/
theorem kInputSpec_blind : kInputSpec.Blind := by
  simp only [TypedSpec.Blind, kInputSpec, indexField, List.forall_mem_cons, field_blind,
    alias_blind, unboundField_blind, selectorConverters_blind, bridgeConv_blind]
  simp [selectorItems, depositPreauthFields, directoryFields, escrowFields, offerFields,
    rippleStateFields, ticketFields, ammFields, assetItems, oracleFields, credentialFields,
    mptokenFields, permissionedDomainFields, vaultFields, loanBrokerFields, loanFields,
    delegateFields, sponsorshipFields, bridgeItems, xChainItems, stringOrObject,
    malformedUnlessStringOrObject, malformedAddressUnlessHash, requiredOrMalformed,
    accountOrMalformed, ownerOrMalformed, kMalformedRequestIntValidator,
    kMalformedRequestHexStringValidator, kBridgeJsonValidator, bridgeFields]

end LedgerEntry

/-! ## Every handler -/

/-- Every spec of every handler: the lemmas above, put together. -/
theorem handlerSpecs_blind : ∀ handler ∈ handlerSpecs, handler.spec.Blind := by
  simp only [handlerSpecs, List.forall_mem_cons]
  refine ⟨?accountChannels, ?accountCurrencies, ?accountInfoV1, ?accountInfoV2, ?accountLines,
    ?accountMptokenIssuances, ?accountMptokens, ?accountNfts, ?accountObjects, ?accountOffersV1,
    ?accountOffersV2, ?accountTxV1, ?accountTxV2, ?ammInfo, ?bookChanges, ?bookOffers,
    ?depositAuthorized, ?feature, ?gatewayBalancesV1, ?gatewayBalancesV2, ?getAggregatePrice,
    ?ledgerV1, ?ledgerV2, ?ledgerData, ?ledgerEntry, ?ledgerIndex, ?mptHolders,
    ?mptokenIssuanceHistory, ?nftHistoryV1, ?nftHistoryV2, ?nftInfo, ?nftOffersCommon,
    ?nftsByIssuer, ?norippleCheckV1, ?norippleCheckV2, ?serverInfo, ?subscribe,
    ?transactionEntry, ?txV1, ?txV2, ?unsubscribe, ?vaultInfo, by simp⟩
  case accountChannels => simp [TypedSpec.Blind, AccountChannels.kInputSpec]
  case accountCurrencies => simp [TypedSpec.Blind, AccountCurrencies.kInputSpec]
  case accountInfoV1 => simp [TypedSpec.Blind, AccountInfo.kInputSpecV1]
  case accountInfoV2 =>
    simp [TypedSpec.Blind, extend, AccountInfo.kInputSpecV1, AccountInfo.kInputSpecV2]
  case accountLines =>
    simp [TypedSpec.Blind, AccountLines.kInputSpecV1, AccountLines.linesAccount_blind,
      AccountLines.asBool_blind]
  case accountMptokenIssuances => simp [TypedSpec.Blind, AccountMptokenIssuances.kInputSpec]
  case accountMptokens => simp [TypedSpec.Blind, AccountMptokens.kInputSpec]
  case accountNfts => simp [TypedSpec.Blind, AccountNfts.kInputSpec]
  case accountObjects =>
    have howned : AccountObjects.accountOwnedTypeConv.Blind := fun v => by
      simp [AccountObjects.accountOwnedTypeConv]
    have hmarker : AccountObjects.markerStringConv.Blind := fun v => by
      simp [AccountObjects.markerStringConv]
    simp [TypedSpec.Blind, AccountObjects.kInputSpecV1, howned, hmarker]
  case accountOffersV1 | accountOffersV2 =>
    simp [TypedSpec.Blind, AccountOffers.kInputSpecV1, AccountOffers.kInputSpecV2]
  case accountTxV1 | accountTxV2 =>
    simp [TypedSpec.Blind, extend, AccountTx.kInputSpecV1, AccountTx.kInputSpecV2,
      AccountTx.int32Bound, AccountTx.markerConv, AccountTx.kTxTypeValidator,
      AccountTx.kDelegateValidator_blind, AccountTx.delegateConv_blind]
  case ammInfo =>
    simp [TypedSpec.Blind, AmmInfo.kInputSpec, AmmInfo.assetItems_blind, AmmInfo.issueConv_blind]
  case bookChanges => simp [TypedSpec.Blind, BookChanges.kInputSpec]
  case bookOffers =>
    simp [TypedSpec.Blind, BookOffers.kInputSpec, BookOffers.takerItems_blind,
      BookOffers.takerPaysConv, BookOffers.takerGetsConv, BookOffers.takerAssetConverter_blind,
      BookOffers.takerConv_blind]
  case depositAuthorized =>
    simp [TypedSpec.Blind, DepositAuthorized.kInputSpec,
      DepositAuthorized.credentialsItems_blind, DepositAuthorized.credentialsArrayConv_blind]
  case feature => simp [TypedSpec.Blind, Feature.kInputSpec]
  case gatewayBalancesV1 | gatewayBalancesV2 =>
    simp [TypedSpec.Blind, extend, GatewayBalances.kInputSpecV1, GatewayBalances.kInputSpecV2,
      GatewayBalances.kHotWalletV1, GatewayBalances.kHotWalletV2,
      GatewayBalances.verifyHotWallet_blind, GatewayBalances.hotWalletConv_blind]
  case getAggregatePrice =>
    simp [TypedSpec.Blind, GetAggregatePrice.kInputSpec, GetAggregatePrice.oraclesItems_blind,
      GetAggregatePrice.oraclesConv_blind, GetAggregatePrice.currencyItems_blind,
      GetAggregatePrice.currencyConv_blind, GetAggregatePrice.numberItems_blind,
      GetAggregatePrice.uint8Conv_blind]
  case ledgerV1 | ledgerV2 =>
    simp [TypedSpec.Blind, extend, Ledger.kInputSpecV1, Ledger.kInputSpecV2]
  case ledgerData =>
    simp [TypedSpec.Blind, LedgerData.kInputSpec, LedgerData.markerConv_blind,
      LedgerData.ledgerEntryTypeConv_blind]
  case ledgerEntry => exact LedgerEntry.kInputSpec_blind
  case ledgerIndex =>
    have hdate : LedgerIndex.dateConv.Blind := fun v => by simp [LedgerIndex.dateConv]
    simp [TypedSpec.Blind, LedgerIndex.kInputSpec, hdate]
  case mptHolders =>
    have hholder : MptHolders.accountIdHex.Blind := Converter.hexConverter_blind
    simp [TypedSpec.Blind, MptHolders.kInputSpec, hholder]
  case mptokenIssuanceHistory =>
    simp [TypedSpec.Blind, MptokenIssuanceHistory.kInputSpec,
      MptokenIssuanceHistory.kTxTypeValidator, MptokenIssuanceHistory.int32Bound,
      MptokenIssuanceHistory.markerConv]
  case nftHistoryV1 | nftHistoryV2 =>
    simp [TypedSpec.Blind, NftHistory.kInputSpecV1, NftHistory.kInputSpecV2,
      NftHistory.int32Bound, NftHistory.markerConv]
  case nftInfo => simp [TypedSpec.Blind, NftInfo.kInputSpec]
  case nftOffersCommon => simp [TypedSpec.Blind, NftOffersCommon.kInputSpec]
  case nftsByIssuer => simp [TypedSpec.Blind, NftsByIssuer.kInputSpec]
  case norippleCheckV1 | norippleCheckV2 =>
    have hrole : NorippleCheck.roleGateway.Blind := fun v => by simp [NorippleCheck.roleGateway]
    simp [TypedSpec.Blind, extend, NorippleCheck.kInputSpecV1, NorippleCheck.kInputSpecV2, hrole]
  case serverInfo => simp [TypedSpec.Blind, ServerInfo.kInputSpec]
  case subscribe => exact Subscribe.kInputSpec_blind
  case transactionEntry =>
    have hhash : TransactionEntry.txHashConverter.Blind := fun v => by
      simp [TransactionEntry.txHashConverter]
    simp [TypedSpec.Blind, TransactionEntry.kInputSpec, hhash]
  case txV1 | txV2 =>
    have hupper : Tx.toUpper.Blind := mapText_blind _
    simp [TypedSpec.Blind, extend, Tx.kInputSpecV1, Tx.kInputSpecV2, hupper]
  case unsubscribe => exact Unsubscribe.kInputSpec_blind
  case vaultInfo =>
    have howner : VaultInfo.ownerConv.Blind := fun v => by simp [VaultInfo.ownerConv]
    simp [TypedSpec.Blind, VaultInfo.kInputSpec, howner]

/-- Requests that differ only in how non-negative integers are stored are answered with the
same `Input` or the same failure, and with the same warnings. -/
theorem answers_sameNumbers (handler : HandlerSpec) (hmem : handler ∈ handlerSpecs)
    {root root' : Json} (hroot : root.SameNumbers root') :
    answer (handler.spec.parse root) = answer (handler.spec.parse root') ∧
      handler.spec.check root = handler.spec.check root' :=
  TypedSpec.parse_check_sameNumbers (handlerSpecs_blind handler hmem) hroot

/-- A request for a transaction among ledgers from a first one on. -/
def minLedgerRequest (seq : Json) : Json := .object [("min_ledger", seq)]

omit [Build] [LibXrpl] in
theorem answers_sameNumbers_minLedger :
    answer (@TypedSpec.parse _ _ .clio hexLib (@Tx.kInputSpecV1 .clio hexLib)
      (minLedgerRequest (.int64 7))) =
      answer (@TypedSpec.parse _ _ .clio hexLib (@Tx.kInputSpecV1 .clio hexLib)
        (minLedgerRequest (.uint64 7))) ∧
    @TypedSpec.check _ _ .clio (@Tx.kInputSpecV1 .clio hexLib) (minLedgerRequest (.int64 7)) =
      @TypedSpec.check _ _ .clio (@Tx.kInputSpecV1 .clio hexLib) (minLedgerRequest (.uint64 7)) :=
  @answers_sameNumbers .clio hexLib ⟨"tx", @Tx.kInputSpecV1 .clio hexLib⟩
    (List.mem_of_getElem? (i := 38) rfl) (minLedgerRequest (.int64 7))
    (minLedgerRequest (.uint64 7)) rfl

end RpcSpec.Handlers
