import RpcSpec.Handlers.Accounts
import RpcSpec.Handlers.Balances
import RpcSpec.Handlers.History
import RpcSpec.Handlers.LedgerEntrySelectors
import RpcSpec.Handlers.Ledgers
import RpcSpec.Handlers.Markets
import RpcSpec.Handlers.Subscriptions
import RpcSpec.Handlers.Tokens
set_option autoImplicit false

/-!
# All handlers

The specs of all handlers in one list, one entry for each version, and what holds of
every one of them.

`handlerSpecs` is the list. `parse_input_or_status_iff` is the result: a request is
answered with an `Input` or with an error by every handler, unless it asks `ledger_index`
for a time out of the range of the clock.
-/

namespace RpcSpec.Handlers

open RpcSpec.Dsl RpcSpec.Foundation

/-- A spec with the type it parses into. -/
structure HandlerSpec where
  handler : String
  {Input : Type}
  [aggregate : InputAggregate Input]
  spec : TypedSpec Input

attribute [instance] HandlerSpec.aggregate

section

variable [Build] [LibXrpl]

/-- Every `kInputSpec`, `kInputSpecV1` and `kInputSpecV2`. -/
def handlerSpecs : List HandlerSpec :=
  [⟨"account_channels", AccountChannels.kInputSpec⟩,
  ⟨"account_currencies", AccountCurrencies.kInputSpec⟩,
  ⟨"account_info", AccountInfo.kInputSpecV1⟩,
  ⟨"account_info", AccountInfo.kInputSpecV2⟩,
  ⟨"account_lines", AccountLines.kInputSpecV1⟩,
  ⟨"account_mptoken_issuances", AccountMptokenIssuances.kInputSpec⟩,
  ⟨"account_mptokens", AccountMptokens.kInputSpec⟩,
  ⟨"account_nfts", AccountNfts.kInputSpec⟩,
  ⟨"account_objects", AccountObjects.kInputSpecV1⟩,
  ⟨"account_offers", AccountOffers.kInputSpecV1⟩,
  ⟨"account_offers", AccountOffers.kInputSpecV2⟩,
  ⟨"account_tx", AccountTx.kInputSpecV1⟩,
  ⟨"account_tx", AccountTx.kInputSpecV2⟩,
  ⟨"amm_info", AmmInfo.kInputSpec⟩,
  ⟨"book_changes", BookChanges.kInputSpec⟩,
  ⟨"book_offers", BookOffers.kInputSpec⟩,
  ⟨"deposit_authorized", DepositAuthorized.kInputSpec⟩,
  ⟨"feature", Feature.kInputSpec⟩,
  ⟨"gateway_balances", GatewayBalances.kInputSpecV1⟩,
  ⟨"gateway_balances", GatewayBalances.kInputSpecV2⟩,
  ⟨"get_aggregate_price", GetAggregatePrice.kInputSpec⟩,
  ⟨"ledger", Ledger.kInputSpecV1⟩,
  ⟨"ledger", Ledger.kInputSpecV2⟩,
  ⟨"ledger_data", LedgerData.kInputSpec⟩,
  ⟨"ledger_entry", LedgerEntry.kInputSpec⟩,
  ⟨"ledger_index", LedgerIndex.kInputSpec⟩,
  ⟨"mpt_holders", MptHolders.kInputSpec⟩,
  ⟨"mptoken_issuance_history", MptokenIssuanceHistory.kInputSpec⟩,
  ⟨"nft_history", NftHistory.kInputSpecV1⟩,
  ⟨"nft_history", NftHistory.kInputSpecV2⟩,
  ⟨"nft_info", NftInfo.kInputSpec⟩,
  ⟨"nft_offers_common", NftOffersCommon.kInputSpec⟩,
  ⟨"nfts_by_issuer", NftsByIssuer.kInputSpec⟩,
  ⟨"noripple_check", NorippleCheck.kInputSpecV1⟩,
  ⟨"noripple_check", NorippleCheck.kInputSpecV2⟩,
  ⟨"server_info", ServerInfo.kInputSpec⟩,
  ⟨"subscribe", Subscribe.kInputSpec⟩,
  ⟨"transaction_entry", TransactionEntry.kInputSpec⟩,
  ⟨"tx", Tx.kInputSpecV1⟩,
  ⟨"tx", Tx.kInputSpecV2⟩,
  ⟨"unsubscribe", Unsubscribe.kInputSpec⟩,
  ⟨"vault_info", VaultInfo.kInputSpec⟩]

/-! ## No faults -/

/-- Spec by spec; what `ledger_index` does is told by the request. -/
theorem handlerSpecs_neverFault (hhex : HexHasNoNul 256) :
    ∀ handler ∈ handlerSpecs, handler.handler ≠ "ledger_index" → handler.spec.NeverFaults := by
  simp only [handlerSpecs, List.forall_mem_cons]
  exact ⟨fun _ => AccountChannels.kInputSpec_neverFaults,
    fun _ => AccountCurrencies.kInputSpec_neverFaults,
    fun _ => AccountInfo.kInputSpecV1_neverFaults, fun _ => AccountInfo.kInputSpecV2_neverFaults,
    fun _ => AccountLines.kInputSpecV1_neverFaults,
    fun _ => AccountMptokenIssuances.kInputSpec_neverFaults,
    fun _ => AccountMptokens.kInputSpec_neverFaults, fun _ => AccountNfts.kInputSpec_neverFaults,
    fun _ => AccountObjects.kInputSpecV1_neverFaults,
    fun _ => AccountOffers.kInputSpecV1_neverFaults,
    fun _ => AccountOffers.kInputSpecV2_neverFaults, fun _ => AccountTx.kInputSpecV1_neverFaults,
    fun _ => AccountTx.kInputSpecV2_neverFaults, fun _ => AmmInfo.kInputSpec_neverFaults,
    fun _ => BookChanges.kInputSpec_neverFaults, fun _ => BookOffers.kInputSpec_neverFaults,
    fun _ => DepositAuthorized.kInputSpec_neverFaults, fun _ => Feature.kInputSpec_neverFaults,
    fun _ => GatewayBalances.kInputSpecV1_neverFaults,
    fun _ => GatewayBalances.kInputSpecV2_neverFaults,
    fun _ => GetAggregatePrice.kInputSpec_neverFaults, fun _ => Ledger.kInputSpecV1_neverFaults,
    fun _ => Ledger.kInputSpecV2_neverFaults, fun _ => LedgerData.kInputSpec_neverFaults,
    fun _ => LedgerEntry.kInputSpec_neverFaults, fun h => absurd rfl h,
    fun _ => MptHolders.kInputSpec_neverFaults,
    fun _ => MptokenIssuanceHistory.kInputSpec_neverFaults,
    fun _ => NftHistory.kInputSpecV1_neverFaults, fun _ => NftHistory.kInputSpecV2_neverFaults,
    fun _ => NftInfo.kInputSpec_neverFaults, fun _ => NftOffersCommon.kInputSpec_neverFaults,
    fun _ => NftsByIssuer.kInputSpec_neverFaults, fun _ => NorippleCheck.kInputSpecV1_neverFaults,
    fun _ => NorippleCheck.kInputSpecV2_neverFaults, fun _ => ServerInfo.kInputSpec_neverFaults,
    fun _ => Subscribe.kInputSpec_neverFaults hhex,
    fun _ => TransactionEntry.kInputSpec_neverFaults, fun _ => Tx.kInputSpecV1_neverFaults,
    fun _ => Tx.kInputSpecV2_neverFaults, fun _ => Unsubscribe.kInputSpec_neverFaults hhex,
    fun _ => VaultInfo.kInputSpec_neverFaults, by simp⟩

theorem eq_ledgerIndex : ∀ handler ∈ handlerSpecs, handler.handler = "ledger_index" →
    handler = ⟨"ledger_index", LedgerIndex.kInputSpec⟩ := by
  simp [handlerSpecs]

/-- No fault, where the clock can tell the date. -/
theorem parse_safe (hhex : HexHasNoNul 256) {handler : HandlerSpec}
    (hmem : handler ∈ handlerSpecs) {root : Json}
    (hdate : handler.handler = "ledger_index" → LedgerIndex.DateFits root) :
    SafeRun handler.spec.parse root fun _ _ => True := by
  by_cases hname : handler.handler = "ledger_index"
  · obtain rfl := eq_ledgerIndex handler hmem hname
    exact LedgerIndex.parse_of_dateFits (hdate rfl)
  · exact TypedSpec.parse_safe (handlerSpecs_neverFault hhex handler hmem hname) root

/-- The requests `parse` returns an `Input` or a `Status` for, with no accessor used
outside its contract, no decoder throwing and nothing overflowing: all of them, but for
those that ask `ledger_index` for a date the clock cannot tell. -/
theorem parse_input_or_status_iff (hhex : HexHasNoNul 256) (handler : HandlerSpec)
    (hmem : handler ∈ handlerSpecs) (root : Json) :
    ((∃ input root', handler.spec.parse root = .ok input root') ∨
      ∃ status root', handler.spec.parse root = .error (.error status) root') ↔
    (handler.handler = "ledger_index" → LedgerIndex.DateFits root) := by
  constructor
  · intro hanswer hname
    obtain rfl := eq_ledgerIndex handler hmem hname
    by_contra hdate
    obtain ⟨root', hfault⟩ := LedgerIndex.parse_of_not_dateFits hdate
    simp [hfault] at hanswer
  · intro hdate
    rcases (parse_safe hhex hmem hdate).ok_or_error with ⟨input, root', hrun, -⟩ | hrun
    · exact .inl ⟨input, root', hrun⟩
    · exact .inr hrun

end

/-- A request for the stream of ledgers. -/
def ledgerStreamRequest : Json :=
  .object [("streams", .array [.string (bytesOf "ledger")])]

/-- A request with no date in it. -/
theorem parse_input_or_status_iff_ledgerStream :
    ((∃ input root', @TypedSpec.parse _ _ .clio hexLib (@Subscribe.kInputSpec .clio hexLib)
      ledgerStreamRequest = .ok input root') ∨
      ∃ status root', @TypedSpec.parse _ _ .clio hexLib (@Subscribe.kInputSpec .clio hexLib)
        ledgerStreamRequest = .error (.error status) root') ↔
    ("subscribe" = "ledger_index" → LedgerIndex.DateFits ledgerStreamRequest) :=
  @parse_input_or_status_iff .clio hexLib
    (@DocumentedHex.hexHasNoNul hexLib _ hexLib_documentedHex (by decide))
    ⟨"subscribe", @Subscribe.kInputSpec .clio hexLib⟩ (List.mem_of_getElem? (i := 36) rfl)
    ledgerStreamRequest

/-- A date of the format, past the end of the clock. -/
def lastYearRequest : Json := .object [("date", .string (bytesOf "9999-12-31T23:59:59Z"))]

/-- The validator of the date is the first to overflow. -/
theorem lastYear_not_answered :
    ¬ ((∃ input root', @TypedSpec.parse _ _ .clio hexLib LedgerIndex.kInputSpec
      lastYearRequest = .ok input root') ∨
      ∃ status root', @TypedSpec.parse _ _ .clio hexLib LedgerIndex.kInputSpec
        lastYearRequest = .error (.error status) root') := by
  have hdate : ¬ LedgerIndex.DateFits lastYearRequest := fun h =>
    absurd (LedgerIndex.dateFits_iff.mp h (bytesOf "9999-12-31T23:59:59Z") rfl) (by decide)
  obtain ⟨root', hfault⟩ := @LedgerIndex.parse_of_not_dateFits .clio hexLib _ hdate
  simp [hfault]

end RpcSpec.Handlers
