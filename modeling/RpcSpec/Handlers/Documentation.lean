import RpcSpec.Dsl.SpecDumpReading
import RpcSpec.Dsl.VersionedSpec
import RpcSpec.Handlers.AllHandlers
set_option autoImplicit false

/-!
# The schema a handler gives out

`HandlerFor::spec(apiVersion).dump` against `HandlerFor::parseInput` and the warnings: for
every handler and every version of the API the keys in the dump are those the request is
read by.  The guards of `ident` are for one server only, so that the dump does not show
them; they ask for `account`, which it names as a field.

`schema_documentsParse` is the result, over every handler, version and server: requests
that agree on the keys of the dump are parsed and warned of alike.
-/

namespace RpcSpec.Handlers

open RpcSpec.Dsl RpcSpec.Foundation

universe u

/-- A handler with its `kSpec`, which `specFor(Input const*)` returns. -/
structure VersionedHandler where
  handler : String
  {Input : Type}
  [aggregate : InputAggregate Input]
  kSpec : VersionedSpec (TypedSpec Input)

attribute [instance] VersionedHandler.aggregate

/-- `versioned(spec, …)`. -/
def versioned {Spec : Type u} (spec : Spec) (rest : List Spec := []) : VersionedSpec Spec :=
  ⟨spec :: rest, List.cons_ne_nil _ _⟩

section

variable [Build] [LibXrpl]

/-- Every `kSpec`. -/
def versionedHandlers : List VersionedHandler :=
  [⟨"account_channels", versioned AccountChannels.kInputSpec⟩,
  ⟨"account_currencies", versioned AccountCurrencies.kInputSpec⟩,
  ⟨"account_info", versioned AccountInfo.kInputSpecV1 [AccountInfo.kInputSpecV2]⟩,
  ⟨"account_lines", versioned AccountLines.kInputSpecV1⟩,
  ⟨"account_mptoken_issuances", versioned AccountMptokenIssuances.kInputSpec⟩,
  ⟨"account_mptokens", versioned AccountMptokens.kInputSpec⟩,
  ⟨"account_nfts", versioned AccountNfts.kInputSpec⟩,
  ⟨"account_objects", versioned AccountObjects.kInputSpecV1⟩,
  ⟨"account_offers", versioned AccountOffers.kInputSpecV1 [AccountOffers.kInputSpecV2]⟩,
  ⟨"account_tx", versioned AccountTx.kInputSpecV1 [AccountTx.kInputSpecV2]⟩,
  ⟨"amm_info", versioned AmmInfo.kInputSpec⟩,
  ⟨"book_changes", versioned BookChanges.kInputSpec⟩,
  ⟨"book_offers", versioned BookOffers.kInputSpec⟩,
  ⟨"deposit_authorized", versioned DepositAuthorized.kInputSpec⟩,
  ⟨"feature", versioned Feature.kInputSpec⟩,
  ⟨"gateway_balances", versioned GatewayBalances.kInputSpecV1 [GatewayBalances.kInputSpecV2]⟩,
  ⟨"get_aggregate_price", versioned GetAggregatePrice.kInputSpec⟩,
  ⟨"ledger", versioned Ledger.kInputSpecV1 [Ledger.kInputSpecV2]⟩,
  ⟨"ledger_data", versioned LedgerData.kInputSpec⟩,
  ⟨"ledger_entry", versioned LedgerEntry.kInputSpec⟩,
  ⟨"ledger_index", versioned LedgerIndex.kInputSpec⟩,
  ⟨"mpt_holders", versioned MptHolders.kInputSpec⟩,
  ⟨"mptoken_issuance_history", versioned MptokenIssuanceHistory.kInputSpec⟩,
  ⟨"nft_history", versioned NftHistory.kInputSpecV1 [NftHistory.kInputSpecV2]⟩,
  ⟨"nft_info", versioned NftInfo.kInputSpec⟩,
  ⟨"nft_offers_common", versioned NftOffersCommon.kInputSpec⟩,
  ⟨"nfts_by_issuer", versioned NftsByIssuer.kInputSpec⟩,
  ⟨"noripple_check", versioned NorippleCheck.kInputSpecV1 [NorippleCheck.kInputSpecV2]⟩,
  ⟨"server_info", versioned ServerInfo.kInputSpec⟩,
  ⟨"subscribe", versioned Subscribe.kInputSpec⟩,
  ⟨"transaction_entry", versioned TransactionEntry.kInputSpec⟩,
  ⟨"tx", versioned Tx.kInputSpecV1 [Tx.kInputSpecV2]⟩,
  ⟨"unsubscribe", versioned Unsubscribe.kInputSpec⟩,
  ⟨"vault_info", versioned VaultInfo.kInputSpec⟩]

/-- Each field is named outright, and guards ask for keys that are named. -/
theorem versionedHandlers_documentable : ∀ handler ∈ versionedHandlers,
    handler.kSpec.specs.all (fun spec => documentable spec.fields) = true := by
  simp only [versionedHandlers, List.forall_mem_cons]
  refine ⟨?_, ?_, ?_, ?_, ?_, ?_, ?_, ?_, ?_, ?_, ?_, ?_, ?_, ?_, ?_, ?_, ?_, ?_, ?_, ?_, ?_, ?_,
    ?_, ?_, ?_, ?_, ?_, ?_, ?_, ?_, ?_, ?_, ?_, ?_, by simp⟩
  all_goals rfl

/-- What the schema of a handler for a version says of what the handler does under it. -/
structure DocumentsParse {Input : Type} [InputAggregate Input]
    (kSpec : VersionedSpec (TypedSpec Input)) (shown : VersionedSpec (ShownSpec Input))
    (apiVersion : UInt32) : Prop where
  keysOnce : (dumpedKeys ((shown.view apiVersion).dump ⟨[], 0⟩).os).Nodup
  /-- the keys it names, and `ledger`, are all the handler goes by -/
  decides : ∀ root root' : Json,
    (∀ key ∈ "ledger" :: dumpedKeys ((shown.view apiVersion).dump ⟨[], 0⟩).os,
      root'.member? key = root.member? key) →
    kSpec.parse apiVersion root' = kSpec.parse apiVersion root ∧
      kSpec.check apiVersion root' = kSpec.check apiVersion root ∧
      (shown.view apiVersion).check root' = (shown.view apiVersion).check root

/-- Whatever the version a request is made under, the keys in the schema that the handler
gives out for it, and `ledger`, decide what the handler makes of the request. -/
theorem schema_documentsParse (handler : VersionedHandler) (hmem : handler ∈ versionedHandlers)
    (shown : VersionedSpec (ShownSpec handler.Input))
    (hshown : shown.specs.map ShownSpec.spec = handler.kSpec.specs)
    (hplain : ∀ spec ∈ shown.specs, Outline.AllPlain spec.outlines) (apiVersion : UInt32) :
    DocumentsParse handler.kSpec shown apiVersion := by
  have hspec : (shown.specFor apiVersion).spec = handler.kSpec.specFor apiVersion :=
    VersionedSpec.specFor_map hshown apiVersion
  have hplainFor := hplain _ (shown.specFor_mem apiVersion)
  have hview : shown.view apiVersion = (shown.specFor apiVersion).view :=
    shown.selected_eq apiVersion _
  have hdocumentable : documentable (shown.specFor apiVersion).spec.fields = true := by
    rw [hspec]
    exact List.all_eq_true.mp (versionedHandlers_documentable handler hmem) _
      (handler.kSpec.specFor_mem apiVersion)
  have hkeys : dumpedKeys ((shown.view apiVersion).dump ⟨[], 0⟩).os =
      namedKeys (shown.specFor apiVersion).spec.fields := by
    rw [hview]
    exact (ShownSpec.readsBack hplainFor).keys
  refine ⟨hkeys ▸ nodup_of_documentable hdocumentable, fun root root' hsame => ?_⟩
  have hsees : (shown.specFor apiVersion).spec.SeesOnly root root' :=
    seesOnly_of_documentable hdocumentable (hkeys ▸ hsame)
  have hparse (value : Json) : handler.kSpec.parse apiVersion value =
      answer ((shown.specFor apiVersion).spec.parse value) := by
    rw [VersionedSpec.parse, VersionedSpec.selected_eq, hspec]
  have hcheck (value : Json) : handler.kSpec.check apiVersion value =
      (shown.specFor apiVersion).spec.check value := by
    rw [VersionedSpec.check, VersionedSpec.selected_eq, hspec]
  rw [hparse, hparse, hcheck, hcheck, hview]
  exact ⟨hsees.answers, hsees.warnings, hsees.warnings⟩

end

namespace Feature

/-- What the `kName` of the items and of the converter are. -/
def kShownSpec : ShownSpec Input where
  spec := kInputSpec
  fields := [
    ⟨kInputSpec.fields.get ⟨0, Nat.succ_pos _⟩, [], .custom, rfl⟩,
    ⟨kInputSpec.fields.get ⟨1, Nat.succ_lt_succ (Nat.succ_pos _)⟩, [], .named "string", .nil⟩,
    ⟨kInputSpec.fields.get ⟨2, Nat.succ_lt_succ (Nat.succ_lt_succ (Nat.succ_pos _))⟩,
      [.wrapped "withCustomError"
        "The admin portion of feature API is not available through Clio." (.named "notSupported")],
      .custom, .cons (.withCustomError _ _ (.requirementNamed _ _)) .nil⟩]
  same := rfl

theorem kShownSpec_allPlain : Outline.AllPlain kShownSpec.outlines := by
  change Outline.AllPlain [
    groupOutline "ledger_hash" [bulletOutline "uint256Hex"],
    groupOutline "ledger_index" [bulletOutline "uint32 or shortcut (validated/current/closed)"],
    groupOutline "feature" [bulletOutline "string"],
    groupOutline "vetoed" [groupOutline "withCustomError"
      [(Param.param "message"
        (.text "The admin portion of feature API is not available through Clio.")).outline,
        bulletOutline "notSupported"]]]
  simp [Outline.AllPlain, Outline.Plain, groupOutline, bulletOutline, Param.outline, Scalar.shown,
    Outline.isLine_iff]

/-- The dump of `feature`. -/
theorem schema_documentsParse_feature : @DocumentsParse .clio hexLib _ _ (versioned kInputSpec)
    (versioned kShownSpec) 2 :=
  @schema_documentsParse .clio hexLib ⟨"feature", versioned kInputSpec⟩
    (List.mem_of_getElem? (i := 14) rfl) (versioned kShownSpec) rfl
    (List.forall_mem_singleton.mpr kShownSpec_allPlain) 2

end Feature

end RpcSpec.Handlers
