import RpcSpec.Handlers.AllHandlers
import RpcSpec.Handlers.Writers
set_option autoImplicit false

/-!
# What a request looks like after a parse

For every handler: where the parse may have written, and that parsing what it has left
gives the same `Input` and changes nothing more.

`parse_leavesFrame` and `parse_parsed` are the two results, for every entry of the list of
handlers. Both rest on one lemma for each field that carries a modifier.
-/

namespace RpcSpec.Handlers

open RpcSpec.Dsl RpcSpec.Foundation Dsl.Field

/-! ## The fields that rewrite, handler by handler -/

theorem ledgerRange_normalizes {Input : Type} {lo hi : Member Input (Option Int32)}
    {limit : Member Input UInt32} (rest : List (Dsl.Field Input))
    (hrest : rest.Forall Field.Normalizes) {kMin kMax : UInt32} (h : kMin ≤ kMax) :
    (field "ledger_index_min" lo int32BoundItems int32BoundConverter ::
      field "ledger_index_max" hi int32BoundItems int32BoundConverter ::
      field "limit" limit [type [.uint32], min kMin, clamp kMin kMax] asUint32 ::
      rest).Forall Field.Normalizes := by
  simp only [List.forall_cons]
  exact ⟨normalizes_field int32BoundItems_normalizes,
    normalizes_field int32BoundItems_normalizes,
    normalizes_field (boundedUint32_normalizes (UInt32.le_refl _) h), hrest⟩

variable [Build] [LibXrpl]

/-- Every field with a modifier is of one of the few kinds that settle. -/
theorem handlerSpecs_normalize : ∀ handler ∈ handlerSpecs, handler.spec.Normalizes := by
  simp only [handlerSpecs, List.forall_mem_cons]
  refine ⟨?accountChannels, ?accountCurrencies, ?accountInfoV1, ?accountInfoV2, ?accountLines,
    ?accountMptokenIssuances, ?accountMptokens, ?accountNfts, ?accountObjects, ?accountOffersV1,
    ?accountOffersV2, ?accountTxV1, ?accountTxV2, ?ammInfo, ?bookChanges, ?bookOffers,
    ?depositAuthorized, ?feature, ?gatewayBalancesV1, ?gatewayBalancesV2, ?getAggregatePrice,
    ?ledgerV1, ?ledgerV2, ?ledgerData, ?ledgerEntry, ?ledgerIndex, ?mptHolders,
    ?mptokenIssuanceHistory, ?nftHistoryV1, ?nftHistoryV2, ?nftInfo, ?nftOffersCommon,
    ?nftsByIssuer, ?norippleCheckV1, ?norippleCheckV2, ?serverInfo, ?subscribe,
    ?transactionEntry, ?txV1, ?txV2, ?unsubscribe, ?vaultInfo, by simp⟩
  case accountInfoV1 | accountInfoV2 | ammInfo | bookChanges | depositAuthorized | feature |
      gatewayBalancesV1 | gatewayBalancesV2 | ledgerV1 | ledgerV2 | ledgerData | ledgerIndex |
      nftInfo | serverInfo | subscribe | transactionEntry | unsubscribe | vaultInfo =>
    exact .of_writers [] rfl rfl rfl trivial
  case accountCurrencies | accountLines | accountNfts | accountOffersV1 | accountOffersV2 =>
    exact .of_writers [_] rfl rfl rfl
      (normalizes_field (serverLimitItems_normalizes (by decide) (by decide)))
  case accountChannels | bookOffers | nftOffersCommon =>
    exact .of_writers [_] rfl rfl rfl
      (normalizes_field (serverLimitItems'_normalizes (by decide) (by decide)))
  case accountMptokenIssuances | accountMptokens | accountObjects | nftsByIssuer |
      norippleCheckV1 | norippleCheckV2 =>
    exact .of_writers [_] rfl rfl rfl
      (normalizes_field (limitItems_normalizes (by decide) (by decide)))
  case mptHolders =>
    exact .of_writers [_] rfl rfl rfl
      (normalizes_field (boundedUint32_normalizes (by decide) (by decide)))
  case accountTxV1 | accountTxV2 =>
    exact .of_writers [_, _, _, _] rfl rfl rfl
      (ledgerRange_normalizes [_] (normalizes_field lowerTxType_normalizes)
        (by decide))
  case mptokenIssuanceHistory =>
    exact .of_writers [_, _, _, _] rfl rfl rfl ⟨normalizes_field lowerTxType_normalizes,
      ledgerRange_normalizes [] trivial (by decide)⟩
  case nftHistoryV1 | nftHistoryV2 =>
    exact .of_writers [_, _, _] rfl rfl rfl
      (ledgerRange_normalizes [] trivial (by decide))
  case getAggregatePrice =>
    exact .of_writers [_, _, _] rfl rfl rfl
      ⟨normalizes_field GetAggregatePrice.oraclesItems_normalizes,
      normalizes_field (numberItems_normalizes [_] rfl),
      normalizes_field (numberItems_normalizes [] rfl)⟩
  case ledgerEntry =>
    exact .of_writers [_] rfl rfl rfl (normalizes_field LedgerEntry.oracle_normalizes)
  case txV1 | txV2 =>
    exact .of_writers [_] rfl rfl rfl (normalizes_field toUpper_normalizes)

/-! ## Every handler -/

/-- A parse, whether it returns or fails, changes scalars of its own fields and nothing else. -/
theorem parse_leavesFrame (handler : HandlerSpec) (hmem : handler ∈ handlerSpecs) (root : Json) :
    handler.spec.LeavesFrame root :=
  have hspec := handlerSpecs_normalize handler hmem
  TypedSpec.leavesFrame (fun f hf => (hspec.fields f hf).1) hspec.independent hspec.onlyBound root

/-- A request for a transaction by the id of its place in the ledger. -/
def ctidRequest (ctid : String) : Json := .object [("ctid", .string (bytesOf ctid))]

omit [Build] [LibXrpl] in
/-- The id is put into upper case, and the rest is left alone. -/
theorem parse_leavesFrame_ctid : @TypedSpec.LeavesFrame _ .clio hexLib _
    (@Tx.kInputSpecV1 .clio hexLib) (ctidRequest "c0ffee") :=
  @parse_leavesFrame .clio hexLib ⟨"tx", @Tx.kInputSpecV1 .clio hexLib⟩
    (List.mem_of_getElem? (i := 38) rfl) _

/-- What a parse has left parses to the same `Input`, and is left as it is. -/
theorem parse_parsed (handler : HandlerSpec) (hmem : handler ∈ handlerSpecs) {root root' : Json}
    {input : handler.Input} (hrun : handler.spec.parse root = .ok input root') :
    handler.spec.parse root' = .ok input root' :=
  have hspec := handlerSpecs_normalize handler hmem
  TypedSpec.parse_again (fun f hf => (hspec.fields f hf).1) (fun f hf => (hspec.fields f hf).2)
    hspec.independent hrun

omit [Build] [LibXrpl] in
/-- The letters of the id stand in capitals after the first parse. -/
theorem parse_parsed_ctid : @TypedSpec.parse _ _ .clio hexLib (@Tx.kInputSpecV1 .clio hexLib)
    (ctidRequest "C0FFEE") =
      .ok ({ ctid := some (bytesOf "C0FFEE") } : Tx.Input) (ctidRequest "C0FFEE") :=
  @parse_parsed .clio hexLib ⟨"tx", @Tx.kInputSpecV1 .clio hexLib⟩
    (List.mem_of_getElem? (i := 38) rfl) (ctidRequest "c0ffee") _ _ rfl

end RpcSpec.Handlers
