import RpcSpec.Dsl.Deferred
import RpcSpec.Handlers.AllHandlers
import RpcSpec.Handlers.Writers
set_option autoImplicit false

/-!
# Deferred members, handler by handler

The accounts, assets and oracles that a handler looks at only after the request has
been parsed.

`deferredEntries_contract` is the contract of every deferred member of the six handlers
that have one. It comes from the fields that feed the members, one for each, and from what
their converters return.
-/

namespace RpcSpec.Handlers

open RpcSpec.Dsl RpcSpec.Foundation FieldView

/-- A spec with one of its deferred members. -/
structure DeferredEntry where
  handler : String
  {Input : Type}
  [aggregate : InputAggregate Input]
  spec : TypedSpec Input
  {Value : Type}
  member : DeferredMember Input Value

attribute [instance] DeferredEntry.aggregate

/-- The values an account can be read from. -/
def Json.isText : Json → Bool
  | .string _ => true
  | _ => false

/-! ## The members -/

/-- The account of `account_info`, under either of its keys. -/
def AccountInfo.deferredAccount : DeferredMember AccountInfo.Input AccountID where
  get := Input.account
  set out v := { out with account := v }
  keys := ["account", "ident"]
  takes := Json.isText

/-- The account of `account_currencies`, under either of its keys. -/
def AccountCurrencies.deferredAccount : DeferredMember AccountCurrencies.Input AccountID where
  get := Input.account
  set out v := { out with account := v }
  keys := ["account", "ident"]
  takes := Json.isText

namespace AccountLines

/-- The account of `account_lines`. -/
def deferredAccount : DeferredMember Input AccountID where
  get := Input.account
  set out v := { out with account := v }
  keys := ["account"]
  takes := Json.isText

/-- The peer of `account_lines`. -/
def deferredPeer : DeferredMember Input AccountID where
  get := Input.peer
  set out v := { out with peer := v }
  keys := ["peer"]
  takes := Json.isText

end AccountLines

/-- The account of `account_offers`. -/
def AccountOffers.deferredAccount : DeferredMember AccountOffers.Input AccountID where
  get := Input.account
  set out v := { out with account := v }
  keys := ["account"]
  takes := Json.isText

namespace AmmInfo

/-- The first asset of `amm_info`. -/
def deferredAsset1 : DeferredMember Input Asset where
  get := Input.asset1
  set out v := { out with asset1 := v }
  keys := ["asset"]
  takes _ := true

/-- The second asset of `amm_info`. -/
def deferredAsset2 : DeferredMember Input Asset where
  get := Input.asset2
  set out v := { out with asset2 := v }
  keys := ["asset2"]
  takes _ := true

/-- The account of the pool itself. -/
def deferredAmmAccount : DeferredMember Input AccountID where
  get := Input.ammAccount
  set out v := { out with ammAccount := v }
  keys := ["amm_account"]
  takes _ := true

/-- The account whose share is asked for. -/
def deferredAccountID : DeferredMember Input AccountID where
  get := Input.accountID
  set out v := { out with accountID := v }
  keys := ["account"]
  takes _ := true

end AmmInfo

namespace GetAggregatePrice

/-- An array of as many elements as the checks of xrpld allow. -/
def oracleArray : Json → Bool
  | .array items => 1 ≤ items.length && items.length ≤ kOraclesMax
  | _ => false

/-- The list of oracles of `get_aggregate_price`. -/
def deferredOracles : DeferredMember Input (List Oracle) where
  get := Input.oracles
  set out v := { out with oracles := v }
  keys := ["oracles"]
  takes := oracleArray

end GetAggregatePrice

variable [Build] [LibXrpl]

/-- Every deferred member of every version of a spec. -/
def deferredEntries : List DeferredEntry :=
  [⟨"account_info", AccountInfo.kInputSpecV1, AccountInfo.deferredAccount⟩,
  ⟨"account_info", AccountInfo.kInputSpecV2, AccountInfo.deferredAccount⟩,
  ⟨"account_currencies", AccountCurrencies.kInputSpec, AccountCurrencies.deferredAccount⟩,
  ⟨"account_lines", AccountLines.kInputSpecV1, AccountLines.deferredAccount⟩,
  ⟨"account_lines", AccountLines.kInputSpecV1, AccountLines.deferredPeer⟩,
  ⟨"account_offers", AccountOffers.kInputSpecV1, AccountOffers.deferredAccount⟩,
  ⟨"account_offers", AccountOffers.kInputSpecV2, AccountOffers.deferredAccount⟩,
  ⟨"amm_info", AmmInfo.kInputSpec, AmmInfo.deferredAsset1⟩,
  ⟨"amm_info", AmmInfo.kInputSpec, AmmInfo.deferredAsset2⟩,
  ⟨"amm_info", AmmInfo.kInputSpec, AmmInfo.deferredAmmAccount⟩,
  ⟨"amm_info", AmmInfo.kInputSpec, AmmInfo.deferredAccountID⟩,
  ⟨"get_aggregate_price", GetAggregatePrice.kInputSpec, GetAggregatePrice.deferredOracles⟩]

/-! ## The fields that feed them -/

section Fields

variable {Input : Type} {key : String}

omit [LibXrpl] in
/-- A field of an account, where a string is a string on both servers. -/
theorem account_feeds {member : DeferredMember Input AccountID}
    {target : Member Input DeferredAccountId} {items : List (Item DeferredAccountId)}
    {conv : Converter DeferredAccountId} {unguarded}
    (htarget : target.assign = member.set) (htakes : member.takes = Json.isText)
    (hdefault : (⟨key, target, items, conv, unguarded⟩ : BoundField Input).applyDefaults = id)
    (hpaths : itemsPaths items = [])
    (hfixes : ∀ v : FieldView, v.present = true → ∀ item ∈ items, item.Fixes v)
    (hgives : conv.GivesValues)
    (hreturns : kIsXrpldBuild = true → ∀ v : FieldView, v.isString = true →
      Returns (conv.parse v)) :
    (⟨key, target, items, conv, unguarded⟩ : BoundField Input).Feeds member := by
  refine .of_conv htarget hdefault (allModifiers_of_noPaths hpaths) hgives
    fun hxrpld json hjson => ⟨hfixes _ rfl, hreturns hxrpld _ ?_⟩
  rw [htakes] at hjson
  cases json with
  | string text => rfl
  | _ => cases hjson

/-- On xrpld a text is an account or a deferred error, never an error. -/
theorem deferredAccountId_returns (hxrpld : kIsXrpldBuild = true) (v : FieldView)
    (h : v.isString = true) : Returns (deferredAccountId.parse v) :=
  deferredAccount_returns hxrpld (by simp [h])

theorem deferredAccountIdActMalformed_returns (hxrpld : kIsXrpldBuild = true) (v : FieldView) :
    Returns (deferredAccountIdActMalformed.parse v) :=
  deferredAccount_returns hxrpld (by simp)

omit [LibXrpl] in
/-- The second name of an account, which only xrpld asks for. -/
theorem identItems_fix {T : Type} {item : Item T} (hrequirement : item.isRequirement = false)
    (hmodifier : item.isModifier = false) (v : FieldView) (hpresent : v.present = true) :
    ∀ item' ∈ [ifServerXrpld [ifAbsent "account", withCustomError required
      XrpldError.rpcInvalidParams "Missing field 'account'."], ifServerClio [item]],
      item'.Fixes v := by
  rw [List.forall_mem_cons, List.forall_mem_singleton]
  refine ⟨.serverConditional (.inr rfl) fun _ => ?_,
    .serverConditional (.inr (by simp [anyModifier, hmodifier])) fun _ => ?_⟩
  · rw [List.forall_mem_cons, List.forall_mem_singleton]
    exact ⟨.neither rfl rfl, (Item.Fixes.required hpresent).withCustomError _ _⟩
  · rw [List.forall_mem_singleton]
    exact .neither hrequirement hmodifier

namespace AccountLines

/-- On Clio what it returns is an account. -/
theorem linesAccount_givesValues : linesAccount.GivesValues := by
  intro hclio v value hvalue
  simp only [linesAccount, not_xrpld_of_clio hclio, Bool.false_eq_true, if_false] at hvalue
  exact givesValues_of_map hvalue

/-- On xrpld it is the deferring converter. -/
theorem linesAccount_returns (hxrpld : kIsXrpldBuild = true) (v : FieldView)
    (h : v.isString = true) : Returns (linesAccount.parse v) := by
  simp only [linesAccount, hxrpld, if_true]
  exact deferredAccountId_returns hxrpld v h

end AccountLines

end Fields

/-! ## Each member -/

section Members

namespace AccountInfo

/-- The guard on `ident` asks whether `account` is there, whatever it holds. -/
theorem ident_feeds {unguarded} : (⟨"ident", ⟨"account", deferredAccount.set⟩,
    [ifServerXrpld [ifAbsent "account",
      withCustomError required XrpldError.rpcInvalidParams "Missing field 'account'."],
    ifServerClio [deprecated]], deferredAccountId, unguarded⟩ : BoundField Input).Feeds
      deferredAccount :=
  account_feeds rfl rfl rfl rfl (identItems_fix rfl rfl) deferredAccount_givesValues
    deferredAccountId_returns

theorem account_feeds {unguarded} : (⟨"account", ⟨"account", deferredAccount.set⟩, [],
    deferredAccountId, unguarded⟩ : BoundField Input).Feeds deferredAccount :=
  Handlers.account_feeds rfl rfl rfl rfl (by simp) deferredAccount_givesValues
    deferredAccountId_returns

/-- The two fields of the account, and none of the others assigns to it. -/
theorem fieldsFeed : ∀ f ∈ kInputSpecV1.fields,
    f.LeavesAlone deferredAccount ∨ ∃ field, f = .bound field ∧ field.Feeds deferredAccount := by
  simp only [kInputSpecV1, List.forall_mem_cons]
  refine ⟨?ledgerIndex, .inr ⟨_, rfl, ident_feeds⟩, .inr ⟨_, rfl, account_feeds⟩, ?signerLists,
    ?queue, ?ledger, ?strict, by simp⟩
  case ledgerIndex | signerLists | queue =>
    exact .inl (.of_commutes ⟨fun _ _ => rfl, fun _ _ _ => rfl⟩ rfl)
  case ledger | strict => exact .inl (.of_commutes trivial rfl)

theorem clio_reads_both {spec : TypedSpec Input} (hclio : kIsClioBuild = true)
    (hident : (effectiveFields spec.fields)[1]? = kInputSpecV1.fields[1]?)
    (haccount : (effectiveFields spec.fields)[2]? = kInputSpecV1.fields[2]?) :
    ∀ key ∈ deferredAccount.keys, ∃ field : BoundField Input,
      .bound field ∈ effectiveFields spec.fields ∧ field.key = key ∧ field.Feeds deferredAccount ∧
        ∀ root, skipsField field.items root = false := by
  simp only [deferredAccount, List.forall_mem_cons]
  refine ⟨⟨_, List.mem_of_getElem? haccount, rfl, account_feeds, fun _ => rfl⟩,
    ⟨_, List.mem_of_getElem? hident, rfl, ident_feeds, fun root => ?_⟩, by simp⟩
  simp [skipsField, ifServerXrpld, ifServerClio, deprecated, Item.skips, skipsAny,
    not_xrpld_of_clio hclio]

theorem kInputSpecV1_fed : deferredAccount.Fed kInputSpecV1 :=
  ⟨rfl, fieldsFeed, .inr ⟨rfl, fun hclio => clio_reads_both hclio rfl rfl⟩⟩

/-- The field listed again assigns to another member. -/
theorem kInputSpecV2_fed : deferredAccount.Fed kInputSpecV2 := by
  refine ⟨rfl, ?_, .inr ⟨rfl, fun hclio => clio_reads_both hclio rfl rfl⟩⟩
  simp only [kInputSpecV2, extend, List.forall_mem_append]
  refine ⟨fieldsFeed, ?_⟩
  rw [List.forall_mem_singleton]
  exact .inl (.of_commutes ⟨fun _ _ => rfl, fun _ _ _ => rfl⟩ rfl)

end AccountInfo

theorem AccountCurrencies.kInputSpec_fed : deferredAccount.Fed kInputSpec := by
  refine ⟨rfl, ?_, .inl ⟨0, rfl⟩⟩
  simp only [kInputSpec, List.forall_mem_cons]
  refine ⟨?ledgerIndex, ?ident, ?account, ?limit, ?marker, ?accountIndex, ?strict, by simp⟩
  case ident =>
    exact .inr ⟨_, rfl, account_feeds rfl rfl rfl rfl (identItems_fix rfl rfl)
      deferredAccount_givesValues deferredAccountId_returns⟩
  case account =>
    refine .inr ⟨_, rfl, account_feeds rfl rfl rfl rfl (fun v hpresent => ?_)
      deferredAccount_givesValues deferredAccountId_returns⟩
    rw [List.forall_mem_singleton]
    refine .serverConditional (.inr rfl) ?_
    intro _
    rw [List.forall_mem_singleton]
    exact .required hpresent
  case ledgerIndex | limit | marker =>
    exact .inl (.of_commutes ⟨fun _ _ => rfl, fun _ _ _ => rfl⟩ rfl)
  case accountIndex | strict => exact .inl (.of_commutes trivial rfl)

/-! ### `account_lines` and `account_offers` -/

omit [LibXrpl] in
/-- A field that is there passes `required`, and is left as it was. -/
theorem required_fixes {T : Type} (v : FieldView) (hpresent : v.present = true) :
    ∀ item ∈ [(required : Item T)], item.Fixes v := by
  rw [List.forall_mem_singleton]
  exact .required hpresent

namespace AccountLines

/-- The account is required and then converted. -/
theorem account_fed : deferredAccount.Fed kInputSpecV1 := by
  refine ⟨rfl, ?_, .inl ⟨0, rfl⟩⟩
  simp only [kInputSpecV1, List.forall_mem_cons]
  refine ⟨?ledgerIndex, ?account, ?peer, ?ignoreDefault, ?limit, ?marker, ?ledger, ?peerIndex,
    by simp⟩
  case account =>
    exact .inr ⟨_, rfl, account_feeds rfl rfl rfl rfl required_fixes linesAccount_givesValues
      linesAccount_returns⟩
  case ledgerIndex | peer | ignoreDefault | limit | marker =>
    exact .inl (.of_commutes ⟨fun _ _ => rfl, fun _ _ _ => rfl⟩ rfl)
  case ledger | peerIndex => exact .inl (.of_commutes trivial rfl)

/-- The peer is converted as it is, but for the empty string. -/
theorem peer_fed : deferredPeer.Fed kInputSpecV1 := by
  have hpeer {unguarded} : (⟨"peer", ⟨"peer", deferredPeer.set⟩, [], emptyAsAbsent linesAccount,
      unguarded⟩ : BoundField Input).Feeds deferredPeer :=
    account_feeds rfl rfl rfl rfl (by simp) linesAccount_givesValues.emptyAsAbsent
      fun hxrpld v hv => emptyAsAbsent_returns (linesAccount_returns hxrpld v hv)
  refine .of_single [_, _] [_, _, _, _, _] rfl rfl rfl rfl rfl hpeer (fun _ => rfl) ?_
  simp only [List.cons_append, List.nil_append, List.forall_mem_cons]
  refine ⟨?ledgerIndex, ?account, ?ignoreDefault, ?limit, ?marker, ?ledger, ?peerIndex, by simp⟩
  case ledgerIndex | account | ignoreDefault | limit | marker =>
    exact .of_commutes ⟨fun _ _ => rfl, fun _ _ _ => rfl⟩ rfl
  case ledger | peerIndex => exact .of_commutes trivial rfl

end AccountLines

/-- The account is required and then converted. -/
theorem AccountOffers.kInputSpecV1_fed : deferredAccount.Fed kInputSpecV1 := by
  refine ⟨rfl, ?_, .inl ⟨0, rfl⟩⟩
  simp only [kInputSpecV1, List.forall_mem_cons]
  refine ⟨?ledgerIndex, ?account, ?limit, ?marker, ?ledger, ?strict, by simp⟩
  case account =>
    exact .inr ⟨_, rfl, account_feeds rfl rfl rfl rfl required_fixes deferredAccount_givesValues
      deferredAccountId_returns⟩
  case ledgerIndex | limit | marker =>
    exact .inl (.of_commutes ⟨fun _ _ => rfl, fun _ _ _ => rfl⟩ rfl)
  case ledger | strict => exact .inl (.of_commutes trivial rfl)

theorem AccountOffers.kInputSpecV2_fed : deferredAccount.Fed kInputSpecV2 := kInputSpecV1_fed

/-! ### `amm_info` -/

namespace AmmInfo

/-- On xrpld nothing of an asset is checked. -/
theorem assetItems_fix (hxrpld : kIsXrpldBuild = true) (v : FieldView) :
    ∀ item ∈ assetItems, item.Fixes v := by
  have hclio : kIsClioBuild ≠ true := by simpa [kIsXrpldBuild] using hxrpld
  have hskipped {inners : List (Item DeferredAsset)} (hmixed : NotMixed inners) :
      runProcessors [ifServerClio inners] v = .ok () v := by
    refine runProcessors_fixed ?_
    rw [List.forall_mem_singleton]
    exact .serverConditional hmixed fun h => absurd h hclio
  simp only [assetItems, List.forall_mem_cons]
  exact ⟨.serverConditional (.inr rfl) fun h => absurd h hclio, .ifType (hskipped (.inr rfl)),
    .ifType (hskipped (.inr rfl)), by simp⟩

/-- The items of an asset are for Clio alone. -/
theorem asset_feeds {key : String} {member : DeferredMember Input Asset}
    {target : Member Input DeferredAsset} {unguarded} (htarget : target.assign = member.set) :
    (⟨key, target, assetItems, deferredAsset issueConv, unguarded⟩ : BoundField Input).Feeds
      member :=
  .of_conv htarget rfl (allModifiers_of_noPaths rfl) deferredAsset_givesValues
    fun hxrpld _ _ => ⟨assetItems_fix hxrpld _, deferredAsset_returns hxrpld _⟩

theorem account_feeds {key : String} {member : DeferredMember Input AccountID}
    {target : Member Input DeferredAccountId} {unguarded} (htarget : target.assign = member.set) :
    (⟨key, target, [], deferredAccountIdActMalformed, unguarded⟩ : BoundField Input).Feeds
      member :=
  .of_conv htarget rfl (allModifiers_of_noPaths rfl) deferredAccount_givesValues
    fun hxrpld _ _ => ⟨by simp, deferredAccountIdActMalformed_returns hxrpld _⟩

theorem not_skipsField_assetItems (root : Json) : skipsField assetItems root = false := by
  simp [skipsField, assetItems, ifServerClio, ifType, withCustomError, type, currencyIssue,
    kStringIssueValidator, customValidator, Item.skips, skipsAny]

theorem asset1_fed : deferredAsset1.Fed kInputSpec := by
  refine .of_single [_] [_, _, _] rfl rfl rfl rfl rfl (asset_feeds rfl)
    not_skipsField_assetItems ?_
  simp only [List.cons_append, List.nil_append, List.forall_mem_cons]
  refine ⟨?ledgerIndex, ?asset2, ?ammAccount, ?account, by simp⟩
  case ledgerIndex | asset2 | ammAccount | account =>
    exact .of_commutes ⟨fun _ _ => rfl, fun _ _ _ => rfl⟩ rfl

theorem asset2_fed : deferredAsset2.Fed kInputSpec := by
  refine .of_single [_, _] [_, _] rfl rfl rfl rfl rfl (asset_feeds rfl)
    not_skipsField_assetItems ?_
  simp only [List.cons_append, List.nil_append, List.forall_mem_cons]
  refine ⟨?ledgerIndex, ?asset, ?ammAccount, ?account, by simp⟩
  case ledgerIndex | asset | ammAccount | account =>
    exact .of_commutes ⟨fun _ _ => rfl, fun _ _ _ => rfl⟩ rfl

theorem ammAccount_fed : deferredAmmAccount.Fed kInputSpec := by
  refine .of_single [_, _, _] [_] rfl rfl rfl rfl rfl (account_feeds rfl) (fun _ => rfl) ?_
  simp only [List.cons_append, List.nil_append, List.forall_mem_cons]
  refine ⟨?ledgerIndex, ?asset, ?asset2, ?account, by simp⟩
  case ledgerIndex | asset | asset2 | account =>
    exact .of_commutes ⟨fun _ _ => rfl, fun _ _ _ => rfl⟩ rfl

theorem accountID_fed : deferredAccountID.Fed kInputSpec := by
  refine .of_single [_, _, _, _] [] rfl rfl rfl rfl rfl (account_feeds rfl) (fun _ => rfl) ?_
  simp only [List.append_nil, List.forall_mem_cons]
  refine ⟨?ledgerIndex, ?asset, ?asset2, ?ammAccount, by simp⟩
  case ledgerIndex | asset | asset2 | ammAccount =>
    exact .of_commutes ⟨fun _ _ => rfl, fun _ _ _ => rfl⟩ rfl

end AmmInfo

/-! ### `get_aggregate_price` -/

namespace GetAggregatePrice

/-- On Clio an element that is returned is an oracle. -/
theorem parseOracle_givesValue (hclio : kIsClioBuild = true) {elem : FieldView}
    {value : Deferred Oracle} (h : OraclesConverter.parseOracle elem = .ok value) :
    ∃ oracle, value = .ok oracle := by
  simp only [OraclesConverter.parseOracle, not_xrpld_of_clio hclio, Bool.false_eq_true,
    if_false] at h
  exact givesValues_of_bind (fun _ _ => givesValues_of_bind fun _ _ => givesValues_of_bind
    fun _ _ hpure => ⟨_, (Except.ok.inj hpure).symm⟩) h

/-- On Clio an element without an oracle fails the parse. -/
theorem parseOracles_givesValues (hclio : kIsClioBuild = true) {elems : List FieldView}
    {result : List Oracle} {value : DeferredOracles}
    (h : OraclesConverter.parseOracles elems result = .ok value) :
    ∃ oracles, value = .ok oracles := by
  induction elems generalizing result with
  | nil => exact ⟨result, (Except.ok.inj h).symm⟩
  | cons elem rest ih =>
      rw [OraclesConverter.parseOracles] at h
      cases helem : OraclesConverter.parseOracle elem with
      | error failure =>
          rw [helem] at h
          cases h
      | ok found =>
          obtain ⟨oracle, rfl⟩ := parseOracle_givesValue hclio helem
          rw [helem] at h
          exact ih h

/-- On xrpld an element is an oracle or a deferred error. -/
theorem parseOracle_returns (hxrpld : kIsXrpldBuild = true) (elem : FieldView) :
    Returns (OraclesConverter.parseOracle elem) := by
  unfold OraclesConverter.parseOracle
  simp only [hxrpld, if_true]
  split
  · exact .ok _
  · have hdocId : Returns (OraclesConverter.documentId (elem.child "oracle_document_id")) := by
      unfold OraclesConverter.documentId
      split
      · exact (asUint32_returns ‹_›).map
      split
      · exact (asString_returns ‹_›).map
      · exact .ok _
    have haddress : Returns (OraclesConverter.addressOf (elem.child "account")) := by
      unfold OraclesConverter.addressOf
      split
      · exact (asString_returns ‹_›).map
      · exact .ok _
    refine hdocId.bind fun documentId => haddress.bind fun id => ?_
    split
    · split
      · exact .ok _
      · exact .ok _
    · exact .ok _

/-- The loop over the list returns too, with the first deferred error if there is one. -/
theorem parseOracles_returns (hxrpld : kIsXrpldBuild = true) (elems : List FieldView)
    (result : List Oracle) : Returns (OraclesConverter.parseOracles elems result) := by
  induction elems generalizing result with
  | nil => exact .ok _
  | cons elem rest ih =>
      apply (parseOracle_returns hxrpld elem).bind
      intro oracle
      cases oracle with
      | ok oracle => exact ih _
      | error why => exact .ok _

/-- On xrpld an array of such a length passes every check. -/
theorem oraclesItems_fix (hxrpld : kIsXrpldBuild = true) {items : List Json}
    (hlength : oracleArray (.array items) = true) :
    ∀ item ∈ oraclesItems, item.Fixes ⟨"oracles", some (.array items)⟩ := by
  simp only [oracleArray, Bool.and_eq_true, decide_eq_true_eq] at hlength
  simp only [oraclesItems, List.forall_mem_cons]
  refine ⟨.required rfl, .serverConditional (.inr rfl) fun _ => ?_,
    .serverConditional (.inl rfl) fun h => ?_, by simp⟩
  · simp only [List.forall_mem_cons]
    refine ⟨.withCustomError (type_fixes fun _ => rfl) _ _,
      .withCustomError (.requirement (rejectIf_false ?_)) _ _,
      .withCustomError (.requirement (rejectIf_false ?_)) _ _, by simp⟩
    · exact decide_eq_false (Nat.not_lt.mpr hlength.1)
    · exact decide_eq_false (Nat.not_lt.mpr hlength.2)
  · simp [kIsXrpldBuild, h] at hxrpld

/-- Clio's check of the list, which rewrites it, does not run on xrpld. -/
theorem oracles_fed : deferredOracles.Fed kInputSpec := by
  have hfeeds {unguarded} : (⟨"oracles", ⟨"oracles", deferredOracles.set⟩, oraclesItems,
      oraclesConv, unguarded⟩ : BoundField Input).Feeds deferredOracles := by
    refine .of_conv rfl rfl oraclesItems_normalizes.frames
      (fun hclio v value => parseOracles_givesValues hclio) fun hxrpld json hjson => ?_
    cases json with
    | array items => exact ⟨oraclesItems_fix hxrpld hjson, parseOracles_returns hxrpld _ _⟩
    | _ => cases hjson
  refine .of_single [_] [_, _, _, _] rfl rfl rfl rfl rfl hfeeds ?_ ?_
  · intro root
    simp [skipsField, oraclesItems, ifServerClio, ifServerXrpld, withCustomError, type, required,
      minArrayLength, maxArrayLength, kOraclesValidator, customModifier, Item.skips, skipsAny]
  simp only [List.cons_append, List.nil_append, List.forall_mem_cons]
  refine ⟨?ledgerIndex, ?baseAsset, ?quoteAsset, ?trim, ?timeThreshold, by simp⟩
  case ledgerIndex | baseAsset | quoteAsset | trim | timeThreshold =>
    exact .of_commutes ⟨fun _ _ => rfl, fun _ _ _ => rfl⟩ rfl

end GetAggregatePrice

end Members

/-! ## Every handler -/

/-- On Clio a deferred member holds a value unless it was not given; on xrpld the value
given decides nothing else of the answer. -/
theorem deferredEntries_contract (entry : DeferredEntry) (hmem : entry ∈ deferredEntries) :
    entry.member.Contract entry.spec := by
  have hfed : ∀ entry ∈ deferredEntries, entry.member.Fed entry.spec := by
    simp only [deferredEntries, List.forall_mem_cons]
    exact ⟨AccountInfo.kInputSpecV1_fed, AccountInfo.kInputSpecV2_fed,
      AccountCurrencies.kInputSpec_fed, AccountLines.account_fed, AccountLines.peer_fed,
      AccountOffers.kInputSpecV1_fed, AccountOffers.kInputSpecV2_fed, AmmInfo.asset1_fed,
      AmmInfo.asset2_fed, AmmInfo.ammAccount_fed, AmmInfo.accountID_fed,
      GetAggregatePrice.oracles_fed, by simp⟩
  exact (hfed entry hmem).contract

/-- A request for an account by its first name. -/
def accountRequest (name : String) : Json := .object [("account", .string (bytesOf name))]

omit [Build] [LibXrpl] in
theorem deferredEntries_contract_accountInfo :
    Agree AccountInfo.deferredAccount.SameOthers
      (answer (@TypedSpec.parse _ _ .xrpld hexLib (@AccountInfo.kInputSpecV1 .xrpld hexLib)
        (accountRequest "alice")))
      (answer (@TypedSpec.parse _ _ .xrpld hexLib (@AccountInfo.kInputSpecV1 .xrpld hexLib)
        (accountRequest "bob"))) :=
  @DeferredMember.Contract.xrpld _ _ .xrpld hexLib _ _ _
    (@deferredEntries_contract .xrpld hexLib
      ⟨"account_info", @AccountInfo.kInputSpecV1 .xrpld hexLib, AccountInfo.deferredAccount⟩
      (List.mem_of_getElem? (i := 0) rfl))
    rfl (accountRequest "alice") "account" (by decide) (.string (bytesOf "alice"))
    (.string (bytesOf "bob")) rfl rfl rfl

end RpcSpec.Handlers
