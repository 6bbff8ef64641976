import RpcSpec.Dsl.Placeholders
import RpcSpec.Handlers.Limits
set_option autoImplicit false

/-!
# Null limits and empty account filters

On xrpld both are read as if they were not there.  Clio refuses the first, and judges the
second as any other string.

`placeholders` says which of the two is read as absent on which server, for the eight
handlers that have such a field and for any request.
-/

namespace RpcSpec.Handlers

open RpcSpec.Dsl RpcSpec.Foundation

section Specs

variable {Input : Type} [InputAggregate Input] [Build] [LibXrpl] {spec : TypedSpec Input}

/-! ## Null limits -/

section Limits

variable {read : Input → Option UInt32} {kLimitMin kLimitMax kLimitDefault : UInt32}

/-- On xrpld `null` as a limit is no limit. -/
theorem ServerLimited.readsNullAsAbsent (hxrpld : kIsClioBuild = false)
    (hlimited : ServerLimited spec read kLimitMin kLimitMax kLimitDefault)
    (honce : spec.readOnce "limit" = true) : spec.ReadsAsAbsent [("limit", .null)] := by
  obtain ⟨hset, -, hpositive, htail⟩ := hlimited
  have hnull := resolve_serverLimit_null "limit" hxrpld hpositive htail.keeps
  simp only [hxrpld, Bool.false_eq_true, if_false] at hnull
  exact hset.readsAsAbsent (Q := fun _ => True) honce htail.skips hnull
    (resolve_serverLimit_absent htail.keeps) trivial
    fun out _ => ⟨trivial, (htail.applyDefaults out).symm⟩

/-- The spec refuses every request with a null limit. -/
def RefusesNullLimit (spec : TypedSpec Input) : Prop :=
  ∀ root, root.member? "limit" = some .null →
    ∃ failure root', spec.parse root = .error failure root'

theorem ServerLimited.refusesNull (hclio : kIsClioBuild = true)
    (hlimited : ServerLimited spec read kLimitMin kLimitMax kLimitDefault) :
    RefusesNullLimit spec := by
  obtain ⟨hset, hassign, hpositive, htail⟩ := hlimited
  intro root hnull
  have hdecides := decides_of_field some (some kLimitDefault) hset htail.skips hassign
    (.inl fun out => by rw [htail.applyDefaults, hassign])
  cases hrun : spec.parse root with
  | error failure root' => exact ⟨failure, root', rfl⟩
  | ok input root' =>
      have hverdict := hdecides.reads root input root' hrun
      rw [hnull, resolve_serverLimit_some (.inl hclio) htail.keeps] at hverdict
      cases hverdict

end Limits

/-! ## Empty account filters -/

section Filters

variable {T Holder : Type} [AbsentValue T Holder] {key : String} {member : Member Input Holder}
  {items : List (Item Holder)} {conv : Converter T} {unguarded} {read : Input → Holder}

/-- The items let every string pass, and absence too. -/
structure PassStrings (items : List (Item Holder)) : Prop where
  absent : ∀ key, leaves items ⟨key, none⟩ = some ⟨key, none⟩
  string : ∀ key text, leaves items ⟨key, some (.string text)⟩ = some ⟨key, some (.string text)⟩
  skips : ∀ root, skipsField items root = false

omit [Build] [LibXrpl] in
theorem passStrings_nil : PassStrings ([] : List (Item Holder)) where
  absent _ := leaves_nil
  string _ _ := leaves_nil
  skips _ := rfl

omit [LibXrpl] in
/-- A check for strings lets strings pass. -/
theorem passStrings_typeString : PassStrings ([ifServerClio [type [.string]]] : List (Item Holder))
    where
  absent key := by
    rw [leaves_singleton, ifServerClio, leaves_serverConditional (.inr rfl)]
    cases kIsClioBuild <;> rfl
  string key text := by
    rw [leaves_singleton, ifServerClio, leaves_serverConditional (.inr rfl)]
    cases kIsClioBuild <;> rfl
  skips root := by simp [skipsField, ifServerClio, Item.skips, skipsAny, type]

omit [LibXrpl] in
/-- On Clio the converter is the one it wraps. -/
theorem emptyAsAbsent_clio (hclio : kIsClioBuild = true) (v : FieldView) :
    (emptyAsAbsent conv).parse v = AbsentValue.of <$> conv.parse v := by
  simp [emptyAsAbsent, kIsXrpldBuild, hclio]

omit [LibXrpl] in
/-- On xrpld the empty string is nothing. -/
theorem emptyAsAbsent_empty (hxrpld : kIsClioBuild = false) (key : String) :
    (emptyAsAbsent conv).parse ⟨key, some (.string [])⟩ = .ok (AbsentValue.get T) := by
  simp [emptyAsAbsent, kIsXrpldBuild, hxrpld, FieldView.isString, FieldView.asString]
  rfl

/-- On xrpld an empty string is assigned what the member holds from the start. -/
theorem readsEmptyAsAbsent (hxrpld : kIsClioBuild = false)
    (hset : spec.SetBy read (field key member items (emptyAsAbsent conv) unguarded))
    (honce : spec.readOnce key = true) (hpass : PassStrings items)
    (hdefault : BoundField.applyDefaults ⟨key, member, items, emptyAsAbsent conv, unguarded⟩ = id)
    (hinit : read InputAggregate.init = AbsentValue.get T)
    (hassign : ∀ out value, read (member.assign out value) = value)
    (hself : ∀ out, member.assign out (read out) = out) :
    spec.ReadsAsAbsent [(key, .string [])] := by
  have hblank : resolve items (emptyAsAbsent conv) ⟨key, some (.string [])⟩ =
      some (some (AbsentValue.get T)) := by
    rw [resolve, hpass.string, Option.bind_some, emptyAsAbsent_empty hxrpld]
    rfl
  have habsent : resolve items (emptyAsAbsent conv) ⟨key, none⟩ = some none := by
    rw [resolve, hpass.absent]
    rfl
  refine hset.readsAsAbsent (Q := (· = AbsentValue.get T)) honce hpass.skips hblank habsent hinit
    fun out hout => ⟨hassign out _, ?_⟩
  rw [hdefault, ← hout, hself]
  rfl

/-- Whatever string is given, the account converter decides on it. -/
structure JudgesStrings (spec : TypedSpec Input) (key : String) (conv : Converter T)
    (read : Input → Holder) : Prop where
  accepts : ∀ root text, root.member? key = some (.string text) → spec.OthersPass key root →
    ((∃ input root', spec.parse root = .ok input root') ↔
      ∃ value, conv.parse ⟨key, some (.string text)⟩ = .ok value)
  reads : ∀ root text, root.member? key = some (.string text) → ∀ input root',
    spec.parse root = .ok input root' → ∃ value,
      conv.parse ⟨key, some (.string text)⟩ = .ok value ∧ read input = AbsentValue.of value
  rejects : ∀ root text, root.member? key = some (.string text) → spec.OthersPass key root →
    ∀ failure, conv.parse ⟨key, some (.string text)⟩ = .error failure →
      ∃ root', spec.parse root = .error failure root'

/-- The converter decides on every string where the field has no other items. -/
theorem judgesStrings (hclio : kIsClioBuild = true)
    (hset : spec.SetBy read (field key member items (emptyAsAbsent conv) unguarded))
    (hpass : PassStrings items)
    (hdefault : BoundField.applyDefaults ⟨key, member, items, emptyAsAbsent conv, unguarded⟩ = id)
    (hinit : read InputAggregate.init = AbsentValue.get T)
    (hassign : ∀ out value, read (member.assign out value) = value) :
    JudgesStrings spec key conv read := by
  have hdecides := decides_of_field id (AbsentValue.get T) hset hpass.skips hassign
    (.inr ⟨hdefault, hinit⟩)
  have hresolve (text : Bytes) : resolve items (emptyAsAbsent conv) ⟨key, some (.string text)⟩ =
      (conv.parse ⟨key, some (.string text)⟩).toOption.map fun value =>
        some (AbsentValue.of value) := by
    rw [resolve, hpass.string, Option.bind_some, emptyAsAbsent_clio hclio]
    cases conv.parse ⟨key, some (.string text)⟩ <;> rfl
  refine ⟨fun root text htext hothers => ?_, fun root text htext input root' hrun => ?_,
    fun root text htext hothers failure hfailure => ?_⟩
  · rw [hdecides.accepts root hothers, htext, hresolve, Option.map_map, Option.isSome_map,
      Option.isSome_iff_exists]
    exact exists_congr fun value => toOption_eq_some_iff
  · have hverdict := hdecides.reads root input root' hrun
    rw [htext, hresolve, Option.map_map] at hverdict
    obtain ⟨value, hvalue, hread⟩ := Option.map_eq_some_iff.mp hverdict
    exact ⟨value, toOption_eq_some_iff.mp hvalue, hread.symm⟩
  · refine TypedSpec.parse_error_of_field hset.independent hset.effective hothers ?_
    exact field_error hpass.skips (by rw [htext, hpass.string])
      (by rw [emptyAsAbsent_clio hclio, hfailure]; rfl)

end Filters

end Specs

/-! ## The handlers -/

section Handlers

variable [Build] [LibXrpl]

/-- The peer is set by its own field alone. -/
theorem peer_setBy : AccountLines.kInputSpecV1.SetBy (·.peer)
    (field "peer" ⟨"peer", fun out v => { out with peer := v }⟩ []
      (emptyAsAbsent AccountLines.linesAccount)) :=
  .of_index 2 rfl rfl rfl (by simp [AccountLines.kInputSpecV1])

theorem destinationAccount_setBy : AccountChannels.kInputSpec.SetBy (·.destinationAccount)
    (field "destination_account"
      ⟨"destinationAccount", fun out v => { out with destinationAccount := v }⟩
      [ifServerClio [type [.string]]] (emptyAsAbsent accountId)) :=
  .of_index 2 rfl rfl rfl (by simp [AccountChannels.kInputSpec])

/-- What each handler reads as if it were not there, on xrpld. -/
structure XrpldPlaceholders : Prop where
  accountChannels : AccountChannels.kInputSpec.ReadsAsAbsent
    [("limit", .null), ("destination_account", .string [])]
  accountLines : AccountLines.kInputSpecV1.ReadsAsAbsent [("limit", .null), ("peer", .string [])]
  accountCurrencies : AccountCurrencies.kInputSpec.ReadsAsAbsent [("limit", .null)]
  accountNfts : AccountNfts.kInputSpec.ReadsAsAbsent [("limit", .null)]
  accountOffersV1 : AccountOffers.kInputSpecV1.ReadsAsAbsent [("limit", .null)]
  accountOffersV2 : AccountOffers.kInputSpecV2.ReadsAsAbsent [("limit", .null)]
  bookOffers : BookOffers.kInputSpec.ReadsAsAbsent [("limit", .null)]
  nftOffersCommon : NftOffersCommon.kInputSpec.ReadsAsAbsent [("limit", .null)]

/-- What Clio makes of the same members. -/
structure ClioPlaceholders : Prop where
  accountChannels : RefusesNullLimit AccountChannels.kInputSpec
  accountLines : RefusesNullLimit AccountLines.kInputSpecV1
  accountCurrencies : RefusesNullLimit AccountCurrencies.kInputSpec
  accountNfts : RefusesNullLimit AccountNfts.kInputSpec
  accountOffersV1 : RefusesNullLimit AccountOffers.kInputSpecV1
  accountOffersV2 : RefusesNullLimit AccountOffers.kInputSpecV2
  bookOffers : RefusesNullLimit BookOffers.kInputSpec
  nftOffersCommon : RefusesNullLimit NftOffersCommon.kInputSpec
  destinationAccount : JudgesStrings AccountChannels.kInputSpec "destination_account" accountId
    (·.destinationAccount)
  peer : JudgesStrings AccountLines.kInputSpecV1 "peer" AccountLines.linesAccount (·.peer)

/-- Null limits and empty account filters on either server. -/
structure Placeholders : Prop where
  xrpld : kIsXrpldBuild = true → XrpldPlaceholders
  clio : kIsClioBuild = true → ClioPlaceholders

/-- On xrpld a request with `null` as its limit, or the empty string for an optional account,
is the request without it; on Clio `null` is refused and the account converter judges the
empty string. -/
theorem placeholders : Placeholders where
  xrpld hxrpld := by
    have hnotClio : kIsClioBuild = false := by simpa [kIsXrpldBuild] using hxrpld
    have hnull {Input : Type} [InputAggregate Input] {spec : TypedSpec Input} {read}
        {kLimitMin kLimitMax kLimitDefault : UInt32}
        (hlimited : ServerLimited spec read kLimitMin kLimitMax kLimitDefault) :=
      hlimited.readsNullAsAbsent hnotClio
    exact {
      accountChannels := .cons (hnull serverLimits.accountChannels rfl)
        (readsEmptyAsAbsent hnotClio destinationAccount_setBy rfl passStrings_typeString rfl rfl
          (fun _ _ => rfl) fun _ => rfl)
      accountLines := .cons (hnull serverLimits.accountLines rfl)
        (readsEmptyAsAbsent hnotClio peer_setBy rfl passStrings_nil rfl rfl (fun _ _ => rfl)
          fun _ => rfl)
      accountCurrencies := hnull serverLimits.accountCurrencies rfl
      accountNfts := hnull serverLimits.accountNfts rfl
      accountOffersV1 := hnull serverLimits.accountOffersV1 rfl
      accountOffersV2 := hnull serverLimits.accountOffersV2 rfl
      bookOffers := hnull serverLimits.bookOffers rfl
      nftOffersCommon := hnull serverLimits.nftOffersCommon rfl }
  clio hclio := {
    accountChannels := serverLimits.accountChannels.refusesNull hclio
    accountLines := serverLimits.accountLines.refusesNull hclio
    accountCurrencies := serverLimits.accountCurrencies.refusesNull hclio
    accountNfts := serverLimits.accountNfts.refusesNull hclio
    accountOffersV1 := serverLimits.accountOffersV1.refusesNull hclio
    accountOffersV2 := serverLimits.accountOffersV2.refusesNull hclio
    bookOffers := serverLimits.bookOffers.refusesNull hclio
    nftOffersCommon := serverLimits.nftOffersCommon.refusesNull hclio
    destinationAccount := judgesStrings hclio destinationAccount_setBy passStrings_typeString rfl
      rfl fun _ _ => rfl
    peer := judgesStrings hclio peer_setBy passStrings_nil rfl rfl fun _ _ => rfl }

end Handlers

end RpcSpec.Handlers
