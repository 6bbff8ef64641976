import RpcSpec.Dsl.HexText
import RpcSpec.Handlers.Markets
set_option autoImplicit false

/-!
# The assets of an offer

What the items of the two assets of `book_offers` have established when their converter
runs, and which of the converter's failing branches are dead by then.

`branchesDead_iff` says when they are: just where the text of the issuance, if there is
one, has no NUL.
-/

namespace RpcSpec.Handlers.BookOffers

open RpcSpec.Dsl RpcSpec.Foundation XrpldError Text

variable [Build] [LibXrpl] {key : String} {amtErr isrErr : XrpldError} {v v' : FieldView}

/-! ## What the items establish -/

/-- The members of an asset its items have let pass. -/
structure MembersRead (v : FieldView) : Prop where
  strings : MembersAreStrings v
  mptIssuanceId : (v.child "mpt_issuance_id").present = true →
    (v.child "mpt_issuance_id").HasString fun text => (parseHexCString 192 text).isSome
  currency : kIsClioBuild = true → (v.child "currency").present = true →
    (v.child "currency").HasString fun text => (LibXrpl.toCurrency text).isSome

/-- What the section leaves of each of its three members. -/
theorem takerFields_read (key : String) (amtErr isrErr : XrpldError) :
    List.Forall₂ (fun field Q => ItemsCheck field.items Q) (takerFields key amtErr isrErr)
    [fun v => kIsClioBuild = true → v.present = true →
        v.HasString fun text => (LibXrpl.toCurrency text).isSome,
      fun v => v.present = true →
        v.HasString fun text => (parseHexCString 192 text).isSome,
      fun _ => True] := by
  refine .cons ?_ (.cons ?_ (.cons ?_ .nil))
  · have hcurrency : (withCustomError currency amtErr : Item Asset).Checks fun v =>
        v.present = true → v.HasString fun text => (LibXrpl.toCurrency text).isSome :=
      .withCustomError (.requirement fun v => (CurrencyValidator.verify_safe v).mono
        fun _ h hp => (h hp).imp fun text ⟨hv, htext⟩ => ⟨hv, htext.2⟩) _ _
    exact .single (.serverConditional (.inr rfl) (.single hcurrency))
  · have hhex (message : String) : (withCustomError uint192Hex amtErr message : Item Asset).Checks
        fun v => v.present = true → v.HasString fun text => (parseHexCString 192 text).isSome :=
      .withCustomError (.requirement fun v => HexStringValidator.verify_safe 192 v) _ _
    refine (ItemsCheck.cons (.serverConditional (.inr rfl) (.single (hhex _)))
      (.single (.serverConditional (.inr rfl) (.single (hhex _))))).mono fun v hv => ?_
    cases hbuild : kIsClioBuild with
    | true => exact hv.2 hbuild
    | false => exact hv.1 (by simp [kIsXrpldBuild, hbuild])
  · exact .of_neverFault (by simp [FieldSpec.items]) rfl

omit [LibXrpl] in
/-- What the check of the object as a whole leaves. -/
theorem verifyTaker_checks (v : FieldView) : Safe (verifyTaker v) fun _ =>
    (kIsClioBuild = true → v.isObject = true) → MembersAreStrings v := by
  by_cases hclio : kIsClioBuild = true → v.isObject = true
  · exact (verifyTaker_safe hclio).mono fun _ h _ => h
  · -- Clio leaves what is no object to the check of the type
    obtain ⟨hbuild, hobject⟩ := Classical.not_imp.mp hclio
    have hskip : verifyTaker v = pure () := by
      simp [verifyTaker, kIsXrpldBuild, hbuild, hobject]
    rw [hskip]
    exact fun h => (hclio h).elim

/-- An asset that the items let pass is there, and its members can be read. -/
theorem takerItems_check (key : String) (amtErr isrErr : XrpldError) :
    ItemsCheck (takerItems key amtErr isrErr) fun v => v.present = true ∧ MembersRead v := by
  have hrequired : (required : Item Asset).Checks fun v => v.present = true :=
    .requirement Required.verify_safe
  have hobject (v : FieldView) : Safe (TypeIs.verify [.object] v) fun _ =>
      v.present = true → v.isObject = true :=
    safe_rejectIf.mono fun _ h hp => by simpa [hp, FieldView.is] using h
  have htype : (ifServerClio [type [.object]] : Item Asset).Checks
      fun v => kIsClioBuild = true → v.present = true → v.isObject = true :=
    .serverConditional (.inr rfl) (.single (.requirement hobject))
  have hvalidator : kTakerValidator.Checks fun v =>
      v.present = true → (kIsClioBuild = true → v.isObject = true) → MembersAreStrings v :=
    .requirement fun v => safe_ifPresent fun _ => verifyTaker_checks v
  have hsection := Item.Checks.section_ (takerFields_read key amtErr isrErr)
  refine (ItemsCheck.cons hrequired (.cons htype (.cons hvalidator (.single hsection)))).mono ?_
  rintro v ⟨hpresent, htype, hvalidator, hsection⟩
  obtain ⟨-, hcurrency⟩ := hsection hpresent
  cases hcurrency with
  | cons hcurrency hrest =>
      cases hrest with
      | cons hmpt _ =>
          exact ⟨hpresent, hvalidator hpresent fun hclio => htype hclio hpresent, hmpt, hcurrency⟩

/-- The items leave the side as it was, with its members read. -/
theorem takerItems_read (hrun : runProcessors (takerItems key amtErr isrErr) v = .ok () v') :
    v' = v ∧ v.present = true ∧ MembersRead v := by
  have hcheck := takerItems_check key amtErr isrErr v
  rw [SafeRun, hrun] at hcheck
  exact hcheck

theorem not_skipsField_takerItems (key : String) (amtErr isrErr : XrpldError) (root : Json) :
    skipsField (takerItems key amtErr isrErr) root = false := by
  simp [takerItems, skipsField, Item.skips, skipsAny, required, ifServerClio, type,
    kTakerValidator, customValidator, section_]

/-! ## The branches the converter takes for dead -/

/-- An issuance id is always read as the asset of that id, and without one a currency on
Clio always decodes. -/
structure BranchesDead (amtErr isrErr : XrpldError) (v : FieldView) : Prop where
  mptIssue : (v.child "mpt_issuance_id").present = true →
    (v.child "mpt_issuance_id").HasString fun text => ∃ id, LibXrpl.parseHex 192 text = some id ∧
      (takerAssetConverter amtErr isrErr).parse v = .ok (.mptIssue id)
  currency : kIsClioBuild = true → (v.child "mpt_issuance_id").present = false →
    (v.child "currency").HasString fun text => (LibXrpl.toCurrency text).isSome

/-- With an issuance the converter looks at nothing else. -/
theorem takerAssetConverter_mpt {text : Bytes}
    (htext : (v.child "mpt_issuance_id").value = some (.string text)) :
    (takerAssetConverter amtErr isrErr).parse v = (do
      let mptId ← orReject (LibXrpl.parseHex 192 text) isrErr
      pure (.mptIssue mptId)) := by
  have hpresent : (v.child "mpt_issuance_id").present = true := by
    simp [FieldView.present, htext]
  simp only [takerAssetConverter, hpresent, if_true, FieldView.asString_eq_ok_iff.mpr htext]
  rfl

/-- The validator parses the C string of the id and the converter the whole text, so the
branches are dead unless the id holds a NUL. -/
theorem branchesDead_iff (hhex : HexHasNoNul 192)
    (hrun : runProcessors (takerItems key amtErr isrErr) v = .ok () v') :
    BranchesDead amtErr isrErr v' ↔
      ∀ text, (v.child "mpt_issuance_id").value = some (.string text) → 0 ∉ text := by
  obtain ⟨rfl, -, hread⟩ := takerItems_read hrun
  constructor
  · intro hdead text htext
    obtain ⟨text', htext', id, hid, -⟩ := hdead.mptIssue (by simp [FieldView.present, htext])
    obtain rfl : text = text' := by simpa [htext] using htext'
    exact hhex text id hid
  · intro hnul
    constructor
    · intro hpresent
      obtain ⟨text, htext, hread⟩ := hread.mptIssuanceId hpresent
      rw [parseHexCString, cString_of_noNul (hnul text htext)] at hread
      obtain ⟨id, hid⟩ := Option.isSome_iff_exists.mp hread
      refine ⟨text, htext, id, hid, ?_⟩
      rw [takerAssetConverter_mpt htext, hid]
      rfl
    · intro hclio habsent
      exact hread.currency hclio (FieldView.present_of_is (t := .string)
        (hread.strings.2 habsent))

/-- An asset given by an issuance id. -/
def mptAsset (id : Bytes) : FieldView :=
  ⟨"taker_pays", some (.object [("mpt_issuance_id", .string id)])⟩

set_option maxRecDepth 4000 in
omit [Build] [LibXrpl] in
/-- The id of zeros, written in full. -/
theorem branchesDead_iff_zeroId :
    @BranchesDead .clio hexLib rpcSrcCurMalformed rpcSrcIsrMalformed
      (mptAsset (List.replicate 48 0x30)) := by
  have hrun : @runProcessors _ (@takerItems .clio hexLib "taker_pays" rpcSrcCurMalformed
      rpcSrcIsrMalformed) (mptAsset (List.replicate 48 0x30)) =
        .ok () (mptAsset (List.replicate 48 0x30)) := rfl
  refine (@branchesDead_iff .clio hexLib "taker_pays" rpcSrcCurMalformed rpcSrcIsrMalformed
    _ _ (@DocumentedHex.hexHasNoNul hexLib _ hexLib_documentedHex (by decide)) hrun).mpr
      fun text htext => ?_
  obtain rfl : List.replicate 48 0x30 = text := by
    simpa [mptAsset, FieldView.child, Json.member?] using htext
  decide

/-- An issuance id that goes on after a NUL. -/
def nulIssuance : FieldView := mptAsset (List.replicate 48 0x30 ++ [0])

set_option maxRecDepth 4000 in
omit [Build] [LibXrpl] in
/-- The items let the id pass, and the converter refuses it. -/
theorem nulIssuance_not_branchesDead :
    @runProcessors _ (@takerItems .clio hexLib "taker_pays" rpcSrcCurMalformed
        rpcSrcIsrMalformed) nulIssuance = .ok () nulIssuance ∧
      ¬ @BranchesDead .clio hexLib rpcSrcCurMalformed rpcSrcIsrMalformed nulIssuance := by
  refine ⟨rfl, ?_⟩
  intro hdead
  obtain ⟨text, htext, id, hid, -⟩ :=
    @BranchesDead.mptIssue .clio hexLib _ _ _ hdead rfl
  obtain rfl : List.replicate 48 0x30 ++ [0] = text := by
    simpa [nulIssuance, mptAsset, FieldView.child, Json.member?] using htext
  exact noNul_of_readHex? hid (by decide)

end RpcSpec.Handlers.BookOffers
