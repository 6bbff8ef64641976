import RpcSpec.Dsl.Selection
import RpcSpec.Handlers.Issues
set_option autoImplicit false

/-!
# Assets read from a request

Which values `assetFromView` takes for an asset, and for which one; everything else is kept
as malformed for the handler to report.

`assetGrammar` states the grammar as an equivalence, for an object with a currency and an
issuer and for one with an issuance, and that on Clio and on xrpld the same asset is read.
-/

namespace RpcSpec.Handlers

open RpcSpec.Dsl RpcSpec.Foundation XrpldError Text

/-- The value names the asset: by a currency with the issuer it needs, or by the identifier
of an issuance, never by both.  The identifier is 48 digits, or the one character 0. -/
inductive NamesAsset [LibXrpl] (json : Json) : Asset → Prop
  | xrp {text : Bytes} {currency : Currency} (hmpt : json.member? "mpt_issuance_id" = none)
      (htext : json.member? "currency" = some (.string text))
      (hdecoded : LibXrpl.toCurrency text = some currency)
      (hgood : currency ≠ Xrpl.badCurrency ∧ currency ≠ Xrpl.noCurrency)
      (hxrp : Xrpl.isXRP currency = true)
      (hissuer : json.member? "issuer" = none ∨ json.member? "issuer" = some .null) :
      NamesAsset json (.issue Xrpl.xrpIssue)
  | issue {text issuerText : Bytes} {currency : Currency} {issuer : AccountID}
      (hmpt : json.member? "mpt_issuance_id" = none)
      (htext : json.member? "currency" = some (.string text))
      (hdecoded : LibXrpl.toCurrency text = some currency)
      (hgood : currency ≠ Xrpl.badCurrency ∧ currency ≠ Xrpl.noCurrency)
      (hxrp : Xrpl.isXRP currency = false)
      (hissuerText : json.member? "issuer" = some (.string issuerText))
      (hissuer : LibXrpl.parseBase58AccountID issuerText = some issuer)
      (hreal : issuer ≠ Xrpl.noAccount ∧ issuer ≠ Xrpl.xrpAccount) :
      NamesAsset json (.issue ⟨currency, issuer⟩)
  | mptIssue {text : Bytes} (hcurrency : json.member? "currency" = none)
      (hissuer : json.member? "issuer" = none)
      (htext : json.member? "mpt_issuance_id" = some (.string text)) (hhex : IsHex 192 text) :
      NamesAsset json (.mptIssue (BitVec.ofNat 192 (hexNumber text)))
  | zeroIssue (hcurrency : json.member? "currency" = none)
      (hissuer : json.member? "issuer" = none)
      (htext : json.member? "mpt_issuance_id" = some (.string loneZero)) :
      NamesAsset json (.mptIssue 0)

section

variable [LibXrpl] {key : String} {json : Json}

/-- Only an object names an asset. -/
theorem NamesAsset.isObject {asset : Asset} (h : NamesAsset json asset) :
    FieldView.isObject ⟨key, some json⟩ = true := by
  have hmember {name : String} {value : Json} (hvalue : json.member? name = some value) :
      FieldView.isObject ⟨key, some json⟩ = true := by
    cases json <;> first | rfl | cases hvalue
  cases h with
  | xrp _ htext => exact hmember htext
  | issue _ htext => exact hmember htext
  | mptIssue _ _ htext => exact hmember htext
  | zeroIssue _ _ htext => exact hmember htext

/-- A named asset is read. -/
theorem NamesAsset.assetFromView {asset : Asset} (hlib : DocumentedHex)
    (h : NamesAsset json asset) :
    assetFromView ⟨key, some json⟩ = .ok (.ok asset) := by
  have hobject : FieldView.isObject ⟨key, some json⟩ = true := h.isObject
  unfold Dsl.assetFromView
  cases h with
  | xrp hmpt htext hdecoded hgood hxrp hissuer =>
      rcases hissuer with hissuer | hissuer <;>
        simp [hobject, FieldView.child, FieldView.present, FieldView.isString, FieldView.asString,
          FieldView.isNull, hmpt, htext, hdecoded, hgood, hxrp, hissuer, Bind.bind, Except.bind,
          Pure.pure, Except.pure]
  | issue hmpt htext hdecoded hgood hxrp hissuerText hissuer hreal =>
      simp [hobject, FieldView.child, FieldView.present, FieldView.isString, FieldView.asString,
        hmpt, htext, hdecoded, hgood, hxrp, hissuerText, hissuer, hreal, Bind.bind, Except.bind,
        Pure.pure, Except.pure]
  | mptIssue hcurrency hissuer htext hhex =>
      have hparse : LibXrpl.parseHex 192 _ = some _ :=
        (hlib 192 (by decide) _).trans (readHex?_eq_some_iff.mpr (.inr ⟨hhex, rfl⟩))
      simp [hobject, FieldView.child, FieldView.present, FieldView.isString, FieldView.asString,
        hcurrency, hissuer, htext, hparse, Bind.bind, Except.bind, Pure.pure, Except.pure]
  | zeroIssue hcurrency hissuer htext =>
      have hparse : LibXrpl.parseHex 192 loneZero = some 0 :=
        (hlib 192 (by decide) _).trans (readHex?_loneZero 192)
      simp [hobject, FieldView.child, FieldView.present, FieldView.isString, FieldView.asString,
        hcurrency, hissuer, htext, hparse, Bind.bind, Except.bind, Pure.pure, Except.pure]

/-- Without a currency only the identifier of an issuance names an asset. -/
theorem namesAsset_or_malformed_of_noCurrency (hlib : DocumentedHex)
    (hobject : FieldView.isObject ⟨key, some json⟩ = true)
    (hcurrency : json.member? "currency" = none) :
    (∃ asset, NamesAsset json asset) ∨
      Dsl.assetFromView ⟨key, some json⟩ = .ok (.error .malformed) := by
  rcases hmpt : json.member? "mpt_issuance_id" with _ | value
  case' some =>
    rcases hissuer : json.member? "issuer" with _ | issuer
    case' none =>
      cases value
      case' string text =>
        have hlibText := hlib 192 (by decide) text
        rcases hparse : readHex? 192 text with _ | id
        case some =>
          rcases readHex?_eq_some_iff.mp hparse with ⟨rfl, -⟩ | ⟨hhex, -⟩
          · exact .inl ⟨_, .zeroIssue hcurrency hissuer hmpt⟩
          · exact .inl ⟨_, .mptIssue hcurrency hissuer hmpt hhex⟩
  all_goals
    refine .inr ?_
    simp [Dsl.assetFromView, FieldView.child, FieldView.present, FieldView.isString,
      FieldView.asString, Bind.bind, Except.bind, Pure.pure, Except.pure, *]

/-- With a currency the issuer decides, as the currency needs one or not. -/
theorem namesAsset_or_malformed_of_currency {value : Json}
    (hobject : FieldView.isObject ⟨key, some json⟩ = true)
    (hvalue : json.member? "currency" = some value) :
    (∃ asset, NamesAsset json asset) ∨
      Dsl.assetFromView ⟨key, some json⟩ = .ok (.error .malformed) := by
  rcases hmpt : json.member? "mpt_issuance_id" with _ | mpt
  case' none =>
    cases value
    case' string text =>
      rcases hdecoded : LibXrpl.toCurrency text with _ | currency
      case' some =>
        by_cases hgood : currency ≠ Xrpl.badCurrency ∧ currency ≠ Xrpl.noCurrency
        case' pos =>
          cases hxrp : Xrpl.isXRP currency
          case' true =>
            rcases hissuer : json.member? "issuer" with _ | issuer
            case none => exact .inl ⟨_, .xrp hmpt hvalue hdecoded hgood hxrp (.inl hissuer)⟩
            case' some =>
              cases issuer
              case null => exact .inl ⟨_, .xrp hmpt hvalue hdecoded hgood hxrp (.inr hissuer)⟩
          case' false =>
            rcases hissuerText : json.member? "issuer" with _ | issuer
            case' some =>
              cases issuer
              case' string issuerText =>
                rcases hissuer : LibXrpl.parseBase58AccountID issuerText with _ | id
                case' some =>
                  by_cases hreserved : id = Xrpl.noAccount ∨ id = Xrpl.xrpAccount
                  case neg =>
                    have hreal := not_or.mp hreserved
                    exact .inl
                      ⟨_, .issue hmpt hvalue hdecoded hgood hxrp hissuerText hissuer hreal⟩
  all_goals
    refine .inr ?_
    simp_all [Dsl.assetFromView, FieldView.child, FieldView.present, FieldView.isString,
      FieldView.asString, FieldView.isNull, Bind.bind, Except.bind, Pure.pure, Except.pure]

/-- What is read is a named asset or malformed. -/
theorem assetFromView_cases (hlib : DocumentedHex) (key : String) (json : Json) :
    (∃ asset, NamesAsset json asset) ∨
      Dsl.assetFromView ⟨key, some json⟩ = .ok (.error .malformed) := by
  cases hobject : FieldView.isObject ⟨key, some json⟩ with
  | false =>
      refine .inr ?_
      unfold Dsl.assetFromView
      rw [hobject]
      rfl
  | true =>
      cases hcurrency : json.member? "currency" with
      | none => exact namesAsset_or_malformed_of_noCurrency hlib hobject hcurrency
      | some value => exact namesAsset_or_malformed_of_currency hobject hcurrency

/-- An asset is read of the values that name it. -/
theorem assetFromView_eq_ok_iff (hlib : DocumentedHex) {asset : Asset} :
    Dsl.assetFromView ⟨key, some json⟩ = .ok (.ok asset) ↔ NamesAsset json asset := by
  refine ⟨fun h => ?_, fun h => h.assetFromView hlib⟩
  obtain ⟨other, hother⟩ | hmalformed := assetFromView_cases hlib key json
  · rw [hother.assetFromView hlib] at h
    obtain rfl : other = asset := Except.ok.inj (Except.ok.inj h)
    exact hother
  · rw [hmalformed] at h
    cases h

theorem assetFromView_eq_malformed_iff (hlib : DocumentedHex) :
    Dsl.assetFromView ⟨key, some json⟩ = .ok (.error .malformed) ↔
      ∀ asset, ¬ NamesAsset json asset := by
  constructor
  · intro h asset hasset
    rw [hasset.assetFromView hlib] at h
    cases h
  · intro h
    obtain ⟨asset, hasset⟩ | hmalformed := assetFromView_cases hlib key json
    · exact absurd hasset (h asset)
    · exact hmalformed

theorem assetFromView_returns (hlib : DocumentedHex) (key : String) (json : Json) :
    ∃ deferred, Dsl.assetFromView ⟨key, some json⟩ = .ok deferred := by
  obtain ⟨asset, hasset⟩ | hmalformed := assetFromView_cases hlib key json
  · exact ⟨_, hasset.assetFromView hlib⟩
  · exact ⟨_, hmalformed⟩

/-- An issue that is named is consistent. -/
theorem NamesAsset.consistent {issue : Issue} (h : NamesAsset json (.issue issue)) :
    Consistent issue := by
  cases h with
  | xrp => exact ⟨by decide, by decide⟩
  | issue _ _ _ _ hxrp _ _ hreal =>
      rw [consistent_of_not_isXRP hxrp]
      exact ⟨hreal.2, hreal.1⟩

/-! ## `amm_info` -/

/-- On xrpld nothing is checked before the asset is read. -/
theorem assetItems_pass [Build] (hxrpld : kIsClioBuild = false) (v : FieldView) :
    runProcessors AmmInfo.assetItems v = .ok () v := by
  have hskip {inners : List (Item DeferredAsset)} (rest : List (Item DeferredAsset)) :
      runProcessors (ifServerClio inners :: rest) v = runProcessors rest v := by
    rw [runProcessors_cons, ifServerClio, hxrpld, callIfProcessor_inactive]
    rfl
  have htyped {t : JsonType} {inners rest : List (Item DeferredAsset)} :
      runProcessors (ifType t [ifServerClio inners] :: rest) v = runProcessors rest v := by
    have hmodify : (ifType t [ifServerClio inners] : Item DeferredAsset).modify v = .ok () v := by
      rw [ifType, Item.modify]
      change (if !v.present || !v.is t then pure ()
        else runProcessors [ifServerClio inners] : EStateM Failure FieldView Unit) v = _
      split
      · rfl
      · rw [hskip, runProcessors_nil]
        rfl
    rw [runProcessors_cons, callIfProcessor_of_modifier (by simp [ifType, Item.isRequirement])
      (by simp [ifType, Item.isModifier])]
    change EStateM.bind (ifType t [ifServerClio inners] : Item DeferredAsset).modify _ v = _
    rw [EStateM.bind, hmodify]
  rw [AmmInfo.assetItems, hskip, htyped, htyped, runProcessors_nil]
  rfl

/-- What is made of an asset of `amm_info` on xrpld. -/
theorem ammInfo_asset_parseOne [Build] (hxrpld : kIsXrpldBuild = true)
    {member : Member AmmInfo.Input DeferredAsset} {unguarded} {root : Json}
    {deferred : DeferredAsset} (hjson : root.member? key = some json)
    (h : Dsl.assetFromView ⟨key, some json⟩ = .ok deferred) (out : AmmInfo.Input) :
    (Dsl.field key member AmmInfo.assetItems (deferredAsset AmmInfo.issueConv) unguarded).parseOne
      out root = .ok (member.assign out deferred) root := by
  have hskips : skipsField AmmInfo.assetItems root = false := by
    simp [skipsField, AmmInfo.assetItems, ifServerClio, ifType, Item.skips, skipsAny,
      Dsl.withCustomError]
  refine field_parseOne_of_passes hskips hjson (assetItems_pass ?_ _) ?_ out
  · simpa [kIsXrpldBuild] using hxrpld
  · simp only [deferredAsset, hxrpld, if_true, h]

/-- What is taken for an asset, and what becomes of the rest. -/
structure AssetGrammar (json : Json) : Prop where
  names : ∀ key asset,
    Dsl.assetFromView ⟨key, some json⟩ = .ok (.ok asset) ↔ NamesAsset json asset
  malformed : ∀ key, Dsl.assetFromView ⟨key, some json⟩ = .ok (.error .malformed) ↔
    ∀ asset, ¬ NamesAsset json asset
  consistent : ∀ issue, NamesAsset json (.issue issue) → Consistent issue
  /-- The fields of `amm_info` take any value on xrpld. -/
  ammInfo : ∀ f ∈ effectiveFields (@AmmInfo.kInputSpec .xrpld _).fields,
    ∀ root, root.member? f.key = some json →
      ∃ deferred, Dsl.assetFromView ⟨f.key, some json⟩ = .ok deferred ∧ ∀ out,
        (f.key = "asset" → @Field.parseOne _ .xrpld _ f out root =
          .ok { out with asset1 := deferred } root) ∧
        (f.key = "asset2" → @Field.parseOne _ .xrpld _ f out root =
          .ok { out with asset2 := deferred } root)

/-- Assets are what the grammar says. -/
theorem assetGrammar (hlib : DocumentedHex) (json : Json) : AssetGrammar json where
  names _ _ := assetFromView_eq_ok_iff hlib
  malformed _ := assetFromView_eq_malformed_iff hlib
  consistent _ h := h.consistent
  ammInfo f hf root hjson := by
    obtain ⟨deferred, h⟩ := assetFromView_returns hlib f.key json
    refine ⟨deferred, h, ?_⟩
    intro out
    have hfields := mem_of_mem_effectiveFields hf
    simp only [AmmInfo.kInputSpec, List.mem_cons, List.not_mem_nil, or_false] at hfields
    rcases hfields with rfl | rfl | rfl | rfl | rfl
    case inr.inl =>
      refine ⟨fun _ => ?_, fun hkey => absurd hkey (of_decide_eq_false rfl)⟩
      exact @ammInfo_asset_parseOne _ _ _ .xrpld rfl _ _ _ _ hjson h out
    case inr.inr.inl =>
      refine ⟨fun hkey => absurd hkey (of_decide_eq_false rfl), fun _ => ?_⟩
      exact @ammInfo_asset_parseOne _ _ _ .xrpld rfl _ _ _ _ hjson h out
    all_goals
      exact ⟨fun hkey => absurd hkey (of_decide_eq_false rfl),
        fun hkey => absurd hkey (of_decide_eq_false rfl)⟩

end

/-- An issuance named by 48 zeros. -/
theorem assetGrammar_zeros : @AssetGrammar hexLib
    (.object [("mpt_issuance_id", .string (List.replicate 48 0x30))]) :=
  @assetGrammar hexLib hexLib_documentedHex _

/-- An issuance named by the one character 0. -/
def zeroIssuance : Json := .object [("mpt_issuance_id", .string loneZero)]

/-- It is read as an asset, though it has no currency and its identifier is not 48 digits. -/
theorem zeroIssuance_read :
    zeroIssuance.member? "currency" = none ∧
      zeroIssuance.member? "mpt_issuance_id" = some (.string loneZero) ∧ ¬ IsHex 192 loneZero ∧
      @Dsl.assetFromView hexLib ⟨"asset", some zeroIssuance⟩ = .ok (.ok (.mptIssue 0)) :=
  ⟨rfl, rfl, by decide, rfl⟩

end RpcSpec.Handlers
