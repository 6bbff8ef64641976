import RpcSpec.Dsl.HexText
import RpcSpec.Handlers.Markets
import RpcSpec.Handlers.LedgerEntry
set_option autoImplicit false

/-!
# Issues read from currency and issuer

The issue that `ledger_entry` and `amm_info` read from an object `CurrencyIssueValidator`
has accepted, and when it is a consistent one.

`issuesConsistent_iff` says when: where the issuer is neither the account of XRP nor the
one that stands for no account.
-/

namespace RpcSpec.Handlers

open RpcSpec.Dsl RpcSpec.Foundation XrpldError

/-- XRP and nothing else is issued by the account of XRP, and nothing by no account. -/
def Consistent (issue : Issue) : Prop :=
  (Xrpl.isXRP issue.currency = true ↔ issue.account = Xrpl.xrpAccount) ∧
    (Xrpl.isXRP issue.currency = false → issue.account ≠ Xrpl.noAccount)

variable [Build] [LibXrpl] {v : FieldView}

section Readings

variable {text : Bytes} {currency : Currency}

omit [Build] in
/-- Once the currency is decoded, the issuer decides. -/
theorem issueFromCurrencyIssue_of_currency
    (htext : (v.child "currency").value = some (.string text))
    (hcurrency : LibXrpl.toCurrency text = some currency) :
    LedgerEntry.issueFromCurrencyIssue v =
      if Xrpl.isXRP currency then pure ⟨currency, 0⟩
      else (do
        let issuer ← issuerFromValidated (← (v.child "issuer").asString)
        pure ⟨currency, issuer⟩) := by
  unfold LedgerEntry.issueFromCurrencyIssue
  rw [FieldView.asString_eq_ok_iff.mpr htext]
  change (do let currency ← valueOrLogicError (LibXrpl.toCurrency text); _ : Parsed Issue) = _
  rw [hcurrency]
  rfl

omit [Build] in
theorem issueConv_of_currency (hobject : v.isObject = true)
    (htext : (v.child "currency").value = some (.string text))
    (hcurrency : LibXrpl.toCurrency text = some currency) :
    AmmInfo.issueConv.parse v =
      if Xrpl.isXRP currency then pure Xrpl.xrpIssue
      else (do
        let issuer ← orReject (LibXrpl.toIssuer (← (v.child "issuer").asString)) rpcIssueMalformed
        pure ⟨currency, issuer⟩) := by
  have hstring : v.isString = false := by
    obtain ⟨key, value⟩ := v
    rcases value with _ | (_ | _ | _ | _ | _ | _ | _ | _) <;> first | rfl | cases hobject
  simp only [AmmInfo.issueConv, hstring, hobject, Bool.false_eq_true, if_false, if_true,
    FieldView.asString_eq_ok_iff.mpr htext]
  change (do let currency ← orReject (LibXrpl.toCurrency text) _; _ : Parsed Issue) = _
  rw [hcurrency]
  rfl

end Readings

/-- The issuer of the object is the account of XRP or no account. -/
def IssuerReserved (v : FieldView) : Prop :=
  (v.child "issuer").HasString fun text =>
    ∃ id, LibXrpl.toIssuer text = some id ∧ (id = Xrpl.xrpAccount ∨ id = Xrpl.noAccount)

/-- Both readings of the object come to the same issue, a consistent one. -/
def IssuesConsistent (v : FieldView) : Prop :=
  ∃ issue, LedgerEntry.issueFromCurrencyIssue v = .ok issue ∧
    AmmInfo.issueConv.parse v = .ok issue ∧ Consistent issue

omit [LibXrpl] [Build] in
/-- For a currency other than XRP two accounts are excluded. -/
theorem consistent_of_not_isXRP {issue : Issue} (h : Xrpl.isXRP issue.currency = false) :
    Consistent issue ↔ issue.account ≠ Xrpl.xrpAccount ∧ issue.account ≠ Xrpl.noAccount := by
  simp [Consistent, h]

/-- The issue of an accepted object is consistent unless its issuer is one of the two
accounts that issue nothing. -/
theorem issuesConsistent_iff (hobject : v.isObject = true)
    (haccepted : CurrencyIssueValidator.verify v = .ok ()) :
    IssuesConsistent v ↔ ¬ IssuerReserved v := by
  have hpresent : v.present = true := FieldView.present_of_is (t := .object) hobject
  obtain ⟨-, text, htext, currency, hcurrency, hissuer⟩ :=
    (CurrencyIssueValidator.verify_safe v).of_ok haccepted hpresent
  unfold IssuesConsistent
  rw [issueFromCurrencyIssue_of_currency htext hcurrency,
    issueConv_of_currency hobject htext hcurrency]
  cases hxrp : Xrpl.isXRP currency with
  | true =>
      obtain rfl : currency = 0 := by simpa [Xrpl.isXRP] using hxrp
      simp only [hxrp, if_true] at hissuer ⊢
      have hnot : ¬ IssuerReserved v := by
        rintro ⟨_, hvalue, -⟩
        simp [FieldView.present, hvalue] at hissuer
      refine iff_of_true ⟨Xrpl.xrpIssue, rfl, rfl, ?_⟩ hnot
      exact ⟨by decide, by decide⟩
  | false =>
      simp only [hxrp, Bool.false_eq_true, if_false] at hissuer ⊢
      obtain ⟨issuerText, hvalue, hsome⟩ := hissuer
      obtain ⟨id, hid⟩ := Option.isSome_iff_exists.mp hsome
      have hread := FieldView.asString_eq_ok_iff.mpr hvalue
      have hreserved : IssuerReserved v ↔ id = Xrpl.xrpAccount ∨ id = Xrpl.noAccount := by
        constructor
        · rintro ⟨_, hvalue', id', hid', h⟩
          obtain rfl : issuerText = _ := by simpa [hvalue] using hvalue'
          obtain rfl : id = id' := by simpa [hid] using hid'
          exact h
        · exact fun h => ⟨issuerText, hvalue, id, hid, h⟩
      have hconsistent : Consistent ⟨currency, id⟩ ↔ _ := consistent_of_not_isXRP hxrp
      have hentry : (do
          let issuer ← issuerFromValidated (← (v.child "issuer").asString)
          pure ⟨currency, issuer⟩ : Parsed Issue) = .ok ⟨currency, id⟩ := by
        rw [hread]
        change (do let issuer ← valueOrLogicError (LibXrpl.toIssuer issuerText); _ :
          Parsed Issue) = _
        rw [hid]
        rfl
      have hamm : (do
          let issuer ← orReject (LibXrpl.toIssuer (← (v.child "issuer").asString))
            rpcIssueMalformed
          pure ⟨currency, issuer⟩ : Parsed Issue) = .ok ⟨currency, id⟩ := by
        rw [hread]
        change (do let issuer ← orReject (LibXrpl.toIssuer issuerText) _; _ : Parsed Issue) = _
        rw [hid]
        rfl
      rw [hreserved, not_or, ← hconsistent, hentry, hamm]
      constructor
      · rintro ⟨issue, ⟨⟩, -, hc⟩
        exact hc
      · exact fun hc => ⟨_, rfl, rfl, hc⟩

/-- An issue of USD by the account of the number. -/
def usdIssue (issuer : UInt8) : FieldView :=
  ⟨"asset", some (.object [("currency", .string (bytesOf "USD")),
    ("issuer", .string (List.replicate 39 0x30 ++ [issuer]))])⟩

set_option maxRecDepth 4000 in
omit [Build] [LibXrpl] in
/-- Dollars of a proper issuer. -/
theorem issuesConsistent_iff_usdIssue : @IssuesConsistent hexLib (usdIssue 0x32) := by
  refine (@issuesConsistent_iff .clio hexLib (usdIssue 0x32) rfl rfl).mpr ?_
  rintro ⟨text, htext, id, hid, hreserved⟩
  have hvalue : some (Json.string (List.replicate 39 0x30 ++ [0x32])) = some (.string text) := htext
  obtain rfl : List.replicate 39 0x30 ++ [0x32] = text := Json.string.inj (Option.some.inj hvalue)
  have htwo : hexLib.toIssuer (List.replicate 39 0x30 ++ [0x32]) = some 2 := rfl
  obtain rfl : (2 : AccountID) = id := Option.some.inj (htwo.symm.trans hid)
  exact absurd hreserved (by decide)

set_option maxRecDepth 4000 in
omit [Build] [LibXrpl] in
/-- The account one is let pass, as no issuer is elsewhere. -/
theorem usdIssue_one_not_consistent :
    @CurrencyIssueValidator.verify .clio hexLib (usdIssue 0x31) = .ok () ∧
      ∃ issue, @LedgerEntry.issueFromCurrencyIssue hexLib (usdIssue 0x31) = .ok issue ∧
        ¬ Consistent issue :=
  ⟨rfl, ⟨0x5553440000000000, 1⟩, rfl, fun h => h.2 (by decide) rfl⟩

end RpcSpec.Handlers
