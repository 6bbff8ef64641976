import RpcSpec.Handlers.Common
import Mathlib.Data.Finset.Insert
set_option autoImplicit false

/-!
# Requests about trust and authorization

`noripple_check`, `gateway_balances` and `deposit_authorized`.

The sections have the `Input`s, the specs and the lemmas that they never fault.
`hotwallet` of `gateway_balances` is the one field with a loop of its own in validator and
converter, and `getAccountID_safe` the lemma about its body.
-/

namespace RpcSpec.Handlers

open RpcSpec.Dsl RpcSpec.Foundation XrpldError

variable [Build] [LibXrpl]

/-! ## `noripple_check` -/

namespace NorippleCheck

/-- The bounds of the number of problems listed, and the number nobody asked for. -/
def kLimitMin : UInt32 := 1
def kLimitMax : UInt32 := 500
def kLimitDefault : UInt32 := 300

/-- Whose trust lines to look through, and for which of the two roles. -/
structure Input where
  ledger : LedgerSpecifier := .unspecified
  account : AccountID := 0
  roleGateway : Bool := false
  limit : UInt32 := 0
  transactions : Bool := false

instance : InputAggregate Input := ⟨{}, 5⟩

/-- `RoleGatewayConverter`, for strings. -/
def roleGateway : Converter Bool where
  parse fieldView := (· == bytesOf "gateway") <$> fieldView.asString

/-- The role is one of two words, which `oneOf` checks before it is read. -/
def kInputSpecV1 : TypedSpec Input where
  fields := [
    ledgerSelector ⟨"ledger", fun out v => { out with ledger := v }⟩,
    field "account" ⟨"account", fun out v => { out with account := v }⟩ [required] accountId,
    field "role" ⟨"roleGateway", fun out v => { out with roleGateway := v }⟩
      [required,
      withCustomError (oneOf ["gateway", "user"]) rpcInvalidParams "role field is invalid"]
      roleGateway,
    field "limit" ⟨"limit", fun out v => { out with limit := v }⟩
      (limitItems kLimitMin kLimitMax kLimitDefault kLimitMin) asUint32,
    field "transactions" ⟨"transactions", fun out v => { out with transactions := v }⟩ []
      jsonBool]
  complete := by rfl

/-- From version 2 on `transactions` must be a boolean. -/
def kInputSpecV2 : TypedSpec Input := extend kInputSpecV1
  [field "transactions" ⟨"transactions", fun out v => { out with transactions := v }⟩ []
    jsonBoolStrict]
  (by rfl)

omit [LibXrpl] in
/-- The role is read as a string once `oneOf` has accepted it. -/
theorem role_neverFaults {Input : Type} {key : String} {member : Member Input Bool}
    {names : List String} {code : CombinedError} {message : String} {unguarded} :
    (field key member [required, withCustomError (oneOf names) code message] roleGateway
      unguarded).NeverFaults := by
  refine field_neverFaults_of_meets (.cons required_neverFaults (.cons ?_ .nil)) ?_
    (Q := fun v => v.present = true → v.HasString fun text => text ∈ names.map bytesOf)
  · exact .withCustomError (.requirement fun v _ => OneOfValidator.verify_safe names v) _ _
  · exact fun v hp hv => ((FieldView.asString_safe (hv hp).isString).mono fun _ _ => trivial).map

theorem kInputSpecV1_neverFaults : kInputSpecV1.NeverFaults := by
  simp [TypedSpec.NeverFaults, kInputSpecV1, role_neverFaults]

theorem kInputSpecV2_neverFaults : kInputSpecV2.NeverFaults :=
  kInputSpecV1_neverFaults.extend (by simp)

end NorippleCheck

/-! ## `gateway_balances` -/

namespace GatewayBalances

/-- The account that issues, and the accounts whose holdings do not count. -/
structure Input where
  ledger : LedgerSpecifier := .unspecified
  account : AccountID := 0
  hotWallets : Finset AccountID := ∅

instance : InputAggregate Input := ⟨{}, 3⟩

/-- The `getAccountID` of the validators: whether the element is a public key or an
address in base58. -/
def getAccountID (elem : FieldView) : Parsed Bool :=
  if !elem.isString then pure false
  else do
    let str ← elem.asString
    pure ((parseBase58Wrapper LibXrpl.parseBase58AccountPublic str).isSome ||
      (parseBase58Wrapper LibXrpl.parseBase58AccountID str).isSome)

/-- `kHotWalletV1` and `kHotWalletV2`, which differ in the code they report. -/
def verifyHotWallet (code : XrpldError) (fieldView : FieldView) : MaybeError := do
  rejectIf (!fieldView.isString && !fieldView.isArray) code
    (fieldView.key ++ "NotStringOrArray")
  if fieldView.isArray then
    forM fieldView.elements fun elem => do
      rejectIf (!(← getAccountID elem)) code (fieldView.key ++ "Malformed")
  else
    rejectIf (!(← getAccountID fieldView)) code (fieldView.key ++ "Malformed")

/-- The error code of version 1 is one of its own. -/
def kHotWalletV1 : Item (Finset AccountID) := customValidator (verifyHotWallet rpcInvalidHotwallet)

/-- From version 2 on it is the general one. -/
def kHotWalletV2 : Item (Finset AccountID) := customValidator (verifyHotWallet rpcInvalidParams)

/-- The `parseOne` of the converter: the accounts with that of the element. -/
def parseOne (result : Finset AccountID) (elem : FieldView) : Parsed (Finset AccountID) :=
  if !elem.isString then throw (unexpected rpcInvalidParams)
  else do
    let id ← orReject (accountFromStringStrict (← elem.asString)) rpcInvalidParams
    pure (insert id result)

/-- `HotWalletConverter`. -/
def hotWalletConv : Converter (Finset AccountID) where
  parse fieldView :=
    if fieldView.isString then parseOne ∅ fieldView
    else fieldView.elements.foldlM parseOne ∅

omit [Build] in
/-- Texts alone are read, and what is no account is no fault. -/
theorem getAccountID_safe (elem : FieldView) : Safe (getAccountID elem) fun _ => True :=
  safe_ite_not_asString (fun _ _ => trivial) fun _ => trivial

omit [Build] in
/-- A string or an array of strings is looked at, anything else refused. -/
theorem verifyHotWallet_safe (code : XrpldError) (v : FieldView) :
    Safe (verifyHotWallet code v) fun _ => True := by
  have hone (elem : FieldView) {message : String} : Safe (do
      rejectIf (!(← getAccountID elem)) code message) fun _ => True :=
    (getAccountID_safe elem).bind fun _ _ => safe_rejectIf.mono fun _ _ => trivial
  apply safe_rejectIf_bind
  intro _
  split
  · exact (Safe.forM fun elem _ => hone elem).mono fun _ _ => trivial
  · exact hone v

omit [Build] in
/-- The converter asks for the kind of what it reads once more. -/
theorem hotWalletConv_neverFaults : hotWalletConv.NeverFaults := by
  have hone (result : Finset AccountID) (elem : FieldView) :
      Safe (parseOne result elem) fun _ => True :=
    safe_ite_not_asString (fun _ _ => safe_orReject_bind fun _ _ => trivial) fun _ => trivial
  intro v
  unfold hotWalletConv
  dsimp only
  split
  · exact hone ∅ v
  · exact Safe.foldlM (fun result elem _ _ => hone result elem) trivial

/-- The hot wallets are checked as a whole and then read one by one. -/
def kInputSpecV1 : TypedSpec Input where
  fields := [
    ledgerSelector ⟨"ledger", fun out v => { out with ledger := v }⟩,
    field "account" ⟨"account", fun out v => { out with account := v }⟩ [required] accountId,
    field "hotwallet" ⟨"hotWallets", fun out v => { out with hotWallets := v }⟩ [kHotWalletV1]
      hotWalletConv]
  complete := by rfl

/-- The field is listed again with the other code. -/
def kInputSpecV2 : TypedSpec Input := extend kInputSpecV1
  [field "hotwallet" ⟨"hotWallets", fun out v => { out with hotWallets := v }⟩ [kHotWalletV2]
    hotWalletConv]
  (by rfl)

theorem kInputSpecV1_neverFaults : kInputSpecV1.NeverFaults := by
  have hitem : kHotWalletV1.NeverFaults :=
    customValidator_neverFaults fun v _ => verifyHotWallet_safe _ v
  simp [TypedSpec.NeverFaults, kInputSpecV1, hitem, hotWalletConv_neverFaults]

/-- The check and the converter are those of version 1. -/
theorem kInputSpecV2_neverFaults : kInputSpecV2.NeverFaults := by
  have hitem : kHotWalletV2.NeverFaults :=
    customValidator_neverFaults fun v _ => verifyHotWallet_safe _ v
  exact kInputSpecV1_neverFaults.extend (by simp [hitem, hotWalletConv_neverFaults])

end GatewayBalances

/-! ## `deposit_authorized` -/

namespace DepositAuthorized

/-- Who would send to whom, and the credentials the sender holds. -/
structure Input where
  ledger : LedgerSpecifier := .unspecified
  sourceAccount : AccountID := 0
  destinationAccount : AccountID := 0
  credentials : Option (List Uint256) := none

instance : InputAggregate Input := ⟨{}, 4⟩

/-- `CredentialsArrayConverter`, for arrays of validated hashes. -/
def credentialsArrayConv : Converter (Option (List Uint256)) where
  parse fieldView :=
    if !fieldView.present then pure none
    else do
      let out ← fieldView.elements.mapM fun elem => do
        uint256FromValidated (← elem.asString)
      pure (some out)

/-- The text for an array of credentials that is none, or empty. -/
def kCredentialsNotNonEmptyArray : String :=
  "Invalid field 'credentials', not is non-empty array of CredentialID(hash256)."

/-- The checks of the credentials, one list of them for each server. -/
def credentialsItems : List (Item (Option (List Uint256))) :=
  [ifServerXrpld
    [withCustomError (type [.array]) rpcInvalidParams kCredentialsNotNonEmptyArray,
    withCustomError (minArrayLength 1) rpcInvalidParams kCredentialsNotNonEmptyArray,
    withCustomError (maxArrayLength LibXrpl.kMaxCredentialsArraySize) rpcInvalidParams
      "Invalid field 'credentials', not array too long.",
    withCustomError hex256Array rpcInvalidParams
      "Invalid field 'credentials', not an array of CredentialID(hash256)."],
  ifServerClio [hex256Array]]

/-- Both accounts are required, and on xrpld must be strings with texts of their own. -/
def kInputSpec : TypedSpec Input where
  fields := [
    ledgerSelector ⟨"ledger", fun out v => { out with ledger := v }⟩,
    field "source_account" ⟨"sourceAccount", fun out v => { out with sourceAccount := v }⟩
      [required,
      ifServerXrpld
        [withCustomError (type [.string]) rpcInvalidParams
          "Invalid field 'source_account', not a string."]]
      accountId,
    field "destination_account"
      ⟨"destinationAccount", fun out v => { out with destinationAccount := v }⟩
      [required,
      ifServerXrpld
        [withCustomError (type [.string]) rpcInvalidParams
          "Invalid field 'destination_account', not a string."]]
      accountId,
    field "credentials" ⟨"credentials", fun out v => { out with credentials := v }⟩
      credentialsItems credentialsArrayConv]
  complete := by rfl

/-- On either server `hex256Array` is the last to check the credentials. -/
theorem credentials_neverFaults {Input : Type} {key : String}
    {member : Member Input (Option (List Uint256))} {unguarded} :
    (field key member credentialsItems credentialsArrayConv unguarded).NeverFaults := by
  have harray {P : FieldView → Prop} :
      (hex256Array : Item (Option (List Uint256))).Meets P fun v => v.present = true →
        v.isArray = true ∧ ∀ elem ∈ v.elements,
          elem.HasString fun text => (parseHexCString 256 text).isSome :=
    .requirement fun v _ => Hex256ArrayValidator.verify_safe v
  refine field_neverFaults_of_meets (.onEither ?_ ?_ ?_ (.cons harray .nil) .nil) ?_
  · exact .inr rfl
  · exact .inr rfl
  · refine .cons ((type_neverFaults _).withCustomError _ _) ?_
    refine .cons ((minArrayLength_neverFaults _).withCustomError _ _) ?_
    refine .cons ((maxArrayLength_neverFaults _).withCustomError _ _) ?_
    exact .cons (harray.withCustomError _ _) .nil
  · intro v hp hv
    simp only [credentialsArrayConv, hp, Bool.not_true, Bool.false_eq_true, if_false]
    refine (Safe.mapM (P := fun _ _ => True) fun elem helem => ?_).bind fun _ _ => trivial
    apply ((hv hp).2 elem helem).asString_bind
    intro text _ htext
    exact (valueOrLogicError_safe htext).mono fun _ _ => trivial

/-- The credentials are read after their array has been checked. -/
theorem kInputSpec_neverFaults : kInputSpec.NeverFaults := by
  simp [TypedSpec.NeverFaults, kInputSpec, credentials_neverFaults]

end DepositAuthorized

end RpcSpec.Handlers
