import RpcSpec.Handlers.Common
set_option autoImplicit false

/-!
# `ledger_entry`

Most of the selectors name an entry either by its hash or by the members it is
found by.  The converters trust the items before them: an object has been looked
into by a section, a string has been read as a hash.

The sections follow the source: the entries with the records they are described by, the
validators, the converters, the items of each selector, and the spec with all of its
fields in order.
-/

namespace RpcSpec.Handlers.LedgerEntry

open RpcSpec.Dsl RpcSpec.Foundation XrpldError

/-! ## The entries -/

/-- A directory: by its root, or by its owner, and which page of it. -/
structure DirectoryEntry where
  owner : Option AccountID := none
  dirRoot : Option Uint256 := none
  subIndex : Option UInt32 := none
  deriving DecidableEq, Repr

/-- An offer: who made it and in which transaction. -/
structure OfferEntry where
  account : AccountID
  seq : UInt32
  deriving DecidableEq, Repr

/-- An escrow: who made it and in which transaction. -/
structure EscrowEntry where
  owner : AccountID
  seq : UInt32
  deriving DecidableEq, Repr

/-- A ticket: whose it is and its own sequence. -/
structure TicketEntry where
  account : AccountID
  ticketSeq : UInt32
  deriving DecidableEq, Repr

/-- A permissioned domain: who made it and in which transaction. -/
structure PermissionedDomainEntry where
  account : AccountID
  seq : UInt32
  deriving DecidableEq, Repr

/-- A vault: who made it and in which transaction. -/
structure VaultEntry where
  owner : AccountID
  seq : UInt32
  deriving DecidableEq, Repr

/-- A loan broker: who made it and in which transaction. -/
structure LoanBrokerEntry where
  owner : AccountID
  seq : UInt32
  deriving DecidableEq, Repr

/-- A loan: the broker it is from and its number there. -/
structure LoanEntry where
  loanBrokerId : Uint256
  loanSeq : UInt32
  deriving DecidableEq, Repr

/-- A delegation: by whom and to whom. -/
structure DelegateEntry where
  account : AccountID
  authorize : AccountID
  deriving DecidableEq, Repr

/-- A sponsorship: by whom and of whom. -/
structure SponsorshipEntry where
  sponsor : AccountID
  sponsee : AccountID
  deriving DecidableEq, Repr

/-- The holding of a multi-purpose token: whose and of which issuance. -/
structure MptokenEntry where
  account : AccountID
  mptIssuanceId : Uint192
  deriving DecidableEq, Repr

/-- A market maker: the two assets of its pool. -/
structure AmmEntry where
  asset : Issue
  asset2 : Issue
  deriving DecidableEq, Repr

/-- A price oracle: whose it is and the id of its document. -/
structure OracleEntry where
  account : AccountID
  oracleDocumentId : UInt32
  deriving DecidableEq, Repr

/-- A credential: about whom, by whom and of which type. -/
structure CredentialEntry where
  subject : AccountID
  issuer : AccountID
  credentialType : Bytes
  deriving DecidableEq, Repr

/-- A credential that a deposit may be made with. -/
structure AuthorizeCredentialEntry where
  issuer : AccountID
  credentialType : Bytes
  deriving DecidableEq, Repr

/-- A preauthorisation: by whom, and for whom or for which credentials. -/
structure DepositPreauthEntry where
  owner : AccountID
  authorized : Option AccountID
  authorizedCredentials : Option (List AuthorizeCredentialEntry)
  deriving DecidableEq, Repr

/-- A trust line: between whom and in which currency. -/
structure RippleStateEntry where
  accounts : AccountID × AccountID
  currency : Currency
  deriving DecidableEq, Repr

/-- A bridge: a door and an issue on either chain. -/
structure BridgeSpec where
  lockingChainDoor : AccountID
  issuingChainDoor : AccountID
  lockingChainIssue : Issue
  issuingChainIssue : Issue
  deriving DecidableEq, Repr

/-- A claim on a bridge. -/
structure XChainClaimIdEntry where
  bridge : BridgeSpec
  claimId : UInt32
  deriving DecidableEq, Repr

/-- One member for every way to name an entry; which one counts is left to the handler. -/
structure Input where
  ledger : LedgerSpecifier := .unspecified
  binary : JsonBool := false
  includeDeleted : JsonBool := false
  index : Option Uint256 := none
  check : Option Uint256 := none
  paymentChannel : Option Uint256 := none
  nftPage : Option Uint256 := none
  nftOffer : Option Uint256 := none
  signerList : Option Uint256 := none
  amendments : Option Uint256 := none
  fee : Option Uint256 := none
  hashes : Option Uint256 := none
  nunl : Option Uint256 := none
  accountRoot : Option AccountID := none
  did : Option AccountID := none
  mptIssuance : Option Uint192 := none
  directory : Option (Uint256 ⊕ DirectoryEntry) := none
  offer : Option (Uint256 ⊕ OfferEntry) := none
  escrow : Option (Uint256 ⊕ EscrowEntry) := none
  depositPreauth : Option (Uint256 ⊕ DepositPreauthEntry) := none
  ticket : Option (Uint256 ⊕ TicketEntry) := none
  amm : Option (Uint256 ⊕ AmmEntry) := none
  mptoken : Option (Uint256 ⊕ MptokenEntry) := none
  permissionedDomain : Option (Uint256 ⊕ PermissionedDomainEntry) := none
  vault : Option (Uint256 ⊕ VaultEntry) := none
  loanBroker : Option (Uint256 ⊕ LoanBrokerEntry) := none
  loan : Option (Uint256 ⊕ LoanEntry) := none
  oracle : Option (Uint256 ⊕ OracleEntry) := none
  credential : Option (Uint256 ⊕ CredentialEntry) := none
  delegate : Option (Uint256 ⊕ DelegateEntry) := none
  sponsorship : Option (Uint256 ⊕ SponsorshipEntry) := none
  rippleStateAccount : Option (Uint256 ⊕ RippleStateEntry) := none
  bridge : Option BridgeSpec := none
  bridgeAccount : Option AccountID := none
  xchainOwnedClaimId : Option (Uint256 ⊕ XChainClaimIdEntry) := none
  xchainOwnedCreateAccountClaimId : Option (Uint256 ⊕ XChainClaimIdEntry) := none

instance : InputAggregate Input := ⟨{}, 36⟩

variable [Build] [LibXrpl] {α : Type}

/-! ## Validators -/

/-- The function of `kRippleStateAccountsValidator`. -/
def verifyRippleStateAccounts (fieldView : FieldView) : MaybeError := do
  rejectIf (!fieldView.isArray || fieldView.arraySize != 2) rpcInvalidParams "malformedAccounts"
  let elem0 := fieldView.element 0
  let elem1 := fieldView.element 1
  rejectIf (!elem0.isString || !elem1.isString) rpcInvalidParams "malformedAccounts"
  let text0 ← elem0.asString
  let text1 ← elem1.asString
  rejectIf (text0 = text1) rpcInvalidParams "malformedAccounts"
  let id1 := parseBase58Wrapper LibXrpl.parseBase58AccountID text0
  let id2 := parseBase58Wrapper LibXrpl.parseBase58AccountID text1
  rejectIf (id1.isNone || id2.isNone) kMalformedAddress "malformedAddresses"

/-- The ends of a trust line are two accounts. -/
def kRippleStateAccountsValidator : Item α := customValidator verifyRippleStateAccounts

/-- A hash, with the one code the selectors report. -/
def kMalformedRequestHexStringValidator : Item α := withCustomError uint256Hex kMalformedRequest

/-- A 32-bit number, with that code. -/
def kMalformedRequestIntValidator : Item α := withCustomError (type [.uint32]) kMalformedRequest

/-- The members of a bridge. -/
def bridgeFields : List (FieldSpec α) :=
  [.mk "LockingChainDoor" [required, accountBase58],
  .mk "IssuingChainDoor" [required, accountBase58],
  .mk "LockingChainIssue" [required, currencyIssue],
  .mk "IssuingChainIssue" [required, currencyIssue]]

/-- The members of a bridge are looked at where there is an object. -/
def kBridgeJsonValidator : Item α :=
  withCustomError (ifType .object [section_ bridgeFields]) kMalformedRequest

/-! ## Converters -/

/-- An account whose validator has run. -/
def accountOf (view : FieldView) : Parsed AccountID := do accountFromValidated (← view.asString)

/-- A hash whose validator has run. -/
def uint256Of (view : FieldView) : Parsed Uint256 := do uint256FromValidated (← view.asString)

/-- An issue whose validator has run: the issuer is not read for XRP. -/
def issueFromCurrencyIssue (fieldView : FieldView) : Parsed Issue := do
  let currency ← currencyFromValidated (← (fieldView.child "currency").asString)
  if Xrpl.isXRP currency then pure ⟨currency, 0⟩
  else do
    let issuer ← issuerFromValidated (← (fieldView.child "issuer").asString)
    pure ⟨currency, issuer⟩

/-- A bridge whose section has run. -/
def bridgeSpecFromObject (fieldView : FieldView) : Parsed BridgeSpec := do
  let lockingChainDoor ← accountOf (fieldView.child "LockingChainDoor")
  let issuingChainDoor ← accountOf (fieldView.child "IssuingChainDoor")
  let lockingChainIssue ← issueFromCurrencyIssue (fieldView.child "LockingChainIssue")
  let issuingChainIssue ← issueFromCurrencyIssue (fieldView.child "IssuingChainIssue")
  pure { lockingChainDoor, issuingChainDoor, lockingChainIssue, issuingChainIssue }

/-- The converters of the selectors, which differ in how they read an object. -/
def hashOrEntry {β : Type} (entryOf : FieldView → Parsed β) : Converter (Uint256 ⊕ β) where
  parse fieldView :=
    if fieldView.isString then .inl <$> uint256Of fieldView
    else .inr <$> entryOf fieldView

/-- A member that is read where it is given. -/
def whenGiven {β : Type} (given : Bool) (x : Parsed β) : Parsed (Option β) :=
  if given then some <$> x else pure none

/-- `DirectoryConverter`. -/
def directoryConv : Converter (Uint256 ⊕ DirectoryEntry) := hashOrEntry fun fieldView => do
  let ownerView := fieldView.child "owner"
  let owner ← whenGiven (ownerView.present && ownerView.isString) (accountOf ownerView)
  let dirRootView := fieldView.child "dir_root"
  let dirRoot ← whenGiven (dirRootView.present && dirRootView.isString) (uint256Of dirRootView)
  let subIndexView := fieldView.child "sub_index"
  let subIndex ← whenGiven (subIndexView.present && subIndexView.isUint32) subIndexView.asUint32
  pure { owner, dirRoot, subIndex }

/-- `OfferConverter`. -/
def offerConv : Converter (Uint256 ⊕ OfferEntry) := hashOrEntry fun fieldView => do
  let account ← accountOf (fieldView.child "account")
  let seq ← (fieldView.child "seq").asUint32
  pure { account, seq }

/-- `EscrowConverter`. -/
def escrowConv : Converter (Uint256 ⊕ EscrowEntry) := hashOrEntry fun fieldView => do
  let owner ← accountOf (fieldView.child "owner")
  let seq ← (fieldView.child "seq").asUint32
  pure { owner, seq }

/-- `TicketConverter`. -/
def ticketConv : Converter (Uint256 ⊕ TicketEntry) := hashOrEntry fun fieldView => do
  let account ← accountOf (fieldView.child "account")
  let ticketSeq ← (fieldView.child "ticket_seq").asUint32
  pure { account, ticketSeq }

/-- `PermissionedDomainConverter`. -/
def permissionedDomainConv : Converter (Uint256 ⊕ PermissionedDomainEntry) :=
  hashOrEntry fun fieldView => do
    let account ← accountOf (fieldView.child "account")
    let seq ← (fieldView.child "seq").asUint32
    pure { account, seq }

/-- `VaultConverter`. -/
def vaultConv : Converter (Uint256 ⊕ VaultEntry) := hashOrEntry fun fieldView => do
  let owner ← accountOf (fieldView.child "owner")
  let seq ← (fieldView.child "seq").asUint32
  pure { owner, seq }

/-- `LoanBrokerConverter`. -/
def loanBrokerConv : Converter (Uint256 ⊕ LoanBrokerEntry) := hashOrEntry fun fieldView => do
  let owner ← accountOf (fieldView.child "owner")
  let seq ← (fieldView.child "seq").asUint32
  pure { owner, seq }

/-- `LoanConverter`. -/
def loanConv : Converter (Uint256 ⊕ LoanEntry) := hashOrEntry fun fieldView => do
  let loanBrokerId ← uint256Of (fieldView.child "loan_broker_id")
  let loanSeq ← (fieldView.child "loan_seq").asUint32
  pure { loanBrokerId, loanSeq }

/-- `DelegateConverter`. -/
def delegateConv : Converter (Uint256 ⊕ DelegateEntry) := hashOrEntry fun fieldView => do
  let account ← accountOf (fieldView.child "account")
  let authorize ← accountOf (fieldView.child "authorize")
  pure { account, authorize }

/-- `SponsorshipConverter`. -/
def sponsorshipConv : Converter (Uint256 ⊕ SponsorshipEntry) := hashOrEntry fun fieldView => do
  let sponsor ← accountOf (fieldView.child "sponsor")
  let sponsee ← accountOf (fieldView.child "sponsee")
  pure { sponsor, sponsee }

/-- `MptokenConverter`. -/
def mptokenConv : Converter (Uint256 ⊕ MptokenEntry) := hashOrEntry fun fieldView => do
  let account ← accountOf (fieldView.child "account")
  let mptIssuanceId ← uint192FromValidated (← (fieldView.child "mpt_issuance_id").asString)
  pure { account, mptIssuanceId }

/-- `AmmConverter`. -/
def ammConv : Converter (Uint256 ⊕ AmmEntry) := hashOrEntry fun fieldView => do
  let asset ← issueFromCurrencyIssue (fieldView.child "asset")
  let asset2 ← issueFromCurrencyIssue (fieldView.child "asset2")
  pure { asset, asset2 }

/-- `OracleConverter`. -/
def oracleConv : Converter (Uint256 ⊕ OracleEntry) := hashOrEntry fun fieldView => do
  let account ← accountOf (fieldView.child "account")
  let oracleDocumentId ← (fieldView.child "oracle_document_id").asUint32
  pure { account, oracleDocumentId }

/-- `CredentialConverter`. -/
def credentialConv : Converter (Uint256 ⊕ CredentialEntry) := hashOrEntry fun fieldView => do
  let subject ← accountOf (fieldView.child "subject")
  let issuer ← accountOf (fieldView.child "issuer")
  let credentialType ← (fieldView.child "credential_type").asString
  pure { subject, issuer, credentialType }

/-- The body of the loop of `DepositPreauthConverter`. -/
def authorizeCredentialOf (elem : FieldView) : Parsed AuthorizeCredentialEntry := do
  let issuer ← accountOf (elem.child "issuer")
  let credentialType ← (elem.child "credential_type").asString
  pure { issuer, credentialType }

/-- `DepositPreauthConverter`. -/
def depositPreauthConv : Converter (Uint256 ⊕ DepositPreauthEntry) :=
  hashOrEntry fun fieldView => do
    let owner ← accountOf (fieldView.child "owner")
    let authView := fieldView.child "authorized"
    let authorized ← whenGiven (authView.present && authView.isString) (accountOf authView)
    let credsView := fieldView.child "authorized_credentials"
    let authorizedCredentials ← whenGiven (credsView.present && credsView.isArray)
      (credsView.elements.mapM authorizeCredentialOf)
    pure { owner, authorized, authorizedCredentials }

/-- `RippleStateConverter`. -/
def rippleStateConv : Converter (Uint256 ⊕ RippleStateEntry) := hashOrEntry fun fieldView => do
  let accountsView := fieldView.child "accounts"
  let account0 ← accountOf (accountsView.element 0)
  let account1 ← accountOf (accountsView.element 1)
  let currency ← currencyFromValidated (← (fieldView.child "currency").asString)
  pure { accounts := (account0, account1), currency }

/-- `BridgeConverter`. -/
def bridgeConv : Converter BridgeSpec where
  parse fieldView := bridgeSpecFromObject fieldView

/-- The converters of the two claim ids, which differ in the key of the id. -/
def xChainConv (claimKey : String) : Converter (Uint256 ⊕ XChainClaimIdEntry) :=
  hashOrEntry fun fieldView => do
    let bridge ← bridgeSpecFromObject fieldView
    let claimId ← (fieldView.child claimKey).asUint32
    pure { bridge, claimId }

/-- `XChainClaimIdConverter`. -/
def xChainClaimIdConv : Converter (Uint256 ⊕ XChainClaimIdEntry) :=
  xChainConv "xchain_owned_claim_id"

/-- `XChainCreateAccountClaimIdConverter`. -/
def xChainCreateAccountClaimIdConv : Converter (Uint256 ⊕ XChainClaimIdEntry) :=
  xChainConv "xchain_owned_create_account_claim_id"

/-! ## The items of the selectors -/

/-- A hash or an object, an item for each. -/
def selectorItems (typeCheck hash : Item α) (subFields : List (FieldSpec α)) : List (Item α) :=
  [typeCheck, ifType .string [hash], ifType .object [section_ subFields]]

/-- A selector is a hash or a description. -/
def stringOrObject : Item α := type [.string, .object]

/-- The same, with the code of a malformed request. -/
def malformedUnlessStringOrObject : Item α := withCustomError stringOrObject kMalformedRequest

/-- Two of the selectors report a bad hash with the code for addresses. -/
def malformedAddressUnlessHash : Item α :=
  withCustomError kMalformedRequestHexStringValidator kMalformedAddress

/-! ### Their members -/

/-- A member that is missing makes the request malformed. -/
def requiredOrMalformed : Item α := withCustomError required kMalformedRequest

/-- An address, with the code for addresses. -/
def accountOrMalformed : Item α := withCustomError accountBase58 kMalformedAddress

/-- An address, with the code for owners. -/
def ownerOrMalformed : Item α := withCustomError accountBase58 kMalformedOwner

/-- Neither of the two ways to say who is authorised is required here. -/
def depositPreauthFields : List (FieldSpec α) :=
  [.mk "owner" [required, ownerOrMalformed],
  .mk "authorized" [accountBase58],
  .mk "authorized_credentials" [authorizeCredential]]

/-- Nothing is required of a directory. -/
def directoryFields : List (FieldSpec α) :=
  [.mk "owner" [accountBase58],
  .mk "dir_root" [uint256Hex],
  .mk "sub_index" [kMalformedRequestIntValidator]]

/-- An escrow by its owner and sequence. -/
def escrowFields : List (FieldSpec α) :=
  [.mk "owner" [required, ownerOrMalformed],
  .mk "seq" [required, kMalformedRequestIntValidator]]

/-- An offer by its account and sequence. -/
def offerFields : List (FieldSpec α) :=
  [.mk "account" [required, accountBase58],
  .mk "seq" [required, kMalformedRequestIntValidator]]

/-- Both ends and the currency of a trust line. -/
def rippleStateFields : List (FieldSpec α) :=
  [.mk "accounts" [required, kRippleStateAccountsValidator],
  .mk "currency" [required, currency]]

/-- A ticket by its account and sequence. -/
def ticketFields : List (FieldSpec α) :=
  [.mk "account" [required, accountBase58],
  .mk "ticket_seq" [required, kMalformedRequestIntValidator]]

/-- The checks of one asset of an `amm`. -/
def assetItems : List (Item α) :=
  [requiredOrMalformed, withCustomError (type [.object]) kMalformedRequest, currencyIssue]

/-- A pool by its two assets. -/
def ammFields : List (FieldSpec α) := [.mk "asset" assetItems, .mk "asset2" assetItems]

/-- The id may be spelled as a string, which is rewritten to a number. -/
def oracleFields : List (FieldSpec α) :=
  [.mk "account" [requiredOrMalformed, accountOrMalformed],
  .mk "oracle_document_id"
    [requiredOrMalformed,
    withCustomError (type [.uint32, .string]) kMalformedOracleDocumentId,
    withCustomError toNumber kMalformedOracleDocumentId]]

/-- The type of a credential is text in hexadecimal. -/
def credentialFields : List (FieldSpec α) :=
  [.mk "subject" [requiredOrMalformed, accountOrMalformed],
  .mk "issuer" [requiredOrMalformed, accountOrMalformed],
  .mk "credential_type"
    [requiredOrMalformed, withCustomError (type [.string]) kMalformedRequest, credentialType]]

/-- The holder and the issuance. -/
def mptokenFields : List (FieldSpec α) :=
  [.mk "account" [requiredOrMalformed, accountOrMalformed],
  .mk "mpt_issuance_id"
    [requiredOrMalformed, withCustomError uint192Hex kMalformedRequest]]

/-- A domain by its account and sequence. -/
def permissionedDomainFields : List (FieldSpec α) :=
  [.mk "seq" [requiredOrMalformed, kMalformedRequestIntValidator],
  .mk "account" [requiredOrMalformed, accountOrMalformed]]

/-- A vault by its owner and sequence. -/
def vaultFields : List (FieldSpec α) :=
  [.mk "seq" [requiredOrMalformed, kMalformedRequestIntValidator],
  .mk "owner" [requiredOrMalformed, ownerOrMalformed]]

/-- A loan broker by its owner and sequence. -/
def loanBrokerFields : List (FieldSpec α) :=
  [.mk "seq" [requiredOrMalformed, kMalformedRequestIntValidator],
  .mk "owner" [requiredOrMalformed, ownerOrMalformed]]

/-- A loan is named by a hash and a number. -/
def loanFields : List (FieldSpec α) :=
  [.mk "loan_seq" [requiredOrMalformed, kMalformedRequestIntValidator],
  .mk "loan_broker_id"
    [requiredOrMalformed, withCustomError uint256Hex kMalformedRequest]]

/-- A delegation by its two accounts. -/
def delegateFields : List (FieldSpec α) :=
  [.mk "account" [requiredOrMalformed, accountOrMalformed],
  .mk "authorize" [requiredOrMalformed, accountOrMalformed]]

/-- A sponsorship by its two accounts. -/
def sponsorshipFields : List (FieldSpec α) :=
  [.mk "sponsor" [requiredOrMalformed, accountOrMalformed],
  .mk "sponsee" [requiredOrMalformed, accountOrMalformed]]

/-- A bridge has no hash: it must be an object. -/
def bridgeItems : List (Item α) :=
  [withCustomError (type [.object]) kMalformedRequest, kBridgeJsonValidator]

/-- A hash, or a bridge with the number of a claim. -/
def xChainItems (claimKey : String) : List (Item α) :=
  [malformedUnlessStringOrObject,
  ifType .string [kMalformedRequestHexStringValidator],
  kBridgeJsonValidator,
  withCustomError (ifType .object [section_ [.mk claimKey [required, type [.uint32]]]])
    kMalformedRequest]

/-! ## The spec -/

/-- A hash of an entry. -/
def indexField (key : String) (member : Member Input Uint256) : Dsl.Field Input :=
  field key member [kMalformedRequestHexStringValidator] asUint256 rfl

/-- The nineteen selectors, each with its items, and the fields they share. -/
def kInputSpec : TypedSpec Input where
  fields := [
    ledgerSelector ⟨"ledger", fun out v => { out with ledger := v }⟩,
    field "binary" ⟨"binary", fun out v => { out with binary := v }⟩ [type [.bool]] jsonBool,
    indexField "index" ⟨"index", fun out v => { out with index := some v }⟩,
    alias_ "account" "account_root"
      ⟨"accountRoot", fun out v => { out with accountRoot := some v }⟩ [accountBase58] accountId,
    field "did" ⟨"did", fun out v => { out with did := some v }⟩ [accountBase58] accountId,
    indexField "check" ⟨"check", fun out v => { out with check := some v }⟩,
    field "deposit_preauth"
      ⟨"depositPreauth", fun out v => { out with depositPreauth := some v }⟩
      (selectorItems stringOrObject kMalformedRequestHexStringValidator depositPreauthFields)
      depositPreauthConv,
    field "directory" ⟨"directory", fun out v => { out with directory := some v }⟩
      (selectorItems stringOrObject kMalformedRequestHexStringValidator directoryFields)
      directoryConv,
    field "escrow" ⟨"escrow", fun out v => { out with escrow := some v }⟩
      (selectorItems stringOrObject kMalformedRequestHexStringValidator escrowFields)
      escrowConv,
    field "offer" ⟨"offer", fun out v => { out with offer := some v }⟩
      (selectorItems stringOrObject kMalformedRequestHexStringValidator offerFields)
      offerConv,
    indexField "payment_channel"
      ⟨"paymentChannel", fun out v => { out with paymentChannel := some v }⟩,
    alias_ "state" "ripple_state"
      ⟨"rippleStateAccount", fun out v => { out with rippleStateAccount := some v }⟩
      (selectorItems stringOrObject kMalformedRequestHexStringValidator rippleStateFields)
      rippleStateConv,
    field "ticket" ⟨"ticket", fun out v => { out with ticket := some v }⟩
      (selectorItems stringOrObject kMalformedRequestHexStringValidator ticketFields)
      ticketConv,
    indexField "nft_page" ⟨"nftPage", fun out v => { out with nftPage := some v }⟩,
    field "amm" ⟨"amm", fun out v => { out with amm := some v }⟩
      (selectorItems stringOrObject kMalformedRequestHexStringValidator ammFields)
      ammConv,
    field "bridge" ⟨"bridge", fun out v => { out with bridge := some v }⟩ bridgeItems bridgeConv,
    field "bridge_account" ⟨"bridgeAccount", fun out v => { out with bridgeAccount := some v }⟩
      [withCustomError accountBase58 kMalformedRequest] accountId,
    field "xchain_owned_claim_id"
      ⟨"xchainOwnedClaimId", fun out v => { out with xchainOwnedClaimId := some v }⟩
      (xChainItems "xchain_owned_claim_id") xChainClaimIdConv,
    field "xchain_owned_create_account_claim_id"
      ⟨"xchainOwnedCreateAccountClaimId",
        fun out v => { out with xchainOwnedCreateAccountClaimId := some v }⟩
      (xChainItems "xchain_owned_create_account_claim_id") xChainCreateAccountClaimIdConv,
    field "oracle" ⟨"oracle", fun out v => { out with oracle := some v }⟩
      (selectorItems malformedUnlessStringOrObject malformedAddressUnlessHash oracleFields)
      oracleConv,
    field "credential" ⟨"credential", fun out v => { out with credential := some v }⟩
      (selectorItems malformedUnlessStringOrObject malformedAddressUnlessHash credentialFields)
      credentialConv,
    field "mpt_issuance" ⟨"mptIssuance", fun out v => { out with mptIssuance := some v }⟩
      [withCustomError uint192Hex kMalformedRequest] asUint192,
    field "mptoken" ⟨"mptoken", fun out v => { out with mptoken := some v }⟩
      (selectorItems malformedUnlessStringOrObject kMalformedRequestHexStringValidator
        mptokenFields)
      mptokenConv,
    field "permissioned_domain"
      ⟨"permissionedDomain", fun out v => { out with permissionedDomain := some v }⟩
      (selectorItems malformedUnlessStringOrObject kMalformedRequestHexStringValidator
        permissionedDomainFields)
      permissionedDomainConv,
    field "vault" ⟨"vault", fun out v => { out with vault := some v }⟩
      (selectorItems malformedUnlessStringOrObject kMalformedRequestHexStringValidator
        vaultFields)
      vaultConv,
    field "loan_broker" ⟨"loanBroker", fun out v => { out with loanBroker := some v }⟩
      (selectorItems malformedUnlessStringOrObject kMalformedRequestHexStringValidator
        loanBrokerFields)
      loanBrokerConv,
    field "loan" ⟨"loan", fun out v => { out with loan := some v }⟩
      (selectorItems malformedUnlessStringOrObject kMalformedRequestHexStringValidator
        loanFields)
      loanConv,
    field "delegate" ⟨"delegate", fun out v => { out with delegate := some v }⟩
      (selectorItems malformedUnlessStringOrObject kMalformedRequestHexStringValidator
        delegateFields)
      delegateConv,
    field "sponsorship" ⟨"sponsorship", fun out v => { out with sponsorship := some v }⟩
      (selectorItems malformedUnlessStringOrObject kMalformedRequestHexStringValidator
        sponsorshipFields)
      sponsorshipConv,
    indexField "amendments" ⟨"amendments", fun out v => { out with amendments := some v }⟩,
    indexField "fee" ⟨"fee", fun out v => { out with fee := some v }⟩,
    indexField "hashes" ⟨"hashes", fun out v => { out with hashes := some v }⟩,
    indexField "nft_offer" ⟨"nftOffer", fun out v => { out with nftOffer := some v }⟩,
    indexField "nunl" ⟨"nunl", fun out v => { out with nunl := some v }⟩,
    indexField "signer_list" ⟨"signerList", fun out v => { out with signerList := some v }⟩,
    unboundField "ledger" [deprecated],
    field "include_deleted" ⟨"includeDeleted", fun out v => { out with includeDeleted := v }⟩
      [type [.bool]] jsonBool]
  complete := by cbv

end RpcSpec.Handlers.LedgerEntry
