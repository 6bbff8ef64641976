import RpcSpec.Dsl.XrplParse
set_option autoImplicit false

/-!
# Ledger entry types (`rpcspec/LedgerTypes.hpp`)

The table of ledger entry types and the lookup by either of their names.

The table is the source's, entry for entry, in its order; `account_objects` looks in the
part of it that an account can own, `ledger_data` in the whole.
-/

namespace RpcSpec.Dsl

/-- `xrpl::LedgerEntryType`. -/
inductive LedgerEntryType where
  | ltANY
  | ltACCOUNT_ROOT
  | ltAMENDMENTS
  | ltCHECK
  | ltDEPOSIT_PREAUTH
  | ltDIR_NODE
  | ltESCROW
  | ltFEE_SETTINGS
  | ltLEDGER_HASHES
  | ltOFFER
  | ltPAYCHAN
  | ltSIGNER_LIST
  | ltRIPPLE_STATE
  | ltTICKET
  | ltNFTOKEN_OFFER
  | ltNFTOKEN_PAGE
  | ltAMM
  | ltBRIDGE
  | ltXCHAIN_OWNED_CLAIM_ID
  | ltXCHAIN_OWNED_CREATE_ACCOUNT_CLAIM_ID
  | ltDID
  | ltORACLE
  | ltCREDENTIAL
  | ltVAULT
  | ltLOAN_BROKER
  | ltLOAN
  | ltNEGATIVE_UNL
  | ltMPTOKEN_ISSUANCE
  | ltMPTOKEN
  | ltPERMISSIONED_DOMAIN
  | ltDELEGATE
  | ltSPONSORSHIP
  deriving DecidableEq, Repr

/-- Who can hold an entry of the type. -/
inductive LedgerCategory where
  | accountOwned
  | chain
  | deletionBlocker
  deriving DecidableEq, Repr

/-- The names of a type: that of the ledger and that of the requests. -/
structure LedgerTypeEntry where
  name : String
  rpcName : String
  type : LedgerEntryType
  category : LedgerCategory

/-- All types of ledger entries. -/
def kLedgerTypesTable : List LedgerTypeEntry :=
  [⟨"AccountRoot", "account", .ltACCOUNT_ROOT, .accountOwned⟩,
   ⟨"Amendments", "amendments", .ltAMENDMENTS, .chain⟩,
   ⟨"Check", "check", .ltCHECK, .deletionBlocker⟩,
   ⟨"DepositPreauth", "deposit_preauth", .ltDEPOSIT_PREAUTH, .accountOwned⟩,
   ⟨"DirectoryNode", "directory", .ltDIR_NODE, .chain⟩,
   ⟨"Escrow", "escrow", .ltESCROW, .deletionBlocker⟩,
   ⟨"FeeSettings", "fee", .ltFEE_SETTINGS, .chain⟩,
   ⟨"LedgerHashes", "hashes", .ltLEDGER_HASHES, .chain⟩,
   ⟨"Offer", "offer", .ltOFFER, .accountOwned⟩,
   ⟨"PayChannel", "payment_channel", .ltPAYCHAN, .deletionBlocker⟩,
   ⟨"SignerList", "signer_list", .ltSIGNER_LIST, .accountOwned⟩,
   ⟨"RippleState", "state", .ltRIPPLE_STATE, .deletionBlocker⟩,
   ⟨"Ticket", "ticket", .ltTICKET, .accountOwned⟩,
   ⟨"NFTokenOffer", "nft_offer", .ltNFTOKEN_OFFER, .accountOwned⟩,
   ⟨"NFTokenPage", "nft_page", .ltNFTOKEN_PAGE, .deletionBlocker⟩,
   ⟨"AMM", "amm", .ltAMM, .accountOwned⟩,
   ⟨"Bridge", "bridge", .ltBRIDGE, .deletionBlocker⟩,
   ⟨"XChainOwnedClaimID", "xchain_owned_claim_id", .ltXCHAIN_OWNED_CLAIM_ID,
     .deletionBlocker⟩,
   ⟨"XChainOwnedCreateAccountClaimID", "xchain_owned_create_account_claim_id",
     .ltXCHAIN_OWNED_CREATE_ACCOUNT_CLAIM_ID, .deletionBlocker⟩,
   ⟨"DID", "did", .ltDID, .accountOwned⟩,
   ⟨"Oracle", "oracle", .ltORACLE, .accountOwned⟩,
   ⟨"Credential", "credential", .ltCREDENTIAL, .accountOwned⟩,
   ⟨"Vault", "vault", .ltVAULT, .accountOwned⟩,
   ⟨"LoanBroker", "loan_broker", .ltLOAN_BROKER, .accountOwned⟩,
   ⟨"Loan", "loan", .ltLOAN, .deletionBlocker⟩,
   ⟨"NegativeUNL", "nunl", .ltNEGATIVE_UNL, .chain⟩,
   ⟨"MPTokenIssuance", "mpt_issuance", .ltMPTOKEN_ISSUANCE, .deletionBlocker⟩,
   ⟨"MPToken", "mptoken", .ltMPTOKEN, .deletionBlocker⟩,
   ⟨"PermissionedDomain", "permissioned_domain", .ltPERMISSIONED_DOMAIN, .deletionBlocker⟩,
   ⟨"Delegate", "delegate", .ltDELEGATE, .accountOwned⟩,
   ⟨"Sponsorship", "sponsorship", .ltSPONSORSHIP, .deletionBlocker⟩]

/-- The entry whose RPC name is the text, or else the one whose canonical name is,
up to case. -/
def ledgerTypeInfoFromStr (entryName : Bytes) : Option LedgerTypeEntry :=
  (kLedgerTypesTable.find? fun entry => bytesOf entry.rpcName == entryName).or
    (kLedgerTypesTable.find? fun entry =>
      (bytesOf entry.name).map Text.toLower == entryName.map Text.toLower)

/-- The type of either name; `ltANY` is no type. -/
def ledgerEntryTypeFromStr (name : Bytes) : LedgerEntryType :=
  match ledgerTypeInfoFromStr name with
  | some info => info.type
  | none => .ltANY

/-- The same, for the types an account can own. -/
def accountOwnedLedgerTypeFromStr (name : Bytes) : LedgerEntryType :=
  match ledgerTypeInfoFromStr name with
  | some info => if info.category ≠ .chain then info.type else .ltANY
  | none => .ltANY

end RpcSpec.Dsl
