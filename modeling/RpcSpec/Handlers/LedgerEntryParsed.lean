import RpcSpec.Dsl.Selection
import RpcSpec.Handlers.LedgerEntrySelectors
import RpcSpec.Handlers.AllHandlers
set_option autoImplicit false

/-!
# The selectors of a parsed `ledger_entry`

Nineteen selectors describe an entry by a record.  After a parse each is what the request
says under its key: not given, the hash of the entry, or the record described.

`parse_selects` is the result, for all nineteen at once. It rests on the relations of the
module on the selectors, and on the fields of the spec being independent of each other.
-/

namespace RpcSpec.Handlers.LedgerEntry

open RpcSpec.Dsl RpcSpec.Foundation XrpldError

/-- The selectors whose values are records. -/
inductive Selector where
  | depositPreauth
  | directory
  | escrow
  | offer
  | rippleState
  | ticket
  | amm
  | bridge
  | xchainOwnedClaimId
  | xchainOwnedCreateAccountClaimId
  | oracle
  | credential
  | mptoken
  | permissionedDomain
  | vault
  | loanBroker
  | loan
  | delegate
  | sponsorship
  deriving DecidableEq, Repr

namespace Selector

/-- The key of the request a selector is found under. -/
def key : Selector → String
  | depositPreauth => "deposit_preauth"
  | directory => "directory"
  | escrow => "escrow"
  | offer => "offer"
  | rippleState => "ripple_state"
  | ticket => "ticket"
  | amm => "amm"
  | bridge => "bridge"
  | xchainOwnedClaimId => "xchain_owned_claim_id"
  | xchainOwnedCreateAccountClaimId => "xchain_owned_create_account_claim_id"
  | oracle => "oracle"
  | credential => "credential"
  | mptoken => "mptoken"
  | permissionedDomain => "permissioned_domain"
  | vault => "vault"
  | loanBroker => "loan_broker"
  | loan => "loan"
  | delegate => "delegate"
  | sponsorship => "sponsorship"

/-- The key with its alias: one selector has one. -/
def keys : Selector → List String
  | rippleState => [rippleState.key, "state"]
  | selector => [selector.key]

/-- What the member of the selector may hold. -/
abbrev Value : Selector → Type
  | depositPreauth => Uint256 ⊕ DepositPreauthEntry
  | directory => Uint256 ⊕ DirectoryEntry
  | escrow => Uint256 ⊕ EscrowEntry
  | offer => Uint256 ⊕ OfferEntry
  | rippleState => Uint256 ⊕ RippleStateEntry
  | ticket => Uint256 ⊕ TicketEntry
  | amm => Uint256 ⊕ AmmEntry
  | bridge => BridgeSpec
  | xchainOwnedClaimId => Uint256 ⊕ XChainClaimIdEntry
  | xchainOwnedCreateAccountClaimId => Uint256 ⊕ XChainClaimIdEntry
  | oracle => Uint256 ⊕ OracleEntry
  | credential => Uint256 ⊕ CredentialEntry
  | mptoken => Uint256 ⊕ MptokenEntry
  | permissionedDomain => Uint256 ⊕ PermissionedDomainEntry
  | vault => Uint256 ⊕ VaultEntry
  | loanBroker => Uint256 ⊕ LoanBrokerEntry
  | loan => Uint256 ⊕ LoanEntry
  | delegate => Uint256 ⊕ DelegateEntry
  | sponsorship => Uint256 ⊕ SponsorshipEntry

/-- The member of the selector. -/
def get : (selector : Selector) → Input → Option selector.Value
  | depositPreauth => Input.depositPreauth
  | directory => Input.directory
  | escrow => Input.escrow
  | offer => Input.offer
  | rippleState => Input.rippleStateAccount
  | ticket => Input.ticket
  | amm => Input.amm
  | bridge => Input.bridge
  | xchainOwnedClaimId => Input.xchainOwnedClaimId
  | xchainOwnedCreateAccountClaimId => Input.xchainOwnedCreateAccountClaimId
  | oracle => Input.oracle
  | credential => Input.credential
  | mptoken => Input.mptoken
  | permissionedDomain => Input.permissionedDomain
  | vault => Input.vault
  | loanBroker => Input.loanBroker
  | loan => Input.loan
  | delegate => Input.delegate
  | sponsorship => Input.sponsorship

variable [LibXrpl]

/-- What the value under a key of the selector stands for.  Addresses are read as base58. -/
def describes : (selector : Selector) → FieldView → selector.Value → Prop
  | depositPreauth => HashOrDescribed (DescribesDepositPreauth LibXrpl.parseBase58AccountID)
  | directory => HashOrDescribed (DescribesDirectory LibXrpl.parseBase58AccountID)
  | escrow => HashOrDescribed (DescribesEscrow LibXrpl.parseBase58AccountID)
  | offer => HashOrDescribed (DescribesOffer LibXrpl.parseBase58AccountID)
  | rippleState => HashOrDescribed (DescribesRippleState LibXrpl.parseBase58AccountID)
  | ticket => HashOrDescribed (DescribesTicket LibXrpl.parseBase58AccountID)
  | amm => HashOrDescribed DescribesAmm
  | bridge => fun v spec => v.isObject = true ∧
      DescribesBridge LibXrpl.parseBase58AccountID v spec
  | xchainOwnedClaimId => HashOrDescribed
      (DescribesXChainClaimId LibXrpl.parseBase58AccountID "xchain_owned_claim_id")
  | xchainOwnedCreateAccountClaimId => HashOrDescribed
      (DescribesXChainClaimId LibXrpl.parseBase58AccountID "xchain_owned_create_account_claim_id")
  | oracle => HashOrDescribed (DescribesOracle LibXrpl.parseBase58AccountID)
  | credential => HashOrDescribed (DescribesCredential LibXrpl.parseBase58AccountID)
  | mptoken => HashOrDescribed (DescribesMptoken LibXrpl.parseBase58AccountID)
  | permissionedDomain => HashOrDescribed (DescribesPermissionedDomain LibXrpl.parseBase58AccountID)
  | vault => HashOrDescribed (DescribesVault LibXrpl.parseBase58AccountID)
  | loanBroker => HashOrDescribed (DescribesLoanBroker LibXrpl.parseBase58AccountID)
  | loan => HashOrDescribed DescribesLoan
  | delegate => HashOrDescribed (DescribesDelegate LibXrpl.parseBase58AccountID)
  | sponsorship => HashOrDescribed (DescribesSponsorship LibXrpl.parseBase58AccountID)

end Selector

variable [Build] [LibXrpl]

/-- An address in base58 is no public key, neither in hex nor in base58. -/
def AddressesAreNoPublicKeys : Prop :=
  ∀ text id, LibXrpl.parseBase58AccountID text = some id →
    (∀ blob, LibXrpl.strUnHex text = some blob → LibXrpl.isPublicKey blob = false) ∧
      LibXrpl.parseBase58AccountPublic text = none

omit [Build] in
/-- With no public key among the addresses, the converter reads them as base58. -/
theorem readsAddresses_base58 (haddress : AddressesAreNoPublicKeys) :
    ReadsAddresses LibXrpl.parseBase58AccountID := by
  intro text id hbase58 hid
  unfold parseBase58Wrapper at hbase58
  split at hbase58
  · cases hbase58
  rename_i halnum
  obtain ⟨found, hfound⟩ := Option.isSome_iff_exists.mp hbase58
  obtain ⟨hhex, hpublic⟩ := haddress text found hfound
  have hwrapped {T : Type} (parse : Bytes → Option T) :
      parseBase58Wrapper parse text = parse text := if_neg halnum
  have hstrict : accountFromStringStrict text = some found := by
    unfold accountFromStringStrict
    cases hblob : LibXrpl.strUnHex text with
    | none => simp only [hwrapped, hpublic, hfound]
    | some blob =>
        simp only [hwrapped, hpublic, hfound, hhex blob hblob, Bool.false_eq_true, if_false]
  rw [hfound, ← hstrict, hid]

/-- A field keeps the members of all selectors but the one it reads. -/
theorem keeps_get (selector : Selector) :
    ∀ f ∈ kInputSpec.fields, f.key = selector.key ∨ f.Keeps selector.get := by
  simp only [kInputSpec, List.forall_mem_cons]
  and_intros
  all_goals
    first
    | exact List.forall_mem_nil _
    | cases selector <;>
        first
        | exact .inr fun _ _ => rfl
        | exact .inr trivial
        | exact .inl rfl

/-! ## The fields of the selectors -/

section Guards

omit [Build] [LibXrpl] in
/-- No guard stands among the items of a selector. -/
theorem not_skipsField_selectorItems {α : Type} {typeCheck hash : Item α}
    {subFields : List (FieldSpec α)} (h : ∀ root, typeCheck.skips root = false) (root : Json) :
    skipsField (selectorItems typeCheck hash subFields) root = false := by
  simp [skipsField, selectorItems, ifType, Item.skips, h root]

omit [Build] [LibXrpl] in
theorem not_skips_stringOrObject {α : Type} (root : Json) :
    (stringOrObject : Item α).skips root = false := by
  simp [stringOrObject, type, Item.skips]

omit [LibXrpl] in
theorem not_skips_malformedUnlessStringOrObject {α : Type} (root : Json) :
    (malformedUnlessStringOrObject : Item α).skips root = false := by
  simp [malformedUnlessStringOrObject, withCustomError, Item.skips]

theorem not_skipsField_bridgeItems {α : Type} (root : Json) :
    skipsField (bridgeItems : List (Item α)) root = false := by
  simp [skipsField, bridgeItems, kBridgeJsonValidator, withCustomError, Item.skips]

theorem not_skipsField_xChainItems {α : Type} (claimKey : String) (root : Json) :
    skipsField (xChainItems claimKey : List (Item α)) root = false := by
  simp [skipsField, xChainItems, not_skips_malformedUnlessStringOrObject, kBridgeJsonValidator,
    ifType, withCustomError, Item.skips]

end Guards

/-- Each selector has a field in the spec that reads it. -/
theorem selector_reads (haddress : AddressesAreNoPublicKeys) (selector : Selector) :
    ∃ f ∈ kInputSpec.fields, f.key = selector.key ∧
      f.Reads selector.get selector.keys selector.describes := by
  have hreads := readsAddresses_base58 haddress
  have hchecked {β : Type} {key : String} {member : Member Input (Uint256 ⊕ β)}
      {get : Input → Option (Uint256 ⊕ β)} {hash : Item (Uint256 ⊕ β)}
      {subFields : List (FieldSpec (Uint256 ⊕ β))} {conv : Converter (Uint256 ⊕ β)}
      {R : FieldView → Uint256 ⊕ β → Prop} {unguarded}
      (hyields : Yields (selectorItems stringOrObject hash subFields) conv R)
      (hget : ∀ out value, get (member.assign out value) = some value) :
      (field key member (selectorItems stringOrObject hash subFields) conv unguarded).Reads get
        [key] R :=
    field_reads hyields hget rfl (not_skipsField_selectorItems not_skips_stringOrObject)
  have hmalformed {β : Type} {key : String} {member : Member Input (Uint256 ⊕ β)}
      {get : Input → Option (Uint256 ⊕ β)} {hash : Item (Uint256 ⊕ β)}
      {subFields : List (FieldSpec (Uint256 ⊕ β))} {conv : Converter (Uint256 ⊕ β)}
      {R : FieldView → Uint256 ⊕ β → Prop} {unguarded}
      (hyields : Yields (selectorItems malformedUnlessStringOrObject hash subFields) conv R)
      (hget : ∀ out value, get (member.assign out value) = some value) :
      (field key member (selectorItems malformedUnlessStringOrObject hash subFields) conv
        unguarded).Reads get [key] R :=
    field_reads hyields hget rfl
      (not_skipsField_selectorItems not_skips_malformedUnlessStringOrObject)
  cases selector
  case depositPreauth =>
    exact ⟨_, List.mem_of_getElem? (i := 6) rfl, rfl,
      hchecked (depositPreauth_yields hreads) fun _ _ => rfl⟩
  case directory =>
    exact ⟨_, List.mem_of_getElem? (i := 7) rfl, rfl,
      hchecked (directory_yields hreads) fun _ _ => rfl⟩
  case escrow =>
    exact ⟨_, List.mem_of_getElem? (i := 8) rfl, rfl,
      hchecked (escrow_yields hreads) fun _ _ => rfl⟩
  case offer =>
    exact ⟨_, List.mem_of_getElem? (i := 9) rfl, rfl,
      hchecked (offer_yields hreads) fun _ _ => rfl⟩
  case rippleState =>
    exact ⟨_, List.mem_of_getElem? (i := 11) rfl, rfl, alias_reads (rippleState_yields hreads)
      (fun _ _ => rfl) rfl (not_skipsField_selectorItems not_skips_stringOrObject)⟩
  case ticket =>
    exact ⟨_, List.mem_of_getElem? (i := 12) rfl, rfl,
      hchecked (ticket_yields hreads) fun _ _ => rfl⟩
  case amm =>
    exact ⟨_, List.mem_of_getElem? (i := 14) rfl, rfl, hchecked amm_yields fun _ _ => rfl⟩
  case bridge =>
    exact ⟨_, List.mem_of_getElem? (i := 15) rfl, rfl,
      field_reads (bridge_yields hreads) (fun _ _ => rfl) rfl not_skipsField_bridgeItems⟩
  case xchainOwnedClaimId =>
    exact ⟨_, List.mem_of_getElem? (i := 17) rfl, rfl, field_reads (xChain_yields hreads _)
      (fun _ _ => rfl) rfl (not_skipsField_xChainItems _)⟩
  case xchainOwnedCreateAccountClaimId =>
    exact ⟨_, List.mem_of_getElem? (i := 18) rfl, rfl, field_reads (xChain_yields hreads _)
      (fun _ _ => rfl) rfl (not_skipsField_xChainItems _)⟩
  case oracle =>
    exact ⟨_, List.mem_of_getElem? (i := 19) rfl, rfl,
      hmalformed (oracle_yields hreads) fun _ _ => rfl⟩
  case credential =>
    exact ⟨_, List.mem_of_getElem? (i := 20) rfl, rfl,
      hmalformed (credential_yields hreads) fun _ _ => rfl⟩
  case mptoken =>
    exact ⟨_, List.mem_of_getElem? (i := 22) rfl, rfl,
      hmalformed (mptoken_yields hreads) fun _ _ => rfl⟩
  case permissionedDomain =>
    exact ⟨_, List.mem_of_getElem? (i := 23) rfl, rfl,
      hmalformed (permissionedDomain_yields hreads) fun _ _ => rfl⟩
  case vault =>
    exact ⟨_, List.mem_of_getElem? (i := 24) rfl, rfl,
      hmalformed (vault_yields hreads) fun _ _ => rfl⟩
  case loanBroker =>
    exact ⟨_, List.mem_of_getElem? (i := 25) rfl, rfl,
      hmalformed (loanBroker_yields hreads) fun _ _ => rfl⟩
  case loan =>
    exact ⟨_, List.mem_of_getElem? (i := 26) rfl, rfl, hmalformed loan_yields fun _ _ => rfl⟩
  case delegate =>
    exact ⟨_, List.mem_of_getElem? (i := 27) rfl, rfl,
      hmalformed (delegate_yields hreads) fun _ _ => rfl⟩
  case sponsorship =>
    exact ⟨_, List.mem_of_getElem? (i := 28) rfl, rfl,
      hmalformed (sponsorship_yields hreads) fun _ _ => rfl⟩

/-! ## The parsed selectors -/

/-- No field of the spec is listed twice. -/
theorem nodup_keys : (kInputSpec.fields.map Field.key).Nodup := by
  have hkeys : kInputSpec.fields.map Field.key = ["ledger_index", "binary", "index",
      "account_root", "did", "check", "deposit_preauth", "directory", "escrow", "offer",
      "payment_channel", "ripple_state", "ticket", "nft_page", "amm", "bridge", "bridge_account",
      "xchain_owned_claim_id", "xchain_owned_create_account_claim_id", "oracle", "credential",
      "mpt_issuance", "mptoken", "permissioned_domain", "vault", "loan_broker", "loan",
      "delegate", "sponsorship", "amendments", "fee", "hashes", "nft_offer", "nunl",
      "signer_list", "ledger", "include_deleted"] := rfl
  rw [hkeys]
  decide

/-- No two fields rewrite the same key, or guard each other's. -/
theorem independent_fields : independent kInputSpec.fields = true := rfl

omit [Build] [LibXrpl] in
theorem get_init (selector : Selector) : selector.get InputAggregate.init = none := by
  cases selector <;> rfl

/-- Each selector of a parsed request is unset where none of its keys is there, and is
otherwise what the value under its key stands for. -/
theorem parse_selects (haddress : AddressesAreNoPublicKeys) {root root' : Json} {input : Input}
    (hrun : kInputSpec.parse root = .ok input root') (selector : Selector) :
    Selects selector.keys selector.describes root (selector.get input) := by
  obtain ⟨f, hf, hkey, hreads⟩ := selector_reads haddress selector
  refine (TypedSpec.SetBy.of_nodup nodup_keys independent_fields hf ?_).selects hreads
    (get_init selector) hrun
  intro g hg
  exact (keeps_get selector g hg).imp_left fun hsame => hsame.trans hkey.symm

/-- An address and the account it spells. -/
def genesisAddress : Bytes := bytesOf "rHb9CJAWyB4rj91VRWn96DkukG4bwdtyTh"

/-- The account that owned everything at first. -/
def genesisAccount : AccountID := 0xB5F762798A53D543A014CAF8B297CFF8F2F937E8

/-- It knows one address. -/
abbrev genesisLib : LibXrpl :=
  { hexLib with
    parseBase58AccountID := fun text =>
      if text = genesisAddress then some genesisAccount else none }

/-- A request for the escrow that an account made in a transaction of its own. -/
def escrowRequest : Json :=
  .object [("escrow", .object [("owner", .string genesisAddress), ("seq", .uint64 126)])]

/-- The escrow a request asks for, where it parses. -/
def parsedEscrow (root : Json) : Option (Uint256 ⊕ EscrowEntry) :=
  match kInputSpec.parse root with
  | .ok input _ => input.escrow
  | .error .. => none

omit [Build] [LibXrpl] in
/-- An escrow, described by its owner and sequence. -/
theorem parse_selects_escrow : Selects ["escrow"]
    (@HashOrDescribed genesisLib _ (DescribesEscrow genesisLib.parseBase58AccountID))
    escrowRequest (some (.inr ⟨genesisAccount, 126⟩ : Uint256 ⊕ EscrowEntry)) := by
  have hparsed : @parsedEscrow .clio genesisLib escrowRequest =
      some (.inr ⟨genesisAccount, 126⟩) := by decide +kernel
  unfold parsedEscrow at hparsed
  split at hparsed
  · rename_i input root' hrun
    rw [← hparsed]
    exact @parse_selects .clio genesisLib (fun _ _ _ => ⟨fun _ h => (nomatch h), rfl⟩)
      escrowRequest root' input hrun .escrow
  · cases hparsed

end RpcSpec.Handlers.LedgerEntry
