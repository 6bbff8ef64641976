import RpcSpec.Handlers.LedgerEntry
set_option autoImplicit false

/-!
# What the selectors of `ledger_entry` describe

For each selector a relation says which entry a value describes, member by member,
in terms of the text and the numbers it holds.  What the items of a selector accept
its converter turns into the entry described, without a fault.

The relations have the reading of an address as a parameter: the converters also
know public keys, which the items before them do not let through.

`selector_yields` is the rule behind all of them, from the checks of the members to the
entry; `kInputSpec_neverFaults` follows from the selectors field by field.
-/

namespace RpcSpec.Handlers.LedgerEntry

open RpcSpec.Dsl RpcSpec.Foundation XrpldError

variable [Build] [LibXrpl] {α β : Type}

/-! ## What single values name -/

/-- A string that a decoder reads as `a`. -/
def Spells {T : Type} (decode : Bytes → Option T) (v : FieldView) (a : T) : Prop :=
  ∃ text, v.value = some (.string text) ∧ decode text = some a

/-- A number of 32 bits, in either storage. -/
def NamesUint32 (v : FieldView) (n : UInt32) : Prop :=
  match v.value with
  | some (.uint64 m) => m.toNat = n.toNat
  | some (.int64 m) => m.toInt = n.toNat
  | _ => False

/-- A currency with its issuer; XRP has the zero account. -/
def NamesIssue (v : FieldView) (issue : Issue) : Prop :=
  Spells LibXrpl.toCurrency (v.child "currency") issue.currency ∧
    if Xrpl.isXRP issue.currency then issue.account = 0
    else Spells LibXrpl.toIssuer (v.child "issuer") issue.account

/-- A number, or a string that spells one in decimal. -/
def NamesDocumentId (v : FieldView) (n : UInt32) : Prop :=
  NamesUint32 v n ∨ ∃ text, v.value = some (.string text) ∧
    Text.fromCharsInt64 text = some ((n.toNat : Int), [])

/-- A member that need not be given. -/
def IfGiven {T : Type} (names : FieldView → T → Prop) (v : FieldView) : Option T → Prop
  | none => v.present = false
  | some a => names v a

/-! ## What the objects describe -/

section Describes

variable (address : Bytes → Option AccountID)

/-- Nothing need be given, and what is given is read. -/
def DescribesDirectory (v : FieldView) (entry : DirectoryEntry) : Prop :=
  IfGiven (Spells address) (v.child "owner") entry.owner ∧
    IfGiven (Spells (parseHexCString 256)) (v.child "dir_root") entry.dirRoot ∧
    IfGiven NamesUint32 (v.child "sub_index") entry.subIndex

/-- Account and sequence. -/
def DescribesOffer (v : FieldView) (entry : OfferEntry) : Prop :=
  Spells address (v.child "account") entry.account ∧ NamesUint32 (v.child "seq") entry.seq

/-- Owner and sequence. -/
def DescribesEscrow (v : FieldView) (entry : EscrowEntry) : Prop :=
  Spells address (v.child "owner") entry.owner ∧ NamesUint32 (v.child "seq") entry.seq

/-- Account and the sequence of the ticket. -/
def DescribesTicket (v : FieldView) (entry : TicketEntry) : Prop :=
  Spells address (v.child "account") entry.account ∧
    NamesUint32 (v.child "ticket_seq") entry.ticketSeq

/-- Account and sequence. -/
def DescribesPermissionedDomain (v : FieldView) (entry : PermissionedDomainEntry) : Prop :=
  Spells address (v.child "account") entry.account ∧ NamesUint32 (v.child "seq") entry.seq

/-- Owner and sequence. -/
def DescribesVault (v : FieldView) (entry : VaultEntry) : Prop :=
  Spells address (v.child "owner") entry.owner ∧ NamesUint32 (v.child "seq") entry.seq

/-- Owner and sequence. -/
def DescribesLoanBroker (v : FieldView) (entry : LoanBrokerEntry) : Prop :=
  Spells address (v.child "owner") entry.owner ∧ NamesUint32 (v.child "seq") entry.seq

/-- The hash of the broker and a number. -/
def DescribesLoan (v : FieldView) (entry : LoanEntry) : Prop :=
  Spells (parseHexCString 256) (v.child "loan_broker_id") entry.loanBrokerId ∧
    NamesUint32 (v.child "loan_seq") entry.loanSeq

/-- Two accounts. -/
def DescribesDelegate (v : FieldView) (entry : DelegateEntry) : Prop :=
  Spells address (v.child "account") entry.account ∧
    Spells address (v.child "authorize") entry.authorize

/-- A sponsor and the one it sponsors. -/
def DescribesSponsorship (v : FieldView) (entry : SponsorshipEntry) : Prop :=
  Spells address (v.child "sponsor") entry.sponsor ∧
    Spells address (v.child "sponsee") entry.sponsee

/-- Account and issuance. -/
def DescribesMptoken (v : FieldView) (entry : MptokenEntry) : Prop :=
  Spells address (v.child "account") entry.account ∧
    Spells (parseHexCString 192) (v.child "mpt_issuance_id") entry.mptIssuanceId

/-- Two issues. -/
def DescribesAmm (v : FieldView) (entry : AmmEntry) : Prop :=
  NamesIssue (v.child "asset") entry.asset ∧ NamesIssue (v.child "asset2") entry.asset2

/-- Account and document id, which may be spelled. -/
def DescribesOracle (v : FieldView) (entry : OracleEntry) : Prop :=
  Spells address (v.child "account") entry.account ∧
    NamesDocumentId (v.child "oracle_document_id") entry.oracleDocumentId

/-- Two accounts, and the type as it stands. -/
def DescribesCredential (v : FieldView) (entry : CredentialEntry) : Prop :=
  Spells address (v.child "subject") entry.subject ∧
    Spells address (v.child "issuer") entry.issuer ∧
    Spells some (v.child "credential_type") entry.credentialType

/-- An account, and the type as it stands. -/
def DescribesAuthorizeCredential (v : FieldView) (entry : AuthorizeCredentialEntry) : Prop :=
  Spells address (v.child "issuer") entry.issuer ∧
    Spells some (v.child "credential_type") entry.credentialType

/-- The owner, and whoever or whatever else is given. -/
def DescribesDepositPreauth (v : FieldView) (entry : DepositPreauthEntry) : Prop :=
  Spells address (v.child "owner") entry.owner ∧
    IfGiven (Spells address) (v.child "authorized") entry.authorized ∧
    IfGiven (fun creds entries => creds.isArray = true ∧
        List.Forall₂ (DescribesAuthorizeCredential address) creds.elements entries)
      (v.child "authorized_credentials") entry.authorizedCredentials

/-- The accounts are two. -/
def DescribesRippleState (v : FieldView) (entry : RippleStateEntry) : Prop :=
  (v.child "accounts").isArray = true ∧
    List.Forall₂ (Spells address) (v.child "accounts").elements
      [entry.accounts.1, entry.accounts.2] ∧
    Spells LibXrpl.toCurrency (v.child "currency") entry.currency

/-- Two doors, two issues. -/
def DescribesBridge (v : FieldView) (bridge : BridgeSpec) : Prop :=
  Spells address (v.child "LockingChainDoor") bridge.lockingChainDoor ∧
    Spells address (v.child "IssuingChainDoor") bridge.issuingChainDoor ∧
    NamesIssue (v.child "LockingChainIssue") bridge.lockingChainIssue ∧
    NamesIssue (v.child "IssuingChainIssue") bridge.issuingChainIssue

/-- A bridge and a number under a key of the claim's own. -/
def DescribesXChainClaimId (claimKey : String) (v : FieldView) (entry : XChainClaimIdEntry) :
    Prop :=
  DescribesBridge address v entry.bridge ∧ NamesUint32 (v.child claimKey) entry.claimId

end Describes

/-- A string gives the hash of the entry, an object describes it. -/
def HashOrDescribed (describes : FieldView → β → Prop) (v : FieldView) : Uint256 ⊕ β → Prop
  | .inl hash => Spells (parseHexCString 256) v hash
  | .inr entry => v.isObject = true ∧ describes v entry

/-! ## Reading single values -/

omit [Build] [LibXrpl] in
/-- A signed number of 32 bits is cut to itself. -/
theorem toNat_toUInt32_of_int64 {n : Int64} (h : (0 ≤ n && n ≤ 0xffffffff) = true) :
    n.toInt = n.toUInt64.toUInt32.toNat := by
  simp only [Bool.and_eq_true, decide_eq_true_eq] at h
  have hlo := Int64.le_iff_toInt_le.mp h.1
  have hhi := Int64.le_iff_toInt_le.mp h.2
  have hnat : n.toUInt64.toNat = n.toInt.toNat := Int64.toNat_toUInt64_of_le h.1
  simp only [Int64.reduceToInt] at hlo hhi
  rw [UInt64.toNat_toUInt32, hnat]
  omega

omit [Build] [LibXrpl] in
/-- What is known to be a 32-bit number is read as that number, in either storage. -/
theorem asUint32_safe {v : FieldView} (h : v.isUint32 = true) :
    Safe v.asUint32 (NamesUint32 v) := by
  unfold FieldView.isUint32 at h
  split at h
  · rename_i n hv
    have hn : n ≤ FieldView.uint32Max := of_decide_eq_true h
    have hlt : n.toNat < 2 ^ 32 := by
      have := UInt64.le_iff_toNat_le.mp hn
      simp only [FieldView.uint32Max, UInt64.reduceToNat] at this
      omega
    have hnat : n.toNat = n.toUInt32.toNat := by
      rw [UInt64.toNat_toUInt32, Nat.mod_eq_of_lt hlt]
    simpa [FieldView.asUint32, NamesUint32, hv, hn] using hnat
  · rename_i n hv
    simpa [FieldView.asUint32, NamesUint32, hv, h] using toNat_toUInt32_of_int64 h
  · cases h

omit [Build] in
/-- A text the parser accepts is parsed to what it spells. -/
theorem uint256Of_safe {v : FieldView}
    (h : v.HasString fun text => (parseHexCString 256 text).isSome) :
    Safe (uint256Of v) (Spells (parseHexCString 256) v) :=
  h.asString_bind fun text hv htext =>
    (valueOrLogicError_safe htext).mono fun _ hash => ⟨text, hv, hash⟩

omit [Build] in
/-- What the validator accepts is read as an issue. -/
theorem issueFromCurrencyIssue_safe {v : FieldView} (h : CurrencyIssueValidator.Accepts v) :
    Safe (issueFromCurrencyIssue v) (NamesIssue v) := by
  obtain ⟨-, text, hv, currency, hcurrency, hissuer⟩ := h
  apply safe_asString_bind (by simp [FieldView.isString, hv])
  intro text' hv'
  obtain rfl : text = text' := by simpa [hv] using hv'
  apply (valueOrLogicError_safe (by simp [hcurrency])).bind
  intro c hc
  obtain rfl : currency = c := by simpa [hcurrency] using hc
  have hspells : Spells LibXrpl.toCurrency (v.child "currency") currency := ⟨text, hv, hcurrency⟩
  cases hxrp : Xrpl.isXRP currency with
  | true => exact ⟨hspells, by simp [hxrp]⟩
  | false =>
      simp only [hxrp, Bool.false_eq_true, if_false] at hissuer ⊢
      apply hissuer.asString_bind
      intro text hv htext
      refine (valueOrLogicError_safe htext).bind fun issuer hissuer => ⟨hspells, ?_⟩
      simpa [hxrp] using ⟨text, hv, hissuer⟩

omit [Build] [LibXrpl] in
/-- A member that is read where it is of some kind: a check has refused it otherwise. -/
theorem whenGiven_safe {v : FieldView} {kind : Bool} {x : Parsed β}
    {names : FieldView → β → Prop} (hkind : v.present = true → kind = true)
    (hx : v.present = true → Safe x (names v)) :
    Safe (whenGiven (v.present && kind) x) (IfGiven names v) := by
  cases hp : v.present with
  | true =>
      rw [hkind hp]
      exact Safe.map (hx hp)
  | false => exact hp

section Addresses

/-- The reading of addresses agrees with `accountFromStringStrict` on what is a base58
address. -/
def ReadsAddresses (address : Bytes → Option AccountID) : Prop :=
  ∀ text id, (parseBase58Wrapper LibXrpl.parseBase58AccountID text).isSome →
    accountFromStringStrict text = some id → address text = some id

variable {address : Bytes → Option AccountID}

omit [Build] in
/-- The validator reads base58, the converter any spelling; on what both read they agree. -/
theorem accountOf_safe (haddress : ReadsAddresses address) {v : FieldView}
    (h : v.HasString fun text =>
      (parseBase58Wrapper LibXrpl.parseBase58AccountID text).isSome) :
    Safe (accountOf v) (Spells address v) :=
  h.asString_bind fun text hv htext =>
    (valueOrLogicError_safe (accountFromStringStrict_isSome_of_base58 htext)).mono
      fun id hid => ⟨text, hv, haddress text id htext hid⟩

/-! ## What the checks of single values establish -/

/-- A base58 address. -/
def HasAddress (v : FieldView) : Prop :=
  v.HasString fun text => (parseBase58Wrapper LibXrpl.parseBase58AccountID text).isSome

/-- A string the hex parser accepts. -/
def HasHex (bits : Nat) (v : FieldView) : Prop :=
  v.HasString fun text => (parseHexCString bits text).isSome

/-- The validator leaves an address behind, where there is a field at all. -/
theorem accountBase58_checks :
    (accountBase58 : Item α).Checks fun v => v.present = true → HasAddress v :=
  .requirement fun v => (AccountBase58Validator.verify_safe v).mono fun _ h hp => by
    obtain ⟨text, hv, id, hid, -⟩ := h hp
    exact ⟨text, hv, by simp [hid]⟩

theorem uint256Hex_checks :
    (uint256Hex : Item α).Checks fun v => v.present = true → HasHex 256 v :=
  .requirement (HexStringValidator.verify_safe 256)

theorem uint192Hex_checks :
    (uint192Hex : Item α).Checks fun v => v.present = true → HasHex 192 v :=
  .requirement (HexStringValidator.verify_safe 192)

omit [LibXrpl] in
/-- The validator leaves a 32-bit number behind. -/
theorem int_checks : (kMalformedRequestIntValidator : Item α).Checks
    fun v => v.present = true → v.isUint32 = true :=
  (type_checks .uint32).withCustomError _ _

omit [LibXrpl] in
theorem requiredOrMalformed_checks :
    (requiredOrMalformed : Item α).Checks fun v => v.present = true :=
  required_checks.withCustomError _ _

theorem currencyIssue_checks : (currencyIssue : Item α).Checks
    fun v => v.present = true → CurrencyIssueValidator.Accepts v :=
  .requirement CurrencyIssueValidator.verify_safe

theorem currency_checks : (currency : Item α).Checks
    fun v => v.present = true → v.HasString fun text => (LibXrpl.toCurrency text).isSome :=
  .requirement fun v => (CurrencyValidator.verify_safe v).mono fun _ h hp => by
    obtain ⟨text, hv, -, htext⟩ := h hp
    exact ⟨text, hv, htext⟩

/-- The two accounts of a trust line. -/
def HasTwoAddresses (v : FieldView) : Prop :=
  v.isArray = true ∧ v.arraySize = 2 ∧ HasAddress (v.element 0) ∧ HasAddress (v.element 1)

/-- An array of two texts, each an address. -/
theorem verifyRippleStateAccounts_safe (v : FieldView) :
    Safe (verifyRippleStateAccounts v) fun _ => HasTwoAddresses v := by
  refine safe_rejectIf_bind fun harray => safe_rejectIf_bind fun hstrings => ?_
  simp only [Bool.or_eq_false_iff, Bool.not_eq_eq_eq_not, Bool.not_false, bne_eq_false_iff_eq]
    at harray hstrings
  apply safe_asString_bind hstrings.1
  intro text0 hv0
  refine safe_asString_bind hstrings.2 fun text1 hv1 => safe_rejectIf_bind fun _ => ?_
  refine safe_rejectIf.mono fun _ h => ⟨harray.1, harray.2, ?_, ?_⟩
  · exact ⟨text0, hv0, by simp_all [Option.isSome_iff_ne_none]⟩
  · exact ⟨text1, hv1, by simp_all [Option.isSome_iff_ne_none]⟩

end Addresses

/-! ## The selectors -/

/-- What a selector's check of the type establishes. -/
def StringOrObject (v : FieldView) : Prop :=
  v.present = true → v.isString = true ∨ v.isObject = true

omit [Build] [LibXrpl] in
/-- What is there is a string or an object. -/
theorem stringOrObject_checks : (stringOrObject : Item α).Checks StringOrObject :=
  .requirement fun v => (TypeIs.verify_safe _ v).mono fun _ h hp => by
    simpa [FieldView.is] using h hp

omit [LibXrpl] in
theorem malformedUnlessStringOrObject_checks :
    (malformedUnlessStringOrObject : Item α).Checks StringOrObject :=
  stringOrObject_checks.withCustomError _ _

/-- The validator leaves a hash behind, whatever code it reports with. -/
theorem hash_checks : (kMalformedRequestHexStringValidator : Item α).Checks
    fun v => v.present = true → HasHex 256 v :=
  uint256Hex_checks.withCustomError _ _

theorem malformedAddressUnlessHash_checks : (malformedAddressUnlessHash : Item α).Checks
    fun v => v.present = true → HasHex 256 v :=
  hash_checks.withCustomError _ _

omit [Build] in
/-- The string is read as a hash, and an object as an entry. -/
theorem hashOrEntry_safe {entryOf : FieldView → Parsed β} {describes : FieldView → β → Prop}
    {v v' : FieldView} (hvalue : v'.isString = true → v'.value = v.value)
    (hhash : v'.isString = true → HasHex 256 v')
    (hentry : v'.isString = false → Safe (entryOf v') fun entry =>
      v.isObject = true ∧ describes v entry) :
    Safe ((hashOrEntry entryOf).parse v') (HashOrDescribed describes v) := by
  unfold hashOrEntry
  dsimp only
  cases hs : v'.isString with
  | true =>
      refine Safe.map ((uint256Of_safe (hhash hs)).mono fun hash ⟨text, hv, h⟩ => ?_)
      exact ⟨text, (hvalue hs).symm.trans hv, h⟩
  | false => exact Safe.map (hentry hs)

omit [Build] in
/-- A selector whose object is only checked. -/
theorem selector_yields {typeCheck hash : Item (Uint256 ⊕ β)}
    {subFields : List (FieldSpec (Uint256 ⊕ β))} {conditions : List (FieldView → Prop)}
    {entryOf : FieldView → Parsed β} {describes : FieldView → β → Prop}
    (htype : typeCheck.Checks StringOrObject)
    (hhash : hash.Checks fun v => v.present = true → HasHex 256 v)
    (hsub : List.Forall₂ (fun field Q => ItemsCheck field.items Q) subFields conditions)
    (hentry : ∀ v, List.Forall₂ (fun field Q => Q (v.child field.key)) subFields conditions →
      Safe (entryOf v) (describes v)) :
    Yields (selectorItems typeCheck hash subFields) (hashOrEntry entryOf)
      (HashOrDescribed describes) := by
  refine .of_check (.cons htype (.cons (.ifType (.single hhash))
    (.single (.ifType (.single (.section_ hsub)))))) ?_
  rintro v hp ⟨hkind, hstring, hobject⟩
  refine hashOrEntry_safe (fun _ => rfl) (fun hs => hstring hs hp) fun hs => ?_
  have hisObject : v.isObject = true := by simpa [hs] using hkind hp
  exact (hentry v (hobject hisObject hp).2).mono fun entry h => ⟨hisObject, h⟩

section Each

variable {address : Bytes → Option AccountID}

/-! ### A required address or number -/

/-- With `required` before it, there is an address. -/
theorem account_check : ItemsCheck ([required, accountBase58] : List (Item α)) HasAddress :=
  requiredThen_check required_checks accountBase58_checks

theorem owner_check : ItemsCheck ([required, ownerOrMalformed] : List (Item α)) HasAddress :=
  requiredThen_check required_checks (accountBase58_checks.withCustomError _ _)

omit [LibXrpl] in
/-- With `required` before it, there is a number. -/
theorem number_check :
    ItemsCheck ([required, kMalformedRequestIntValidator] : List (Item α))
      fun v => v.isUint32 = true :=
  requiredThen_check required_checks int_checks

theorem accountOrMalformed_check :
    ItemsCheck ([requiredOrMalformed, accountOrMalformed] : List (Item α)) HasAddress :=
  requiredThen_check requiredOrMalformed_checks (accountBase58_checks.withCustomError _ _)

theorem ownerOrMalformed_check :
    ItemsCheck ([requiredOrMalformed, ownerOrMalformed] : List (Item α)) HasAddress :=
  requiredThen_check requiredOrMalformed_checks (accountBase58_checks.withCustomError _ _)

omit [LibXrpl] in
theorem numberOrMalformed_check :
    ItemsCheck ([requiredOrMalformed, kMalformedRequestIntValidator] : List (Item α))
      fun v => v.isUint32 = true :=
  requiredThen_check requiredOrMalformed_checks int_checks

/-! ### An address and a number -/

/-- A hash, or the owner and sequence the section has checked. -/
theorem escrow_yields (haddress : ReadsAddresses address) :
    Yields (selectorItems stringOrObject kMalformedRequestHexStringValidator escrowFields)
      escrowConv (HashOrDescribed (DescribesEscrow address)) := by
  refine selector_yields stringOrObject_checks hash_checks
    (.cons owner_check (.cons number_check .nil)) fun v h => ?_
  obtain _ | ⟨howner, _ | ⟨hseq, -⟩⟩ := h
  apply (accountOf_safe haddress howner).bind
  intro owner howner
  exact (asUint32_safe hseq).bind fun seq hseq => ⟨howner, hseq⟩

/-- A hash, or the account and sequence the section has checked. -/
theorem offer_yields (haddress : ReadsAddresses address) :
    Yields (selectorItems stringOrObject kMalformedRequestHexStringValidator offerFields)
      offerConv (HashOrDescribed (DescribesOffer address)) := by
  refine selector_yields stringOrObject_checks hash_checks
    (.cons account_check (.cons number_check .nil)) fun v h => ?_
  obtain _ | ⟨haccount, _ | ⟨hseq, -⟩⟩ := h
  apply (accountOf_safe haddress haccount).bind
  intro account haccount
  exact (asUint32_safe hseq).bind fun seq hseq => ⟨haccount, hseq⟩

theorem ticket_yields (haddress : ReadsAddresses address) :
    Yields (selectorItems stringOrObject kMalformedRequestHexStringValidator ticketFields)
      ticketConv (HashOrDescribed (DescribesTicket address)) := by
  refine selector_yields stringOrObject_checks hash_checks
    (.cons account_check (.cons number_check .nil)) fun v h => ?_
  obtain _ | ⟨haccount, _ | ⟨hseq, -⟩⟩ := h
  apply (accountOf_safe haddress haccount).bind
  intro account haccount
  exact (asUint32_safe hseq).bind fun seq hseq => ⟨haccount, hseq⟩

theorem permissionedDomain_yields (haddress : ReadsAddresses address) :
    Yields (selectorItems malformedUnlessStringOrObject kMalformedRequestHexStringValidator
      permissionedDomainFields) permissionedDomainConv
      (HashOrDescribed (DescribesPermissionedDomain address)) := by
  refine selector_yields malformedUnlessStringOrObject_checks hash_checks
    (.cons numberOrMalformed_check (.cons accountOrMalformed_check .nil)) fun v h => ?_
  obtain _ | ⟨hseq, _ | ⟨haccount, -⟩⟩ := h
  apply (accountOf_safe haddress haccount).bind
  intro account haccount
  exact (asUint32_safe hseq).bind fun seq hseq => ⟨haccount, hseq⟩

theorem vault_yields (haddress : ReadsAddresses address) :
    Yields (selectorItems malformedUnlessStringOrObject kMalformedRequestHexStringValidator
      vaultFields) vaultConv (HashOrDescribed (DescribesVault address)) := by
  refine selector_yields malformedUnlessStringOrObject_checks hash_checks
    (.cons numberOrMalformed_check (.cons ownerOrMalformed_check .nil)) fun v h => ?_
  obtain _ | ⟨hseq, _ | ⟨howner, -⟩⟩ := h
  apply (accountOf_safe haddress howner).bind
  intro owner howner
  exact (asUint32_safe hseq).bind fun seq hseq => ⟨howner, hseq⟩

theorem loanBroker_yields (haddress : ReadsAddresses address) :
    Yields (selectorItems malformedUnlessStringOrObject kMalformedRequestHexStringValidator
      loanBrokerFields) loanBrokerConv (HashOrDescribed (DescribesLoanBroker address)) := by
  refine selector_yields malformedUnlessStringOrObject_checks hash_checks
    (.cons numberOrMalformed_check (.cons ownerOrMalformed_check .nil)) fun v h => ?_
  obtain _ | ⟨hseq, _ | ⟨howner, -⟩⟩ := h
  apply (accountOf_safe haddress howner).bind
  intro owner howner
  exact (asUint32_safe hseq).bind fun seq hseq => ⟨howner, hseq⟩

/-- Neither member is an account, so nothing is assumed of addresses. -/
theorem loan_yields :
    Yields (selectorItems malformedUnlessStringOrObject kMalformedRequestHexStringValidator
      loanFields) loanConv (HashOrDescribed DescribesLoan) := by
  have hid : ItemsCheck ([requiredOrMalformed, withCustomError uint256Hex kMalformedRequest] :
      List (Item (Uint256 ⊕ LoanEntry))) (HasHex 256) :=
    requiredThen_check requiredOrMalformed_checks (uint256Hex_checks.withCustomError _ _)
  refine selector_yields malformedUnlessStringOrObject_checks hash_checks
    (.cons numberOrMalformed_check (.cons hid .nil)) fun v h => ?_
  obtain _ | ⟨hseq, _ | ⟨hid, -⟩⟩ := h
  apply (uint256Of_safe hid).bind
  intro loanBrokerId hid
  exact (asUint32_safe hseq).bind fun loanSeq hseq => ⟨hid, hseq⟩

/-! ### Two addresses, an address and more -/

theorem delegate_yields (haddress : ReadsAddresses address) :
    Yields (selectorItems malformedUnlessStringOrObject kMalformedRequestHexStringValidator
      delegateFields) delegateConv (HashOrDescribed (DescribesDelegate address)) := by
  refine selector_yields malformedUnlessStringOrObject_checks hash_checks
    (.cons accountOrMalformed_check (.cons accountOrMalformed_check .nil)) fun v h => ?_
  obtain _ | ⟨haccount, _ | ⟨hauthorize, -⟩⟩ := h
  apply (accountOf_safe haddress haccount).bind
  intro account haccount
  exact (accountOf_safe haddress hauthorize).bind fun authorize hauthorize => ⟨haccount, hauthorize⟩

theorem sponsorship_yields (haddress : ReadsAddresses address) :
    Yields (selectorItems malformedUnlessStringOrObject kMalformedRequestHexStringValidator
      sponsorshipFields) sponsorshipConv (HashOrDescribed (DescribesSponsorship address)) := by
  refine selector_yields malformedUnlessStringOrObject_checks hash_checks
    (.cons accountOrMalformed_check (.cons accountOrMalformed_check .nil)) fun v h => ?_
  obtain _ | ⟨hsponsor, _ | ⟨hsponsee, -⟩⟩ := h
  apply (accountOf_safe haddress hsponsor).bind
  intro sponsor hsponsor
  exact (accountOf_safe haddress hsponsee).bind fun sponsee hsponsee => ⟨hsponsor, hsponsee⟩

theorem mptoken_yields (haddress : ReadsAddresses address) :
    Yields (selectorItems malformedUnlessStringOrObject kMalformedRequestHexStringValidator
      mptokenFields) mptokenConv (HashOrDescribed (DescribesMptoken address)) := by
  have hid : ItemsCheck ([requiredOrMalformed, withCustomError uint192Hex kMalformedRequest] :
      List (Item (Uint256 ⊕ MptokenEntry))) (HasHex 192) :=
    requiredThen_check requiredOrMalformed_checks (uint192Hex_checks.withCustomError _ _)
  refine selector_yields malformedUnlessStringOrObject_checks hash_checks
    (.cons accountOrMalformed_check (.cons hid .nil)) fun v h => ?_
  obtain _ | ⟨haccount, _ | ⟨hid, -⟩⟩ := h
  apply (accountOf_safe haddress haccount).bind
  intro account haccount
  refine hid.asString_bind fun text hv htext => (valueOrLogicError_safe htext).bind ?_
  exact fun id hid => ⟨haccount, text, hv, hid⟩

/-- Both issues are read the way their validator has read them. -/
theorem amm_yields :
    Yields (selectorItems stringOrObject kMalformedRequestHexStringValidator ammFields)
      ammConv (HashOrDescribed DescribesAmm) := by
  have hasset : ItemsCheck (assetItems : List (Item (Uint256 ⊕ AmmEntry)))
      CurrencyIssueValidator.Accepts :=
    (ItemsCheck.cons requiredOrMalformed_checks (.cons ((type_checks .object).withCustomError _ _)
      (.single currencyIssue_checks))).mono fun _ h => h.2.2 h.1
  refine selector_yields stringOrObject_checks hash_checks
    (.cons hasset (.cons hasset .nil)) fun v h => ?_
  obtain _ | ⟨hasset, _ | ⟨hasset2, -⟩⟩ := h
  apply (issueFromCurrencyIssue_safe hasset).bind
  intro asset hasset
  exact (issueFromCurrencyIssue_safe hasset2).bind fun asset2 hasset2 => ⟨hasset, hasset2⟩

omit [Build] [LibXrpl] in
theorem asString_spells {v : FieldView} (h : v.isString = true) :
    Safe v.asString (Spells some v) :=
  (FieldView.asString_safe h).mono fun text hv => ⟨text, hv, rfl⟩

theorem credential_yields (haddress : ReadsAddresses address) :
    Yields (selectorItems malformedUnlessStringOrObject malformedAddressUnlessHash
      credentialFields) credentialConv (HashOrDescribed (DescribesCredential address)) := by
  have htype : ItemsCheck ([requiredOrMalformed,
      withCustomError (type [.string]) kMalformedRequest, credentialType] :
      List (Item (Uint256 ⊕ CredentialEntry))) fun v => v.is .string = true :=
    (ItemsCheck.cons requiredOrMalformed_checks (.cons ((type_checks .string).withCustomError _ _)
      (.single (.requirement CredentialTypeValidator.verify_safe)))).mono fun _ h => h.2.1 h.1
  refine selector_yields malformedUnlessStringOrObject_checks malformedAddressUnlessHash_checks
    (.cons accountOrMalformed_check (.cons accountOrMalformed_check (.cons htype .nil)))
    fun v h => ?_
  obtain _ | ⟨hsubject, _ | ⟨hissuer, _ | ⟨htype, -⟩⟩⟩ := h
  apply (accountOf_safe haddress hsubject).bind
  intro subject hsubject
  apply (accountOf_safe haddress hissuer).bind
  intro issuer hissuer
  exact (asString_spells htype).bind fun text htype => ⟨hsubject, hissuer, htype⟩

theorem rippleState_yields (haddress : ReadsAddresses address) :
    Yields (selectorItems stringOrObject kMalformedRequestHexStringValidator rippleStateFields)
      rippleStateConv (HashOrDescribed (DescribesRippleState address)) := by
  have haccounts : ItemsCheck ([required, kRippleStateAccountsValidator] :
      List (Item (Uint256 ⊕ RippleStateEntry))) HasTwoAddresses :=
    requiredThen_check required_checks
      (.requirement fun v => safe_ifPresent fun _ => verifyRippleStateAccounts_safe v)
  have hcurrency : ItemsCheck ([required, currency] :
      List (Item (Uint256 ⊕ RippleStateEntry)))
      fun v => v.HasString fun text => (LibXrpl.toCurrency text).isSome :=
    requiredThen_check required_checks currency_checks
  refine selector_yields stringOrObject_checks hash_checks
    (.cons haccounts (.cons hcurrency .nil)) fun v h => ?_
  obtain _ | ⟨⟨harray, hsize, haccount0, haccount1⟩, _ | ⟨hcurrency, -⟩⟩ := h
  apply (accountOf_safe haddress haccount0).bind
  intro account0 haccount0
  apply (accountOf_safe haddress haccount1).bind
  intro account1 haccount1
  refine hcurrency.asString_bind fun text hv htext => (valueOrLogicError_safe htext).bind ?_
  refine fun currency hcurrency => ⟨harray, ?_, text, hv, hcurrency⟩
  simp only [FieldSpec.key] at hsize haccount0 haccount1
  simp only [FieldView.elements, hsize]
  exact .cons haccount0 (.cons haccount1 .nil)

/-! ### Members that need not be given -/

/-- Each member is read only where it is given. -/
theorem directory_yields (haddress : ReadsAddresses address) :
    Yields (selectorItems stringOrObject kMalformedRequestHexStringValidator directoryFields)
      directoryConv (HashOrDescribed (DescribesDirectory address)) := by
  refine selector_yields stringOrObject_checks hash_checks
    (.cons (.single accountBase58_checks) (.cons (.single uint256Hex_checks)
      (.cons (.single int_checks) .nil))) fun v h => ?_
  obtain _ | ⟨howner, _ | ⟨hroot, _ | ⟨hindex, -⟩⟩⟩ := h
  refine (whenGiven_safe (fun hp => (howner hp).isString)
    fun hp => accountOf_safe haddress (howner hp)).bind fun owner howner => ?_
  refine (whenGiven_safe (fun hp => (hroot hp).isString)
    fun hp => uint256Of_safe (hroot hp)).bind fun dirRoot hroot => ?_
  exact (whenGiven_safe hindex fun hp => asUint32_safe (hindex hp)).bind
    fun subIndex hindex => ⟨howner, hroot, hindex⟩

omit [Build] in
/-- One element of the list, as its validator has accepted it. -/
theorem authorizeCredentialOf_safe (haddress : ReadsAddresses address) {elem : FieldView}
    (h : AuthorizeCredentialValidator.AcceptsElement elem) :
    Safe (authorizeCredentialOf elem) (DescribesAuthorizeCredential address elem) := by
  obtain ⟨-, ⟨text, hv, id, hid, -⟩, htype⟩ := h
  apply (accountOf_safe haddress ⟨text, hv, by simp [hid]⟩).bind
  intro issuer hissuer
  exact (asString_spells htype).bind fun text htext => ⟨hissuer, htext⟩

/-- The list of credentials is read element by element. -/
theorem depositPreauth_yields (haddress : ReadsAddresses address) :
    Yields (selectorItems stringOrObject kMalformedRequestHexStringValidator
      depositPreauthFields) depositPreauthConv
      (HashOrDescribed (DescribesDepositPreauth address)) := by
  refine selector_yields stringOrObject_checks hash_checks
    (.cons owner_check (.cons (.single accountBase58_checks)
      (.cons (.single (.requirement AuthorizeCredentialValidator.verify_safe)) .nil)))
    fun v h => ?_
  obtain _ | ⟨howner, _ | ⟨hauthorized, _ | ⟨hcreds, -⟩⟩⟩ := h
  apply (accountOf_safe haddress howner).bind
  intro owner howner
  refine (whenGiven_safe (fun hp => (hauthorized hp).isString)
    fun hp => accountOf_safe haddress (hauthorized hp)).bind fun authorized hauthorized => ?_
  refine Safe.bind (whenGiven_safe (fun hp => (hcreds hp).1) fun hp => ?_)
    fun creds hcreds => ⟨howner, hauthorized, hcreds⟩
  exact (Safe.mapM fun elem helem => authorizeCredentialOf_safe haddress
    ((hcreds hp).2 elem helem)).mono fun _ h => ⟨(hcreds hp).1, h⟩

/-! ### Bridges -/

/-- The four members of a bridge. -/
def BridgeAccepted (v : FieldView) : Prop :=
  HasAddress (v.child "LockingChainDoor") ∧ HasAddress (v.child "IssuingChainDoor") ∧
    CurrencyIssueValidator.Accepts (v.child "LockingChainIssue") ∧
    CurrencyIssueValidator.Accepts (v.child "IssuingChainIssue")

/-- On an object the sections have looked at all four members. -/
theorem bridge_checks : (kBridgeJsonValidator : Item α).Checks
    fun v => v.isObject = true → BridgeAccepted v := by
  have hissue : ItemsCheck ([required, currencyIssue] : List (Item α))
      CurrencyIssueValidator.Accepts :=
    requiredThen_check required_checks currencyIssue_checks
  have hfields : List.Forall₂ (fun (field : FieldSpec α) Q => ItemsCheck field.items Q)
      bridgeFields _ :=
    .cons account_check (.cons account_check (.cons hissue (.cons hissue .nil)))
  refine ((Item.Checks.ifType (.single (.section_ hfields))).withCustomError _ _).mono
    fun v h hobject => ?_
  obtain _ | ⟨hlocking, _ | ⟨hissuing, _ | ⟨hlockingIssue, _ | ⟨hissuingIssue, -⟩⟩⟩⟩ :=
    (h hobject (FieldView.present_of_is (t := .object) hobject)).2
  exact ⟨hlocking, hissuing, hlockingIssue, hissuingIssue⟩

omit [Build] in
/-- The four members, one after the other. -/
theorem bridgeSpecFromObject_safe (haddress : ReadsAddresses address) {v : FieldView}
    (h : BridgeAccepted v) : Safe (bridgeSpecFromObject v) (DescribesBridge address v) := by
  obtain ⟨hlocking, hissuing, hlockingIssue, hissuingIssue⟩ := h
  apply (accountOf_safe haddress hlocking).bind
  intro _ hlocking
  apply (accountOf_safe haddress hissuing).bind
  intro _ hissuing
  apply (issueFromCurrencyIssue_safe hlockingIssue).bind
  intro _ hlockingIssue
  apply (issueFromCurrencyIssue_safe hissuingIssue).bind
  intro _ hissuingIssue
  exact ⟨hlocking, hissuing, hlockingIssue, hissuingIssue⟩

theorem bridge_yields (haddress : ReadsAddresses address) :
    Yields bridgeItems bridgeConv fun v bridge =>
      v.isObject = true ∧ DescribesBridge address v bridge :=
  .of_check (.cons ((type_checks .object).withCustomError _ _) (.single bridge_checks))
    fun _ hp ⟨hobject, hbridge⟩ =>
      (bridgeSpecFromObject_safe haddress (hbridge (hobject hp))).mono
        fun _ h => ⟨hobject hp, h⟩

/-- The bridge is read from the object that holds the claim's number too. -/
theorem xChain_yields (haddress : ReadsAddresses address) (claimKey : String) :
    Yields (xChainItems claimKey) (xChainConv claimKey)
      (HashOrDescribed (DescribesXChainClaimId address claimKey)) := by
  have hclaim : ItemsCheck ([required, type [.uint32]] :
      List (Item (Uint256 ⊕ XChainClaimIdEntry))) fun v => v.is .uint32 = true :=
    requiredThen_check required_checks (type_checks .uint32)
  have hfields : List.Forall₂ (fun (field : FieldSpec (Uint256 ⊕ XChainClaimIdEntry)) Q =>
      ItemsCheck field.items Q) [.mk claimKey [required, type [.uint32]]] _ := .cons hclaim .nil
  refine .of_check (.cons malformedUnlessStringOrObject_checks
    (.cons (.ifType (.single hash_checks)) (.cons bridge_checks (.single ((Item.Checks.ifType
      (.single (.section_ hfields))).withCustomError _ _))))) ?_
  rintro v hp ⟨hkind, hstring, hbridge, hclaim⟩
  refine hashOrEntry_safe (fun _ => rfl) (fun hs => hstring hs hp) fun hs => ?_
  have hobject : v.isObject = true := by simpa [hs] using hkind hp
  obtain _ | ⟨hclaim, -⟩ := (hclaim hobject hp).2
  apply (bridgeSpecFromObject_safe haddress (hbridge hobject)).bind
  intro bridge hbridge
  exact (asUint32_safe hclaim).bind fun claimId hclaim => ⟨hobject, hbridge, hclaim⟩

/-! ### The oracle, whose document id is rewritten -/

/-- What its items leave of the document id of an oracle. -/
def LeavesDocumentId (v v' : FieldView) : Prop :=
  v'.isUint32 = true ∧ ∀ n, NamesUint32 v' n → NamesDocumentId v n

omit [LibXrpl] in
/-- Whether spelled or not, the id is left as a number, and as the one it was. -/
theorem documentId_safe (v : FieldView) :
    SafeRun (runProcessors ([requiredOrMalformed,
      withCustomError (type [.uint32, .string]) kMalformedOracleDocumentId,
      withCustomError toNumber kMalformedOracleDocumentId] :
      List (Item (Uint256 ⊕ OracleEntry)))) v fun _ v' =>
      FieldView.SameField v v' ∧ LeavesDocumentId v v' := by
  have htype : (withCustomError (type [.uint32, .string]) kMalformedOracleDocumentId :
      Item (Uint256 ⊕ OracleEntry)).Checks fun v => v.present = true →
        v.isUint32 = true ∨ v.isString = true :=
    .withCustomError (.requirement fun v => (TypeIs.verify_safe _ v).mono fun _ h hp => by
      simpa [FieldView.is] using h hp) _ _
  have htoNumber : (toNumber : Item (Uint256 ⊕ OracleEntry)).Meets
      (fun v' => ((v' = v ∧ v'.present = true) ∧
        (v'.present = true → v'.isUint32 = true ∨ v'.isString = true)))
      (LeavesDocumentId v) := by
    rintro _ ⟨⟨rfl, hp⟩, hkind⟩
    refine (toNumber_safe (hkind hp)).mono fun _ v' ⟨hsame, h⟩ => ⟨hsame, ?_⟩
    rcases h with ⟨rfl, hnumber⟩ | ⟨val, ⟨text, htext, hval, hlo, hhi⟩, hv'⟩
    · exact ⟨hnumber, fun n hn => .inl hn⟩
    · refine ⟨isUint32_of_ofInt hlo hhi hv', fun n hn => .inr ⟨text, htext, ?_⟩⟩
      have hhi : val ≤ 4294967295 := hhi
      have hofInt : (Int64.ofInt val).toInt = val :=
        Int64.toInt_ofInt_of_le (by omega) (by omega)
      simp only [NamesUint32, hv', hofInt] at hn
      rw [hval, hn]
  exact ItemsMeet.cons (requiredOrMalformed_checks.meets (P := (· = v)))
    (.cons htype.meets (.cons (htoNumber.withCustomError _ _) .nil)) v rfl

/-- The object an oracle is described by, and what is left of it. -/
def LeavesOracle (v v' : FieldView) : Prop :=
  v.isObject = true ∧ v'.isObject = true ∧ v'.child "account" = v.child "account" ∧
    HasAddress (v.child "account") ∧
    LeavesDocumentId (v.child "oracle_document_id") (v'.child "oracle_document_id")

/-- The section rewrites the id and nothing else, so the account is still what it was. -/
theorem oracleSection_meets (v : FieldView) :
    (section_ oracleFields : Item (Uint256 ⊕ OracleEntry)).Meets
      (fun v' => v' = v ∧ v'.isObject = true) (LeavesOracle v) := by
  rintro _ ⟨rfl, hobject⟩
  have haccount : ∀ c, SafeRun (runProcessors ([requiredOrMalformed, accountOrMalformed] :
      List (Item (Uint256 ⊕ OracleEntry)))) c fun _ c' =>
        FieldView.SameField c c' ∧ c' = c ∧ HasAddress c := by
    refine fun c => (accountOrMalformed_check c).mono ?_
    rintro _ _ ⟨rfl, hc⟩
    exact ⟨.refl _, rfl, hc⟩
  have hkeys : ((oracleFields : List (FieldSpec (Uint256 ⊕ OracleEntry))).map
      FieldSpec.key).Nodup := by simp [oracleFields, FieldSpec.key]
  refine (section_safe hkeys (.cons haccount (.cons documentId_safe .nil)) _).mono ?_
  rintro _ v' ⟨hsame, h⟩
  refine ⟨hsame, ?_⟩
  obtain ⟨-, hobject', _ | ⟨⟨hsame, haccount⟩, _ | ⟨hdocument, -⟩⟩⟩ :=
    h (FieldView.present_of_is (t := .object) hobject)
  exact ⟨hobject, hobject', hsame, haccount, hdocument⟩

/-- The converter reads what the section has left, the relation speaks of what was given. -/
theorem oracle_yields (haddress : ReadsAddresses address) :
    Yields (selectorItems malformedUnlessStringOrObject malformedAddressUnlessHash oracleFields)
      oracleConv (HashOrDescribed (DescribesOracle address)) := by
  intro v
  have hobject : (ifType .object [section_ oracleFields] : Item (Uint256 ⊕ OracleEntry)).Meets
      (fun v' => (v' = v ∧ StringOrObject v') ∧
        (v'.is .string = true → v'.present = true → HasHex 256 v')) _ :=
    .ifType (.cons ((oracleSection_meets v).mono (fun _ h => ⟨h.1.1.1, h.2⟩) fun _ h => h) .nil)
  have hitems := ItemsMeet.cons (malformedUnlessStringOrObject_checks.meets (P := (· = v)))
    (.cons (Item.Checks.ifType (t := .string) (.single malformedAddressUnlessHash_checks)).meets
      (.cons hobject .nil)) v rfl
  refine hitems.mono fun _ v' ⟨hsame, h⟩ => ⟨hsame, fun hp => ?_⟩
  rcases h with ⟨hobject, hobject', haccount, haddressed, hnumber, hdocument⟩ |
    ⟨⟨⟨rfl, hkind⟩, hhash⟩, hother⟩
  · have hstring : v'.isString = false := by
      unfold FieldView.isObject at hobject'
      split at hobject'
      · rename_i hv'
        simp [FieldView.isString, hv']
      · cases hobject'
    apply hashOrEntry_safe (by simp [hstring]) (by simp [hstring])
    intro _
    rw [haccount]
    apply (accountOf_safe haddress haddressed).bind
    intro account haccount
    exact (asUint32_safe hnumber).bind fun n hn => ⟨hobject, haccount, hdocument n hn⟩
  · have hother : v'.isObject = false := hother
    have hstring : v'.isString = true := (hkind hp).resolve_right (by simp [hother])
    exact hashOrEntry_safe (fun _ => rfl) (fun hs => hhash hs hp) (by simp [hstring])

end Each

/-! ## The spec -/

@[simp] theorem indexField_neverFaults {key : String} {member : Member Input Uint256} :
    (indexField key member).NeverFaults :=
  field_neverFaults (by simp [kMalformedRequestHexStringValidator]) asUint256_neverFaults

theorem kInputSpec_neverFaults : kInputSpec.NeverFaults := by
  have hreads : ReadsAddresses accountFromStringStrict := fun _ _ _ h => h
  simp [TypedSpec.NeverFaults, kInputSpec,
    field_neverFaults_of_yields (depositPreauth_yields hreads),
    field_neverFaults_of_yields (directory_yields hreads),
    field_neverFaults_of_yields (escrow_yields hreads),
    field_neverFaults_of_yields (offer_yields hreads),
    alias_neverFaults_of_yields (rippleState_yields hreads),
    field_neverFaults_of_yields (ticket_yields hreads),
    field_neverFaults_of_yields amm_yields,
    field_neverFaults_of_yields (bridge_yields hreads),
    field_neverFaults_of_yields (xChain_yields hreads _), xChainClaimIdConv,
    xChainCreateAccountClaimIdConv,
    field_neverFaults_of_yields (oracle_yields hreads),
    field_neverFaults_of_yields (credential_yields hreads),
    field_neverFaults_of_yields (mptoken_yields hreads),
    field_neverFaults_of_yields (permissionedDomain_yields hreads),
    field_neverFaults_of_yields (vault_yields hreads),
    field_neverFaults_of_yields (loanBroker_yields hreads),
    field_neverFaults_of_yields loan_yields,
    field_neverFaults_of_yields (delegate_yields hreads),
    field_neverFaults_of_yields (sponsorship_yields hreads)]

end RpcSpec.Handlers.LedgerEntry
