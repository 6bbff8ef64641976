import RpcSpec.Dsl.Alike
import RpcSpec.Dsl.HexText
import RpcSpec.Handlers.Balances
set_option autoImplicit false

/-!
# Hot wallets

The validators of `hotwallet` decode base58 alone, the converter behind them hex public
keys first.  What the validators let pass the converter reads as the accounts the texts
name, and the two validators differ in the code they report.

`hotWallets_agree` says this for a string and for an array of any length, on both servers,
and that an account named twice is one wallet.
-/

namespace RpcSpec.Handlers.GatewayBalances

open RpcSpec.Dsl RpcSpec.Foundation XrpldError

variable [LibXrpl]

/-- No base58 token is the hex of a public key as well. -/
def TokensAreNoHexKeys : Prop :=
  ∀ text, (LibXrpl.parseBase58AccountPublic text).isSome ∨
      (LibXrpl.parseBase58AccountID text).isSome →
    ∀ blob, LibXrpl.strUnHex text = some blob → LibXrpl.isPublicKey blob = false

/-- The account a text names in base58: that of a public key, or one given by its
address. -/
def walletId (text : Bytes) : Option AccountID :=
  match parseBase58Wrapper LibXrpl.parseBase58AccountPublic text with
  | some key => some (LibXrpl.calcAccountID key)
  | none => parseBase58Wrapper LibXrpl.parseBase58AccountID text

/-- The value holds these texts: it is the only one, or the array of them. -/
inductive HoldsTexts : Json → List Bytes → Prop where
  | text (text : Bytes) : HoldsTexts (.string text) [text]
  | array (texts : List Bytes) : HoldsTexts (.array (texts.map .string)) texts

/-- The value holds the texts, and each of them names an account. -/
def NamesWallets (json : Json) (texts : List Bytes) : Prop :=
  HoldsTexts json texts ∧ ∀ text ∈ texts, (walletId text).isSome = true

/-! ## The validators -/

/-- The element is a text that names an account. -/
def isWallet : Json → Bool
  | .string text => (walletId text).isSome
  | _ => false

/-- A text names a wallet when either decoder reads it. -/
theorem walletId_isSome (text : Bytes) : (walletId text).isSome =
    ((parseBase58Wrapper LibXrpl.parseBase58AccountPublic text).isSome ||
      (parseBase58Wrapper LibXrpl.parseBase58AccountID text).isSome) := by
  unfold walletId
  cases parseBase58Wrapper LibXrpl.parseBase58AccountPublic text with
  | some key => rfl
  | none => rfl

/-- The validator's question, told by the value. -/
theorem getAccountID_eq (key : String) (json : Json) :
    getAccountID ⟨key, some json⟩ = .ok (isWallet json) := by
  cases json with
  | string text =>
      rw [isWallet, walletId_isSome]
      rfl
  | _ => rfl

theorem getAccountID_returns (elem : FieldView) : Returns (getAccountID elem) := by
  obtain ⟨key, value⟩ := elem
  cases value with
  | none => exact ⟨false, rfl⟩
  | some json => exact ⟨_, getAccountID_eq key json⟩

/-- The elements are texts that name accounts. -/
theorem forall_isWallet_iff {items : List Json} : (∀ json ∈ items, isWallet json = true) ↔
    ∃ texts : List Bytes, items = texts.map .string ∧
      ∀ text ∈ texts, (walletId text).isSome = true := by
  constructor
  · intro h
    induction items with
    | nil => exact ⟨[], rfl, by simp⟩
    | cons json rest ih =>
        obtain ⟨hjson, hrest⟩ := List.forall_mem_cons.mp h
        obtain ⟨texts, rfl, htexts⟩ := ih hrest
        cases json with
        | string text => exact ⟨text :: texts, rfl, List.forall_mem_cons.mpr ⟨hjson, htexts⟩⟩
        | _ => cases hjson
  · rintro ⟨texts, rfl, htexts⟩
    simpa [isWallet] using htexts

omit [LibXrpl] in
theorem rejectIf_not_returns {b : Bool} {code : CombinedError} {message : String} :
    Returns (rejectIf (!b) code message) ↔ b = true := by
  cases b with
  | true => exact iff_of_true ⟨_, rfl⟩ rfl
  | false => exact iff_of_false nofun nofun

/-- The validator accepts just the values that name wallets, whatever code it reports. -/
theorem verifyHotWallet_returns_iff (code : XrpldError) (key : String) (json : Json) :
    Returns (verifyHotWallet code ⟨key, some json⟩) ↔ ∃ texts, NamesWallets json texts := by
  cases json with
  | string text =>
      change Returns (do
        rejectIf (!(← getAccountID ⟨key, some (.string text)⟩)) code (key ++ "Malformed")) ↔ _
      rw [getAccountID_eq]
      refine rejectIf_not_returns.trans ⟨?_, ?_⟩
      · intro h
        exact ⟨[text], .text text, List.forall_mem_singleton.mpr h⟩
      · rintro ⟨texts, hholds, htexts⟩
        cases hholds
        exact htexts text (List.mem_singleton_self text)
  | array items =>
      change Returns (forM (FieldView.elements ⟨key, some (.array items)⟩) fun elem => do
        rejectIf (!(← getAccountID elem)) code (key ++ "Malformed")) ↔ _
      have hone (json : Json) : Returns (do
          rejectIf (!(← getAccountID ⟨key, some json⟩)) code (key ++ "Malformed")) ↔
            isWallet json = true := by
        rw [getAccountID_eq]
        exact rejectIf_not_returns
      rw [Returns.forM_iff, FieldView.elements_array, List.forall_mem_map]
      simp only [hone, forall_isWallet_iff]
      constructor
      · rintro ⟨texts, rfl, htexts⟩
        exact ⟨texts, .array texts, htexts⟩
      · rintro ⟨texts, hholds, htexts⟩
        cases hholds
        exact ⟨texts, rfl, htexts⟩
  | _ =>
      refine iff_of_false nofun ?_
      rintro ⟨texts, hholds, -⟩
      cases hholds

/-- Errors with one text under the two codes. -/
def SameMessage (code code' : XrpldError) (e e' : Failure) : Prop :=
  ∃ message, e = unexpected code message ∧ e' = unexpected code' message

/-- Validators with different codes agree on what they reject, and on the text. -/
theorem verifyHotWallet_match (code code' : XrpldError) (v : FieldView) :
    Matches (SameMessage code code') Eq (verifyHotWallet code v) (verifyHotWallet code' v) := by
  have hreject (bad : Bool) (message : String) : Matches (SameMessage code code') Eq
      (rejectIf bad code message) (rejectIf bad code' message) :=
    rejectIf_match ⟨message, rfl, rfl⟩ bad
  have hone (elem : FieldView) : Matches (SameMessage code code') Eq
      (do rejectIf (!(← getAccountID elem)) code (v.key ++ "Malformed"))
      (do rejectIf (!(← getAccountID elem)) code' (v.key ++ "Malformed")) := by
    obtain ⟨b, hb⟩ := getAccountID_returns elem
    rw [hb]
    exact hreject (!b) _
  apply (hreject _ _).bind
  intro _ _ _
  split
  · exact .forM (List.forall₂_same.mpr fun elem _ => rfl) fun elem elem' h => h ▸ hone elem
  · exact hone v

/-! ## The converter -/

omit [LibXrpl] in
/-- The wrapper adds no account to those the decoder reads. -/
theorem isSome_of_wrapper {T : Type} {parse : Bytes → Option T} {text : Bytes}
    (h : (parseBase58Wrapper parse text).isSome = true) : (parse text).isSome = true := by
  unfold parseBase58Wrapper at h
  split at h
  · cases h
  · exact h

/-- Text that names an account in base58 names that account to the converter. -/
theorem accountFromStringStrict_eq_walletId (htokens : TokensAreNoHexKeys) {text : Bytes}
    (h : (walletId text).isSome = true) : accountFromStringStrict text = walletId text := by
  have htoken : (LibXrpl.parseBase58AccountPublic text).isSome ∨
      (LibXrpl.parseBase58AccountID text).isSome := by
    rw [walletId_isSome, Bool.or_eq_true] at h
    exact h.imp isSome_of_wrapper isSome_of_wrapper
  unfold accountFromStringStrict walletId
  cases hblob : LibXrpl.strUnHex text with
  | none => rfl
  | some blob =>
      dsimp only
      cases hkey : LibXrpl.isPublicKey blob with
      | true => cases (htokens text htoken blob hblob).symm.trans hkey
      | false => rfl

/-- The converter adds the account each text names. -/
theorem foldlM_parseOne (htokens : TokensAreNoHexKeys) (key : String) {texts : List Bytes}
    (h : ∀ text ∈ texts, (walletId text).isSome = true) (result : Finset AccountID) :
    ∃ ids, (texts.map fun text => (⟨key, some (.string text)⟩ : FieldView)).foldlM parseOne result =
        .ok ids ∧
      ∀ id, id ∈ ids ↔ id ∈ result ∨ ∃ text ∈ texts, walletId text = some id := by
  induction texts generalizing result with
  | nil => exact ⟨result, rfl, by simp⟩
  | cons text rest ih =>
      obtain ⟨htext, hrest⟩ := List.forall_mem_cons.mp h
      obtain ⟨found, hfound⟩ := Option.isSome_iff_exists.mp htext
      have hone : parseOne result ⟨key, some (.string text)⟩ = .ok (insert found result) := by
        have hread : accountFromStringStrict text = some found :=
          (accountFromStringStrict_eq_walletId htokens htext).trans hfound
        change (orReject (accountFromStringStrict text) rpcInvalidParams >>= fun id =>
          pure (insert id result)) = _
        rw [hread]
        rfl
      obtain ⟨ids, hids, hmem⟩ := ih hrest (insert found result)
      refine ⟨ids, ?_, ?_⟩
      · rw [List.map_cons, List.foldlM_cons, hone]
        exact hids
      · intro id
        rw [hmem, Finset.mem_insert, List.exists_mem_cons_iff, hfound, Option.some_inj]
        tauto

/-- The texts that the validators let pass the converter reads as their accounts. -/
theorem hotWalletConv_reads (htokens : TokensAreNoHexKeys) (key : String) {json : Json}
    {texts : List Bytes} (h : NamesWallets json texts) :
    ∃ ids, hotWalletConv.parse ⟨key, some json⟩ = .ok ids ∧
      ∀ id, id ∈ ids ↔ ∃ text ∈ texts, walletId text = some id := by
  obtain ⟨hholds, htexts⟩ := h
  obtain ⟨ids, hids, hmem⟩ := foldlM_parseOne htokens key htexts ∅
  refine ⟨ids, ?_, by simpa using hmem⟩
  rw [← hids]
  cases hholds with
  | text text =>
      rw [List.map_singleton, List.foldlM_cons]
      exact (bind_pure (parseOne ∅ ⟨key, some (.string text)⟩)).symm
  | array =>
      change (FieldView.elements ⟨key, some (.array _)⟩).foldlM parseOne ∅ = _
      rw [FieldView.elements_array, List.map_map]
      rfl

/-! ## Validators and converter together -/

/-- The validators accept just the values that name wallets, of which the converter makes
the set of the accounts; what they reject they reject in one text, under two codes. -/
structure WalletsAgree (v : FieldView) (json : Json) : Prop where
  versions : Returns (kHotWalletV1.verify v) ↔ Returns (kHotWalletV2.verify v)
  accepts : Returns (kHotWalletV1.verify v) ↔ ∃ texts, NamesWallets json texts
  converts : Returns (kHotWalletV1.verify v) → ∃ texts ids, NamesWallets json texts ∧
    hotWalletConv.parse v = .ok ids ∧ ∀ id, id ∈ ids ↔ ∃ text ∈ texts, walletId text = some id
  rejects : ∀ e, kHotWalletV1.verify v = .error e → ∃ message,
    e = unexpected rpcInvalidHotwallet message ∧
      kHotWalletV2.verify v = .error (unexpected rpcInvalidParams message)

/-- The versions accept the same hot wallets, with codes of their own, and whatever the
validator accepts the converter reads: the account of each string, none lost and none but
theirs. -/
theorem hotWallets_agree (htokens : TokensAreNoHexKeys) (key : String) (json : Json) :
    WalletsAgree ⟨key, some json⟩ json where
  versions := (verifyHotWallet_returns_iff rpcInvalidHotwallet key json).trans
    (verifyHotWallet_returns_iff rpcInvalidParams key json).symm
  accepts := verifyHotWallet_returns_iff rpcInvalidHotwallet key json
  converts := by
    intro haccepted
    obtain ⟨texts, htexts⟩ :=
      (verifyHotWallet_returns_iff rpcInvalidHotwallet key json).mp haccepted
    obtain ⟨ids, hids, hmem⟩ := hotWalletConv_reads htokens key htexts
    exact ⟨texts, ids, htexts, hids, hmem⟩
  rejects := by
    intro e he
    have hmatch := verifyHotWallet_match rpcInvalidHotwallet rpcInvalidParams ⟨key, some json⟩
    change verifyHotWallet rpcInvalidHotwallet ⟨key, some json⟩ = .error e at he
    rw [he] at hmatch
    obtain ⟨_, he', message, rfl, rfl⟩ := hmatch.exists_error
    exact ⟨message, rfl, he'⟩

/-! ## An account named twice -/

/-- The address of the account of the master passphrase, and its public key. -/
def masterAddress : Bytes := bytesOf "rHb9CJAWyB4rj91VRWn96DkukG4bwdtyTh"

/-- A public key of an account, in base58. -/
def masterPublicKey : Bytes := bytesOf "aBQG8RQAzjs1eTKFEAQXr2gS4utcDiEC9wmi7pfUPTi27VCahwgw"

/-- The same key in bytes. -/
def masterKey : Bytes :=
  [0x03, 0x30, 0xE7, 0xFC, 0x9D, 0x56, 0xBB, 0x25, 0xD6, 0x89, 0x3B, 0xA3, 0xF3, 0x17, 0xAE, 0x5B,
    0xCF, 0x33, 0xB3, 0x29, 0x1B, 0xD6, 0x3D, 0xB3, 0x26, 0x54, 0xA3, 0x13, 0x22, 0x2F, 0x7F, 0xD0,
    0x20]

/-- The account of the key. -/
def masterAccount : AccountID := 0xB5F762798A53D543A014CAF8B297CFF8F2F937E8

/-- It knows the one account. -/
abbrev masterLib : LibXrpl :=
  { hexLib with
    isPublicKey := fun blob => blob == masterKey
    calcAccountID := fun blob => if blob = masterKey then masterAccount else 0
    parseBase58AccountID := fun text => if text = masterAddress then some masterAccount else none
    parseBase58AccountPublic := fun text =>
      if text = masterPublicKey then some masterKey else none }

/-- The key and the address, which are one wallet. -/
def masterWallets : Json := .array [.string masterPublicKey, .string masterAddress]

omit [LibXrpl] in
/-- Both spellings give the one account. -/
theorem hotWallets_agree_master :
    @WalletsAgree masterLib ⟨"hotwallet", some masterWallets⟩ masterWallets ∧
      @Converter.parse _ (@hotWalletConv masterLib) ⟨"hotwallet", some masterWallets⟩ =
        .ok {masterAccount} :=
  ⟨@hotWallets_agree masterLib (fun _ _ _ h => (nomatch h)) "hotwallet" masterWallets, rfl⟩

end RpcSpec.Handlers.GatewayBalances
