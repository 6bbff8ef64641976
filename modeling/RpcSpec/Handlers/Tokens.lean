import RpcSpec.Handlers.Common
set_option autoImplicit false

/-!
# Requests about tokens

`nft_info`, `nft_offers_common`, `nfts_by_issuer` and `mpt_holders`.

Each section has the `Input`, the specs and the lemmas that they never fault.
-/

namespace RpcSpec.Handlers

open RpcSpec.Dsl RpcSpec.Foundation XrpldError

variable [Build] [LibXrpl]

/-! ## `nft_info` -/

namespace NftInfo

/-- The token asked about. -/
structure Input where
  ledger : LedgerSpecifier := .unspecified
  nftID : Uint256 := 0

instance : InputAggregate Input := ⟨{}, 2⟩

/-- The id is required and read as it stands. -/
def kInputSpec : TypedSpec Input where
  fields := [
    ledgerSelector ⟨"ledger", fun out v => { out with ledger := v }⟩,
    field "nft_id" ⟨"nftID", fun out v => { out with nftID := v }⟩ [required] asUint256]
  complete := by rfl

theorem kInputSpec_neverFaults : kInputSpec.NeverFaults := by
  simp [TypedSpec.NeverFaults, kInputSpec]

end NftInfo

/-! ## `nft_offers_common` -/

namespace NftOffersCommon

/-- The bounds of the page size, and the size of a page nobody asked for. -/
def kLimitMin : UInt32 := 50
def kLimitMax : UInt32 := 500
def kLimitDefault : UInt32 := 250

/-- The token whose offers to list, and from which page on. -/
structure Input where
  ledger : LedgerSpecifier := .unspecified
  nftID : Uint256 := 0
  limit : UInt32 := 0
  marker : Option Uint256 := none

instance : InputAggregate Input := ⟨{}, 4⟩

/-- The spec of `nft_buy_offers` and `nft_sell_offers` both. -/
def kInputSpec : TypedSpec Input where
  fields := [
    ledgerSelector ⟨"ledger", fun out v => { out with ledger := v }⟩,
    field "nft_id" ⟨"nftID", fun out v => { out with nftID := v }⟩ [required] asUint256,
    -- the default stands before the bounds here
    field "limit" ⟨"limit", fun out v => { out with limit := v }⟩
      (serverLimitChecks kLimitDefault ++
        [defaultTo kLimitDefault, ifServerClio [clamp kLimitMin kLimitMax]])
      asUint32,
    field "marker" ⟨"marker", fun out v => { out with marker := some v }⟩
      [ifServerXrpld
        [withCustomError (type [.string]) rpcInvalidParams
          "Invalid field 'marker', not string.",
        withCustomError uint256Hex rpcInvalidParams]]
      asUint256]
  complete := by rfl

/-- The ids are parsed by converters that ask for a string themselves. -/
theorem kInputSpec_neverFaults : kInputSpec.NeverFaults := by
  simp [TypedSpec.NeverFaults, kInputSpec]

end NftOffersCommon

/-! ## `nfts_by_issuer` -/

namespace NftsByIssuer

/-- The bounds of the page size, and the size of a page nobody asked for. -/
def kLimitMin : UInt32 := 1
def kLimitMax : UInt32 := 100
def kLimitDefault : UInt32 := 50

/-- Whose tokens to list, of which taxon, and from which page on. -/
structure Input where
  ledger : LedgerSpecifier := .unspecified
  issuer : AccountID := 0
  nftTaxon : Option UInt32 := none
  marker : Option Uint256 := none
  limit : UInt32 := 0

instance : InputAggregate Input := ⟨{}, 5⟩

/-- The taxon is any 32-bit number. -/
def kInputSpec : TypedSpec Input where
  fields := [
    ledgerSelector ⟨"ledger", fun out v => { out with ledger := v }⟩,
    field "issuer" ⟨"issuer", fun out v => { out with issuer := v }⟩ [required] accountId,
    field "nft_taxon" ⟨"nftTaxon", fun out v => { out with nftTaxon := some v }⟩
      [type [.uint32]] asUint32,
    field "limit" ⟨"limit", fun out v => { out with limit := v }⟩
      (limitItems kLimitMin kLimitMax kLimitDefault 1) asUint32,
    field "marker" ⟨"marker", fun out v => { out with marker := some v }⟩ [] asUint256]
  complete := by rfl

/-- Every converter of `nfts_by_issuer` checks what it reads. -/
theorem kInputSpec_neverFaults : kInputSpec.NeverFaults := by
  simp [TypedSpec.NeverFaults, kInputSpec]

end NftsByIssuer

/-! ## `mpt_holders` -/

namespace MptHolders

/-- The bounds of the page size; there is no default. -/
def kLimitMin : UInt32 := 1
def kLimitMax : UInt32 := 100

/-- How many accounts may be asked about at once. -/
def kMaxAccounts : Nat := 100

/-- The issuance whose holders to list, or the accounts to list of them. -/
structure Input where
  ledger : LedgerSpecifier := .unspecified
  mptID : Uint192 := 0
  marker : Option AccountID := none
  limit : Option UInt32 := none
  accounts : Option (List AccountID) := none

instance : InputAggregate Input := ⟨{}, 5⟩

/-- `AccountIdHexConverter`. -/
def accountIdHex : Converter AccountID := hexConverter 160 fun _ parsed => parsed

@[simp] theorem accountIdHex_neverFaults : accountIdHex.NeverFaults := hexConverter_neverFaults

/-- The marker is an account in hexadecimal; the accounts are checked before they are read. -/
def kInputSpec : TypedSpec Input where
  fields := [
    ledgerSelector ⟨"ledger", fun out v => { out with ledger := v }⟩,
    field "mpt_issuance_id" ⟨"mptID", fun out v => { out with mptID := v }⟩ [required]
      asUint192,
    field "marker" ⟨"marker", fun out v => { out with marker := some v }⟩ [] accountIdHex,
    field "accounts" ⟨"accounts", fun out v => { out with accounts := v }⟩
      [accountIdArray kMaxAccounts] asAccountIdVec,
    field "limit" ⟨"limit", fun out v => { out with limit := some v }⟩
      [type [.uint32], min kLimitMin, clamp kLimitMin kLimitMax] asUint32]
  complete := by rfl

omit [Build] in
/-- `accountIdArray` has read every account before. -/
theorem accounts_neverFaults {Input : Type} {key : String}
    {member : Member Input (Option (List AccountID))} {maxSize : Nat} {unguarded} :
    (field key member [accountIdArray maxSize] asAccountIdVec unguarded).NeverFaults := by
  refine field_neverFaults_of_meets
    (.cons (.requirement fun v _ => AccountIdArrayValidator.verify_safe maxSize v) .nil) ?_
  exact fun v hp hv => asAccountIdVec_safe (hv hp).2

/-- The accounts are read behind their validator, the rest by converters that check. -/
theorem kInputSpec_neverFaults : kInputSpec.NeverFaults := by
  simp [TypedSpec.NeverFaults, kInputSpec, accounts_neverFaults]

end MptHolders

end RpcSpec.Handlers
