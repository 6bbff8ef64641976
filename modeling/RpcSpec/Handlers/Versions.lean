import RpcSpec.Dsl.Narrowing
import RpcSpec.Handlers.AllHandlers
set_option autoImplicit false

/-!
# The second version of the API against the first

The specs that `extend` derives for the second version override fields in place, and
each override accepts less than the field it replaces.

`versionedEntries_narrow` says so of the six handlers with a second version, with the
`Input`, the document left and the warnings; `narrows_extend` does the work for each.
-/

namespace RpcSpec.Handlers

open RpcSpec.Dsl RpcSpec.Foundation XrpldError FieldView

/-- The specs of a handler for the first and the second version of the API. -/
structure VersionedEntry where
  handler : String
  {Input : Type}
  [aggregate : InputAggregate Input]
  kInputSpecV1 : TypedSpec Input
  kInputSpecV2 : TypedSpec Input

attribute [instance] VersionedEntry.aggregate

section

variable [Build] [LibXrpl]

/-- The handlers whose second spec is derived from the first by overrides. -/
def versionedEntries : List VersionedEntry :=
  [⟨"account_tx", AccountTx.kInputSpecV1, AccountTx.kInputSpecV2⟩,
  ⟨"account_info", AccountInfo.kInputSpecV1, AccountInfo.kInputSpecV2⟩,
  ⟨"gateway_balances", GatewayBalances.kInputSpecV1, GatewayBalances.kInputSpecV2⟩,
  ⟨"ledger", Ledger.kInputSpecV1, Ledger.kInputSpecV2⟩,
  ⟨"noripple_check", NorippleCheck.kInputSpecV1, NorippleCheck.kInputSpecV2⟩,
  ⟨"tx", Tx.kInputSpecV1, Tx.kInputSpecV2⟩]

/-! ## The overrides -/

omit [Build] [LibXrpl] in
theorem follows_rejectIf {bad : Bool} {code code' : CombinedError} {message message' : String} :
    Follows Eq (rejectIf bad code message) (rejectIf bad code' message') := by
  cases bad with
  | false => exact .refl (fun _ => rfl) _
  | true => exact .of_error rfl

omit [Build] [LibXrpl] in
/-- The strict converter takes booleans alone. -/
theorem jsonBoolStrict_isBool {v : FieldView} {b : JsonBool}
    (h : jsonBoolStrict.parse v = .ok b) : v.isBool = true := by
  cases hbool : v.isBool with
  | true => rfl
  | false =>
      simp only [jsonBoolStrict, jsonBoolConverter, hbool, if_true] at h
      cases h

omit [Build] [LibXrpl] in
/-- A boolean is read as it is by the lenient converter too. -/
theorem jsonBoolConverter_narrows (strict : Bool) :
    (jsonBoolConverter strict).Narrows jsonBool := by
  intro v b h
  cases strict with
  | false => exact h
  | true =>
      have hbool := jsonBoolStrict_isBool h
      simp only [jsonBool, jsonBoolConverter, hbool, Bool.false_eq_true, if_false, if_true]
      change (rejectIf (!v.isBool) rpcInvalidParams >>= fun _ => v.asBool) = _ at h
      rwa [hbool] at h

section Overrides

variable {Input : Type} {key : String} {member : Member Input JsonBool}

/-- What the strict flag accepts the lenient one reads alike. -/
theorem jsonBoolConverter_override (strict : Bool) {unguarded unguarded'} :
    (field key member [] (jsonBoolConverter strict) unguarded).Narrows
      (field key member [] jsonBool unguarded') :=
  narrows_field rfl rfl (fun _ => rfl) (fun _ => rfl) rfl (fun _ h _ => h)
    (jsonBoolConverter_narrows strict)

/-- The type that only the first version checks is the one the strict converter reads. -/
theorem jsonBoolStrict_override {unguarded unguarded'} :
    (field key member [] jsonBoolStrict unguarded).Narrows
      (field key member [type [.bool]] jsonBool unguarded') := by
  refine narrows_field rfl rfl (fun _ => rfl) (fun _ => rfl) rfl (fun v _ hreturns => ?_)
    (jsonBoolConverter_narrows true)
  refine runProcessors_fixed ?_
  rw [List.forall_mem_singleton]
  apply type_fixes
  intro hpresent
  obtain ⟨b, hb⟩ := hreturns hpresent
  simpa [FieldView.is] using jsonBoolStrict_isBool hb

end Overrides

namespace GatewayBalances

omit [Build] in
/-- The two validators report different codes for the same values. -/
theorem verifyHotWallet_follows (code code' : XrpldError) (v : FieldView) :
    Follows Eq (verifyHotWallet code v) (verifyHotWallet code' v) := by
  have hone (elem : FieldView) {message : String} : Follows Eq
      (do rejectIf (!(← getAccountID elem)) code message)
      (do rejectIf (!(← getAccountID elem)) code' message) := by
    refine (Follows.refl (fun _ => rfl) (getAccountID elem)).bind ?_
    rintro found _ rfl
    exact follows_rejectIf
  apply follows_rejectIf.bind
  intro _ _ _
  split
  · exact .forM fun elem _ => hone elem
  · exact hone v

/-- The versions of the check differ in the code alone. -/
theorem hotWallet_override {Input : Type} {key : String} {member : Member Input (Finset AccountID)}
    {unguarded unguarded'} : (field key member [kHotWalletV2] hotWalletConv unguarded).Narrows
      (field key member [kHotWalletV1] hotWalletConv unguarded') := by
  refine narrows_field rfl rfl (fun _ => rfl) (fun _ => rfl) rfl (fun v hrun _ => ?_)
    fun _ _ h => h
  refine runProcessors_fixed ?_
  rw [List.forall_mem_singleton]
  refine .requirement ?_
  have hcheck := verify_of_runProcessors hrun
  unfold ifPresent at hcheck ⊢
  split
  · rfl
  · rw [if_neg ‹_›] at hcheck
    obtain ⟨_, hcheck', -⟩ := verifyHotWallet_follows _ rpcInvalidHotwallet v _ hcheck
    exact hcheck'

end GatewayBalances

/-! ## Each handler -/

/-- What the second version accepts the first accepts, with the same `Input` and the same
request left; on every request the two give the same warnings. -/
theorem versionedEntries_narrow (entry : VersionedEntry) (hmem : entry ∈ versionedEntries) :
    entry.kInputSpecV2.Narrows entry.kInputSpecV1 := by
  revert entry
  simp only [versionedEntries, List.forall_mem_cons]
  refine ⟨?accountTx, ?accountInfo, ?gatewayBalances, ?ledger, ?norippleCheck, ?tx, by simp⟩
  case accountTx =>
    refine narrows_extend ?_
    simp only [List.forall_mem_cons]
    exact ⟨⟨_, rfl, jsonBoolConverter_override _⟩, ⟨_, rfl, jsonBoolConverter_override _⟩, by simp⟩
  case accountInfo | norippleCheck | tx =>
    refine narrows_extend ?_
    rw [List.forall_mem_singleton]
    exact ⟨_, rfl, jsonBoolConverter_override _⟩
  case gatewayBalances =>
    refine narrows_extend ?_
    rw [List.forall_mem_singleton]
    exact ⟨_, rfl, GatewayBalances.hotWallet_override⟩
  case ledger =>
    refine narrows_extend ?_
    simp only [List.forall_mem_cons]
    exact ⟨⟨_, rfl, jsonBoolStrict_override⟩, ⟨_, rfl, jsonBoolStrict_override⟩,
      ⟨_, rfl, jsonBoolStrict_override⟩, ⟨_, rfl, jsonBoolStrict_override⟩, by simp⟩

end

/-- A request for a transaction in binary form. -/
def binaryRequest (binary : Json) : Json := .object [("binary", binary)]

/-- What the strict converter reads the lenient one reads as well. -/
theorem versionedEntries_narrow_tx :
    @TypedSpec.parse _ _ .clio hexLib (@Tx.kInputSpecV1 .clio hexLib) (binaryRequest (.bool true)) =
      .ok ({ binary := true } : Tx.Input) (binaryRequest (.bool true)) :=
  @TypedSpec.Narrows.parse .clio hexLib _ _ _ _ (@versionedEntries_narrow .clio hexLib
    ⟨"tx", @Tx.kInputSpecV1 .clio hexLib, @Tx.kInputSpecV2 .clio hexLib⟩
    (List.mem_of_getElem? (i := 5) rfl)) (binaryRequest (.bool true)) _ _ rfl

end RpcSpec.Handlers
