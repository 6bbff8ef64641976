import RpcSpec.Dsl.FaultFree
set_option autoImplicit false

/-!
# What the handlers share

Some fields are written out in the specs of several handlers: the `limit` in most
of them, the transaction type and the bounds and markers of a search through the
history in some.  Their items and converters are defined here once, with what
differs as parameters.

Next to each stand the lemmas that its items never fault and what they establish, so that
a handler's own module only names them.
-/

namespace RpcSpec.Handlers

open RpcSpec.Dsl RpcSpec.Foundation XrpldError

/-! ## The `limit` field -/

/-- The same bounds and checks for both servers. -/
def limitItems (kLimitMin kLimitMax kLimitDefault lo : UInt32) : List (Item UInt32) :=
  [type [.uint32], min lo, clamp kLimitMin kLimitMax, defaultTo kLimitDefault]

/-- The checks of a limit that only Clio keeps within its bounds. -/
def serverLimitChecks [Build] (kLimitDefault : UInt32) : List (Item UInt32) :=
  [ifServerXrpld [nullAs (.ofUint32 kLimitDefault)],
    ifServerXrpld
      [withCustomError (type [.uint32]) rpcInvalidParams
        "Invalid field 'limit', not unsigned integer.",
      withCustomError (min (1 : UInt32)) rpcInvalidParams "Invalid field 'limit'."],
    ifServerClio [type [.uint32], min (1 : UInt32)]]

/-- The checks, then the bounds, then the default. -/
def serverLimitItems [Build] (kLimitMin kLimitMax kLimitDefault : UInt32) :
    List (Item UInt32) :=
  serverLimitChecks kLimitDefault ++
    [ifServerClio [clamp kLimitMin kLimitMax], defaultTo kLimitDefault]

/-- The items ask for a number before they compare. -/
@[simp] theorem limitItems_neverFault (kLimitMin kLimitMax kLimitDefault lo : UInt32) :
    NeverFault (limitItems kLimitMin kLimitMax kLimitDefault lo) := by
  simp [limitItems]

/-- Each of the servers asks for a number, with texts of its own. -/
@[simp] theorem serverLimitChecks_neverFault [Build] (kLimitDefault : UInt32) :
    NeverFault (serverLimitChecks kLimitDefault) := by
  simp [serverLimitChecks]

@[simp] theorem serverLimitItems_neverFault [Build] (kLimitMin kLimitMax kLimitDefault : UInt32) :
    NeverFault (serverLimitItems kLimitMin kLimitMax kLimitDefault) := by
  simp [serverLimitItems]

/-! ## Transaction types -/

/-- `txTypesInLowercase`. -/
def txTypesInLowercase [LibXrpl] : List Bytes :=
  LibXrpl.txFormats.map fun name => name.map Text.toLower

/-- `kTxTypeValidator`. -/
def txTypeValidator {α : Type} [LibXrpl] : Item α := customValidator fun fieldView => do
  rejectIf (!fieldView.isString) rpcInvalidParams
  let sv ← fieldView.asString
  rejectIf (!txTypesInLowercase.contains sv) rpcInvalidParams
    ("Invalid field '" ++ fieldView.key ++ "'.")

@[simp] theorem txTypeValidator_neverFaults {α : Type} [LibXrpl] :
    (txTypeValidator : Item α).NeverFaults :=
  customValidator_neverFaults fun _ _ => safe_rejectIf_bind fun hs =>
    safe_asString_bind (by simpa using hs) fun _ _ => safe_rejectIf.mono fun _ _ => trivial

/-! ## Bounds of a ledger range -/

/-- `type<int64_t>, clampAs<int32_t>`. -/
def int32BoundItems : List (Item (Option Int32)) := [type [.int64], clampAs .int32]

/-- `Int32BoundConverter`, for integers: `-1` stands for no bound. -/
def int32BoundConverter : Converter (Option Int32) where
  parse fieldView := do
    let value := (← fieldView.asInt64).toInt32
    if value = -1 then pure none else pure (some value)

/-- A bound is read behind the check for a number. -/
theorem int32Bound_neverFaults {Input : Type} {key : String}
    {member : Member Input (Option Int32)} {unguarded} :
    (field key member int32BoundItems int32BoundConverter unguarded).NeverFaults := by
  refine field_neverFaults_of_meets
    (.cons (type_meets .int64) (.cons clampAs_int32_meets .nil)) fun v hp hv => ?_
  apply (FieldView.asInt64_safe (hv hp)).bind
  intro value _
  dsimp only
  split <;> trivial

/-! ## Markers of a ledger range -/

/-- `Marker`. -/
structure Marker where
  ledger : UInt32
  seq : UInt32
  deriving DecidableEq, Repr

section

variable [Build]

/-- The two numbers of a marker. -/
def markerFields : List (FieldSpec Marker) :=
  [.mk "ledger" [required, type [.uint32]], .mk "seq" [required, type [.uint32]]]

/-- The checks of a marker. -/
def markerItems : List (Item Marker) :=
  [withCustomError (type [.object]) rpcInvalidParams "invalidMarker",
  ifType .object [section_ markerFields]]

/-- `MarkerConverter`, for objects with both numbers. -/
def markerConverter : Converter Marker where
  parse fieldView := do
    let ledger ← (fieldView.child "ledger").asUint32
    let seq ← (fieldView.child "seq").asUint32
    pure { ledger, seq }

/-- Both members of a marker are read behind the checks of the section. -/
theorem marker_neverFaults {Input : Type} {key : String} {member : Member Input Marker}
    {unguarded} : (field key member markerItems markerConverter unguarded).NeverFaults := by
  have hnumber : ItemsCheck ([required, type [.uint32]] : List (Item Marker))
      fun v => v.is .uint32 = true :=
    requiredThen_check required_checks (type_checks .uint32)
  refine field_neverFaults_of_yields (R := fun _ _ => True)
    (.of_check (.cons ((type_checks .object).withCustomError _ _)
      (.single (.ifType (.single (.section_ (.cons hnumber (.cons hnumber .nil))))))) ?_)
  rintro v hp ⟨hobject, hsection⟩
  obtain _ | ⟨hledger, _ | ⟨hseq, -⟩⟩ := (hsection (hobject hp) hp).2
  apply (FieldView.asUint32_safe hledger).bind
  intro _ _
  exact (FieldView.asUint32_safe hseq).bind fun _ _ => trivial

end

end RpcSpec.Handlers
