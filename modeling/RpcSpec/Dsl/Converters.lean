import RpcSpec.Dsl.Validators
set_option autoImplicit false

/-!
# Converters (`Converters.hpp`, `Account.hpp`, `Asset.hpp`, `DeferredTypes.hpp`)

A converter reads the value of a present field into the type of an `Input` member.
Some check what they read; the others rely on the items that ran before them.

The lemmas at the end of each section say that the converter never faults, or what its
items must have established for that.
-/

namespace RpcSpec.Dsl

open RpcSpec.Foundation XrpldError

/-- A converter with its `ValueType`. -/
structure Converter (α : Type) where
  parse : FieldView → Parsed α

/-- A converter that may be applied to any view. -/
def Converter.NeverFaults {α : Type} (conv : Converter α) : Prop :=
  ∀ v : FieldView, Safe (conv.parse v) fun _ => True

section

variable {α β : Type} {v : FieldView}

/-- The branch for strings reads one, the other branch does not. -/
theorem safe_ite_asString {rest : Bytes → Parsed β} {other : Parsed β} {Q : β → Prop}
    (hrest : ∀ text, v.value = some (.string text) → Safe (rest text) Q)
    (hother : v.isString = false → Safe other Q) :
    Safe (if v.isString then v.asString >>= rest else other) Q := by
  cases hs : v.isString with
  | true => exact safe_asString_bind hs hrest
  | false => exact hother hs

/-- `safe_ite_asString` with the branches the other way round. -/
theorem safe_ite_not_asString {rest : Bytes → Parsed β} {other : Parsed β} {Q : β → Prop}
    (hrest : ∀ text, v.value = some (.string text) → Safe (rest text) Q)
    (hother : v.isString = false → Safe other Q) :
    Safe (if !v.isString then other else v.asString >>= rest) Q := by
  cases hs : v.isString with
  | true => exact safe_asString_bind hs hrest
  | false => exact hother hs

/-- A refusal is no fault. -/
theorem safe_orReject_true {decoded : Option α} {code : CombinedError} {message : String} :
    Safe (orReject decoded code message) fun _ => True :=
  safe_orReject.mono fun _ _ => trivial

end

variable [Build] [LibXrpl]

/-! ## Accounts -/

/-- `AccountIdConverter`. -/
def accountId : Converter AccountID where
  parse fieldView :=
    if !fieldView.isString then
      throw (unexpected rpcInvalidParams (notStringFieldMessage fieldView.key))
    else do
      let text ← fieldView.asString
      if kIsXrpldBuild then orReject (LibXrpl.parseBase58AccountID text) rpcActMalformed
      else orReject (accountFromStringStrict text) rpcActMalformed (fieldView.key ++ "Malformed")

/-- It asks for a string itself. -/
@[simp] theorem accountId_neverFaults : accountId.NeverFaults := fun _ =>
  safe_ite_not_asString (fun _ _ => by split <;> exact safe_orReject_true) fun _ => trivial

/-- `AccountIdActMalformedConverter`. -/
def accountIdActMalformed : Converter AccountID where
  parse fieldView :=
    if fieldView.isString then do
      let text ← fieldView.asString
      orReject (accountFromStringStrict text) rpcActMalformed
    else throw (unexpected rpcActMalformed)

omit [Build] in
/-- It asks for a string itself. -/
@[simp] theorem accountIdActMalformed_neverFaults : accountIdActMalformed.NeverFaults := fun _ =>
  safe_ite_asString (fun _ _ => safe_orReject_true) fun _ => trivial

/-- `AccountIdVecConverter`, for arrays of accounts. -/
def asAccountIdVec : Converter (Option (List AccountID)) where
  parse fieldView := do
    let result ← fieldView.elements.mapM fun elem => do
      accountFromValidated (← elem.asString)
    pure (some result)

omit [Build] in
/-- Each element must be one the decoder reads. -/
theorem asAccountIdVec_safe {v : FieldView}
    (h : ∀ elem ∈ v.elements, elem.HasString fun text => (accountFromStringStrict text).isSome) :
    Safe (asAccountIdVec.parse v) fun _ => True := by
  refine (Safe.mapM (P := fun _ _ => True) fun elem helem => ?_).bind fun _ _ => trivial
  apply (h elem helem).asString_bind
  intro text _ htext
  exact (valueOrLogicError_safe htext).mono fun _ _ => trivial

/-! ## Hexadecimal text -/

/-- `HexConverterBase`: the text is checked and turned into a value. -/
def hexConverter {β : Type} (bits : Nat) (ofParsed : Bytes → BitVec bits → β) :
    Converter β where
  parse fieldView :=
    if !fieldView.isString then
      throw (unexpected kMalformedField (notStringFieldMessage fieldView.key))
    else do
      let text ← fieldView.asString
      let parsed ← orReject (parseHexCString bits text) kMalformedField
        (malformedFieldMessage fieldView.key)
      pure (ofParsed text parsed)

/-- All hex converters ask for a string themselves. -/
theorem hexConverter_neverFaults {β : Type} {bits : Nat}
    {ofParsed : Bytes → BitVec bits → β} : (hexConverter bits ofParsed).NeverFaults := fun _ =>
  safe_ite_not_asString (fun _ _ => safe_orReject_bind fun _ _ => trivial) fun _ => trivial

/-- `LedgerHashConverter`: the text itself. -/
def ledgerHashHex : Converter Bytes := hexConverter 256 fun text _ => text

/-- A hash. -/
def asUint256 : Converter Uint256 := hexConverter 256 fun _ parsed => parsed

/-- The id of an issuance. -/
def asUint192 : Converter Uint192 := hexConverter 192 fun _ parsed => parsed

@[simp] theorem asUint256_neverFaults : asUint256.NeverFaults := hexConverter_neverFaults

@[simp] theorem asUint192_neverFaults : asUint192.NeverFaults := hexConverter_neverFaults

/-- `Uint192VecConverter`, for arrays of validated hashes. -/
def asUint192Vec : Converter (Option (List Uint192)) where
  parse fieldView := do
    let result ← fieldView.elements.mapM fun elem => do
      uint192FromValidated (← elem.asString)
    pure (some result)

omit [Build] in
/-- Each element must be one the parser reads. -/
theorem asUint192Vec_safe {v : FieldView}
    (h : ∀ elem ∈ v.elements, elem.HasString fun text => (parseHexCString 192 text).isSome) :
    Safe (asUint192Vec.parse v) fun _ => True := by
  refine (Safe.mapM (P := fun _ _ => True) fun elem helem => ?_).bind fun _ _ => trivial
  apply (h elem helem).asString_bind
  intro text _ htext
  exact (valueOrLogicError_safe htext).mono fun _ _ => trivial

/-! ## Booleans, numbers and strings -/

/-- `JsonBool`. -/
abbrev JsonBool := Bool

/-- Whether a `double` with this bit pattern differs from zero. -/
def doubleIsNonzero (bits : UInt64) : Bool := bits <<< 1 ≠ 0

/-- `JsonBoolConverterT<Strict>`. -/
def jsonBoolConverter (strict : Bool) : Converter JsonBool where
  parse fieldView :=
    if strict then do
      rejectIf (!fieldView.isBool) rpcInvalidParams
      fieldView.asBool
    else if fieldView.isBool then fieldView.asBool
    else if fieldView.isUint32 then (· != 0) <$> fieldView.asUint32
    else if fieldView.isInt64 then (· != 0) <$> fieldView.asInt64
    else if fieldView.isDouble then doubleIsNonzero <$> fieldView.asDouble
    else if fieldView.isString then do
      let text ← fieldView.asString
      pure (!text.isEmpty && text.head? != some 0)
    else if fieldView.isArray then pure (fieldView.arraySize != 0)
    else if fieldView.isObject then pure (fieldView.objectSize != 0)
    else pure false

/-- Coerces. -/
def jsonBool : Converter JsonBool := jsonBoolConverter false

/-- Takes booleans alone. -/
def jsonBoolStrict : Converter JsonBool := jsonBoolConverter true

omit [Build] [LibXrpl] in
/-- Whatever the value is, there is an accessor for it. -/
@[simp] theorem jsonBoolConverter_neverFaults (strict : Bool) :
    (jsonBoolConverter strict).NeverFaults := by
  intro v
  have hok {β : Type} {x : Parsed β} {Q : β → Prop} (h : Safe x Q) : Safe x fun _ => True :=
    h.mono fun _ _ => trivial
  cases strict with
  | true => exact safe_rejectIf_bind fun h => hok (FieldView.asBool_safe (by simpa using h))
  | false =>
      simp only [jsonBoolConverter, Bool.false_eq_true, if_false]
      -- one case for each kind the code asks for, in its order
      split
      · exact hok (FieldView.asBool_safe ‹_›)
      split
      · exact (hok (FieldView.asUint32_safe ‹_›)).map
      split
      · exact (hok (FieldView.asInt64_safe ‹_›)).map
      split
      · exact (hok (FieldView.asDouble_safe ‹_›)).map
      split
      · exact safe_asString_bind ‹_› fun _ _ => trivial
      split
      · trivial
      split <;> trivial

omit [Build] [LibXrpl] in
@[simp] theorem jsonBool_neverFaults : jsonBool.NeverFaults := jsonBoolConverter_neverFaults _

omit [Build] [LibXrpl] in
@[simp] theorem jsonBoolStrict_neverFaults : jsonBoolStrict.NeverFaults :=
  jsonBoolConverter_neverFaults _

/-- `Uint32Converter`. -/
def asUint32 : Converter UInt32 where
  parse fieldView := do
    rejectIf (!fieldView.isUint32) rpcInvalidParams
    fieldView.asUint32

omit [Build] [LibXrpl] in
/-- It asks for a number itself. -/
@[simp] theorem asUint32_neverFaults : asUint32.NeverFaults := fun _ =>
  safe_rejectIf_bind fun h => FieldView.asUint32_safe (by simpa using h)

/-- `StringConverter`. -/
def asString : Converter Bytes where
  parse fieldView := do
    rejectIf (!fieldView.isString) rpcInvalidParams
    fieldView.asString

omit [Build] [LibXrpl] in
/-- It asks for a string itself. -/
@[simp] theorem asString_neverFaults : asString.NeverFaults := fun _ =>
  safe_rejectIf_bind fun h =>
    (FieldView.asString_safe (by simpa using h)).mono fun _ _ => trivial

/-! ## Account markers -/

/-- How a marker the parser refuses is reported on xrpld. -/
inductive MalformedMarker where
  | namesField
  | invalidParams
  deriving DecidableEq, Repr

namespace AccountMarkerStrConverter

/-- The text of the hint that is parsed: on xrpld it ends at the next comma and may
start with a plus sign. -/
def hintText (hintPart : Bytes) : Bytes :=
  if kIsXrpldBuild then
    let hint := hintPart.takeWhile (· ≠ 0x2c)
    if hint.head? = some 0x2b then hint.tail else hint
  else hintPart

/-- The failure of a string that is no marker. -/
def malformed (onXrpld : MalformedMarker) (key : String) : CombinedError × String :=
  if kIsXrpldBuild && onXrpld = .invalidParams then (rpcInvalidParams, "")
  else (kMalformedField, malformedCursorMessage key)

end AccountMarkerStrConverter

open AccountMarkerStrConverter in
/-- `AccountMarkerStrConverterT<OnXrpld>`. -/
def accountMarkerStrConverter (onXrpld : MalformedMarker) : Converter Bytes where
  parse fieldView :=
    if !fieldView.isString then
      throw (unexpected rpcInvalidParams
        (if kIsXrpldBuild then expectedFieldMessage fieldView.key "string"
          else notStringFieldMessage fieldView.key))
    else do
      let text ← fieldView.asString
      let (code, message) := malformed onXrpld fieldView.key
      let (hexPart, hintPart) ← orReject (splitAtComma text) code message
      rejectIf (parseHexCString 256 hexPart).isNone code message
      rejectIf (Text.parseWhole Text.uint64Max (hintText hintPart)).isNone code message
      pure text

/-- A malformed marker is reported with its field. -/
def accountMarkerStr : Converter Bytes := accountMarkerStrConverter .namesField

/-- A malformed marker is reported in general. -/
def accountMarkerStrInvalidParams : Converter Bytes := accountMarkerStrConverter .invalidParams

/-- It asks for a string itself. -/
theorem accountMarkerStrConverter_neverFaults (onXrpld : MalformedMarker) :
    (accountMarkerStrConverter onXrpld).NeverFaults := fun _ =>
  safe_ite_not_asString
    (fun _ _ => safe_orReject_bind fun _ _ =>
      safe_rejectIf_bind fun _ => safe_rejectIf_bind fun _ => trivial)
    fun _ => trivial

@[simp] theorem accountMarkerStr_neverFaults : accountMarkerStr.NeverFaults :=
  accountMarkerStrConverter_neverFaults _

@[simp] theorem accountMarkerStrInvalidParams_neverFaults :
    accountMarkerStrInvalidParams.NeverFaults := accountMarkerStrConverter_neverFaults _

/-! ## Deferred values -/

/-- `DeferredError`. -/
inductive DeferredError where
  | missing
  | malformed
  | invalid
  deriving DecidableEq, Repr

/-- `Deferred<T>`: a value, or why there is none, for the handler to report. -/
abbrev Deferred (α : Type) := Except DeferredError α

/-- An account, or what is wrong with it. -/
abbrev DeferredAccountId := Deferred AccountID

/-- An asset, or what is wrong with it. -/
abbrev DeferredAsset := Deferred Asset

/-- `detail::AbsentValue<T>`: the type of a member that may hold no `T`, and what it
holds when nothing was given. -/
class AbsentValue (T : Type) (Holder : outParam Type) where
  get : Holder
  of : T → Holder

instance (priority := low) {T : Type} : AbsentValue T (Option T) := ⟨none, some⟩

instance {T : Type} : AbsentValue (Deferred T) (Deferred T) := ⟨.error .missing, id⟩

/-- `EmptyAsAbsentConverter`. -/
def emptyAsAbsent {T Holder : Type} [AbsentValue T Holder] (conv : Converter T) :
    Converter Holder where
  parse fieldView :=
    let convert := AbsentValue.of <$> conv.parse fieldView
    if kIsXrpldBuild && fieldView.isString then do
      let text ← fieldView.asString
      if text.isEmpty then pure (AbsentValue.get T) else convert
    else convert

omit [LibXrpl] in
/-- The empty string is told apart before the converter is asked. -/
@[simp] theorem emptyAsAbsent_neverFaults {T Holder : Type} [AbsentValue T Holder]
    {conv : Converter T} (h : conv.NeverFaults) : (emptyAsAbsent conv).NeverFaults := by
  intro v
  unfold emptyAsAbsent
  dsimp only
  split
  · rename_i hs
    simp only [Bool.and_eq_true] at hs
    apply safe_asString_bind hs.2
    intro text _
    split
    · trivial
    · exact (h v).map
  · exact (h v).map

/-- `NonStringAccount`: what xrpld makes of an account that is not a string. -/
inductive NonStringAccount where
  | fails
  | deferred
  deriving DecidableEq, Repr

/-- `DeferredAccountIdConverter`. -/
def deferredAccount (clioConv : Converter AccountID) (nonString : NonStringAccount) :
    Converter DeferredAccountId where
  parse fieldView :=
    if kIsXrpldBuild then
      match accountId.parse fieldView with
      | .ok id => pure (.ok id)
      | .error (.fault why) => throw (.fault why)
      | .error (.error status) =>
          if fieldView.isString || nonString = .deferred then pure (.error .malformed)
          else throw (.error status)
    else .ok <$> clioConv.parse fieldView

/-- What is no string is an error. -/
def deferredAccountId : Converter DeferredAccountId := deferredAccount accountId .fails

/-- What is no string is deferred too. -/
def deferredAccountIdActMalformed : Converter DeferredAccountId :=
  deferredAccount accountIdActMalformed .deferred

/-- On Clio it is the converter it wraps, on xrpld it asks for a string itself. -/
theorem deferredAccount_neverFaults {clioConv : Converter AccountID}
    {nonString : NonStringAccount} (h : clioConv.NeverFaults) :
    (deferredAccount clioConv nonString).NeverFaults := by
  intro v
  unfold deferredAccount
  dsimp only
  split
  · rcases Safe.iff_ok_or_error.mp (accountId_neverFaults v) with ⟨id, hid, -⟩ | ⟨status, hs⟩
    · simp [hid]
    · rw [hs]
      dsimp only
      split <;> trivial
  · exact (h v).map

@[simp] theorem deferredAccountId_neverFaults : deferredAccountId.NeverFaults :=
  deferredAccount_neverFaults accountId_neverFaults

@[simp] theorem deferredAccountIdActMalformed_neverFaults :
    deferredAccountIdActMalformed.NeverFaults :=
  deferredAccount_neverFaults accountIdActMalformed_neverFaults

/-! ## Assets -/

/-- `detail::assetFromView`. -/
def assetFromView (fieldView : FieldView) : Parsed DeferredAsset := do
  let malformed : Parsed DeferredAsset := pure (.error .malformed)
  if !fieldView.isObject then malformed else
  let currencyView := fieldView.child "currency"
  let mptView := fieldView.child "mpt_issuance_id"
  let issuerView := fieldView.child "issuer"
  if currencyView.present then
    if mptView.present || !currencyView.isString then malformed else
    match LibXrpl.toCurrency (← currencyView.asString) with
    | none => malformed
    | some currency =>
        if currency = Xrpl.badCurrency || currency = Xrpl.noCurrency then malformed else
        if Xrpl.isXRP currency then
          if issuerView.present && !issuerView.isNull then malformed
          else pure (.ok (.issue Xrpl.xrpIssue))
        else
          if !issuerView.isString then malformed else
          match LibXrpl.parseBase58AccountID (← issuerView.asString) with
          | none => malformed
          | some issuer =>
              if issuer = Xrpl.noAccount || issuer = Xrpl.xrpAccount then malformed
              else pure (.ok (.issue ⟨currency, issuer⟩))
  else
    if !mptView.present || issuerView.present || !mptView.isString then malformed else
    match LibXrpl.parseHex 192 (← mptView.asString) with
    | none => malformed
    | some id => pure (.ok (.mptIssue id))

omit [Build] in
/-- Each member is asked for its kind before it is read. -/
theorem assetFromView_safe (v : FieldView) : Safe (assetFromView v) fun _ => True := by
  unfold assetFromView
  split
  · trivial
  dsimp only
  split
  · split
    · trivial
    rename_i hcurrency
    simp only [Bool.or_eq_true, Bool.not_eq_true', not_or, Bool.not_eq_false] at hcurrency
    apply safe_asString_bind hcurrency.2
    intro text _
    split
    · trivial
    split
    · trivial
    split
    · split <;> trivial
    split
    · trivial
    rename_i hissuer
    apply safe_asString_bind (by simpa using hissuer)
    intro text _
    split
    · trivial
    split <;> trivial
  · split
    · trivial
    rename_i hmpt
    simp only [Bool.or_eq_true, Bool.not_eq_true', not_or, Bool.not_eq_false] at hmpt
    apply safe_asString_bind hmpt.2
    intro text _
    split <;> trivial

/-- `DeferredAssetConverter`. -/
def deferredAsset (clioConv : Converter Issue) : Converter DeferredAsset where
  parse fieldView :=
    if kIsXrpldBuild then assetFromView fieldView
    else (fun issue => .ok (.issue issue)) <$> clioConv.parse fieldView

/-- On Clio the wrapped converter decides. -/
theorem deferredAsset_safe {clioConv : Converter Issue} {v : FieldView}
    (h : kIsClioBuild = true → Safe (clioConv.parse v) fun _ => True) :
    Safe ((deferredAsset clioConv).parse v) fun _ => True := by
  unfold deferredAsset
  dsimp only
  split
  · exact assetFromView_safe v
  · rename_i hclio
    exact (h (by simpa [kIsXrpldBuild] using hclio)).map

end RpcSpec.Dsl
