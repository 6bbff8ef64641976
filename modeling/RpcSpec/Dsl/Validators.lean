import RpcSpec.Dsl.FieldSpec
import RpcSpec.Dsl.LedgerTypes
set_option autoImplicit false

/-!
# Requirements and modifiers (`rpcspec/Validators.hpp`, `rpcspec/Aliases.hpp`)

Each validator keeps its source name and its `verify` or `modify`; next to it
stands what a view it has accepted looks like.  That is all the rest of the
development uses of it.

Each section ends with a `verify_safe` for its validators: they look at a view only
through accessors that fit it, and what they accept has the form the converter relies on.
-/

namespace RpcSpec.Dsl

open RpcSpec.Foundation XrpldError

variable [Build] [LibXrpl] {α : Type}

/-- `if (not fieldView.present()) return {};` -/
def ifPresent (fieldView : FieldView) (body : MaybeError) : MaybeError :=
  if !fieldView.present then pure () else body

omit [Build] [LibXrpl] in
/-- What is checked of a present field holds where there is one. -/
theorem safe_ifPresent {v : FieldView} {body : MaybeError} {Q : Prop}
    (h : v.present = true → Safe body fun _ => Q) :
    Safe (ifPresent v body) fun _ => v.present = true → Q := by
  unfold ifPresent
  cases hp : v.present with
  | true => exact (h hp).mono fun _ hQ _ => hQ
  | false => simp

/-- The view holds a string, of which `P` holds. -/
def FieldView.HasString (v : FieldView) (P : Bytes → Prop) : Prop :=
  ∃ text, v.value = some (.string text) ∧ P text

omit [Build] [LibXrpl] in
/-- A view with a string in it. -/
theorem FieldView.HasString.isString {v : FieldView} {P : Bytes → Prop} (h : v.HasString P) :
    v.isString = true := by
  obtain ⟨text, hv, -⟩ := h
  simp [FieldView.isString, hv]

omit [Build] [LibXrpl] in
/-- Reading a string that is known to be one. -/
theorem FieldView.HasString.asString_bind {v : FieldView} {P : Bytes → Prop} {β : Type}
    {rest : Bytes → Parsed β} {Q : β → Prop} (h : v.HasString P)
    (hrest : ∀ text, v.value = some (.string text) → P text → Safe (rest text) Q) :
    Safe (v.asString >>= rest) Q := by
  obtain ⟨text, hv, htext⟩ := h
  apply (FieldView.asString_safe (by simp [FieldView.isString, hv])).bind
  intro text' hv'
  obtain rfl : text = text' := by simpa [hv] using hv'
  exact hrest text hv htext

omit [Build] [LibXrpl] in
/-- Reading after `isString` has been asked. -/
theorem safe_asString_bind {v : FieldView} {β : Type} {rest : Bytes → Parsed β}
    {Q : β → Prop} (h : v.isString = true)
    (hrest : ∀ text, v.value = some (.string text) → Safe (rest text) Q) :
    Safe (v.asString >>= rest) Q :=
  (FieldView.asString_safe h).bind hrest

/-! ## Presence and type -/

namespace Required

/-- The one check that fails where there is no field. -/
def verify (fieldView : FieldView) : MaybeError :=
  rejectIf (!fieldView.present) rpcInvalidParams (missingFieldMessage fieldView.key)

omit [LibXrpl] in
/-- After it there is a field. -/
theorem verify_safe (v : FieldView) : Safe (verify v) fun _ => v.present = true :=
  safe_rejectIf.mono fun _ h => by simpa using h

end Required

/-- The field must be there. -/
def required : Item α := .requirement Required.verify

namespace TypeIs

/-- `Type<T…>::verify`. -/
def verify (types : List JsonType) (fieldView : FieldView) : MaybeError :=
  rejectIf (fieldView.present && !types.any fieldView.is) rpcInvalidParams

omit [Build] [LibXrpl] in
/-- After it a field that is there is of one of the types. -/
theorem verify_safe (types : List JsonType) (v : FieldView) :
    Safe (verify types v) fun _ => v.present = true → ∃ t ∈ types, v.is t = true :=
  safe_rejectIf.mono fun _ h hp => by simpa [hp] using h

end TypeIs

/-- `type<T…>`. -/
def type (types : List JsonType) : Item α := .requirement (TypeIs.verify types)

/-- `MinArrayLength`. -/
def minArrayLength (bound : Nat) : Item α := .requirement fun fieldView =>
  rejectIf (fieldView.present && fieldView.isArray && fieldView.arraySize < bound)
    rpcInvalidParams

/-- `MaxArrayLength`. -/
def maxArrayLength (bound : Nat) : Item α := .requirement fun fieldView =>
  rejectIf (fieldView.present && fieldView.isArray && bound < fieldView.arraySize)
    rpcInvalidParams

/-! ## Numbers -/

/-- The types a numeric bound may have, with the accessor and the setter of each.
No spec bounds a `double`. -/
class SomeNumericBound (T : Type) where
  type : JsonType
  as : FieldView → Parsed T
  toJson : T → Json
  as_safe : ∀ v : FieldView, v.is type = true → Safe (as v) fun _ => True

instance : SomeNumericBound Int64 where
  type := .int64
  as := FieldView.asInt64
  toJson := .int64
  as_safe _ h := FieldView.asInt64_safe h

instance : SomeNumericBound UInt32 where
  type := .uint32
  as := FieldView.asUint32
  toJson := .ofUint32
  as_safe _ h := FieldView.asUint32_safe h

section Numeric

variable {T : Type} [SomeNumericBound T] [LT T] [DecidableLT T]

/-- `detail::numericValue<T>`. -/
def numericValue (T : Type) [SomeNumericBound T] (fieldView : FieldView) : Parsed (Option T) :=
  if !fieldView.present || !fieldView.is (SomeNumericBound.type T) then pure none
  else some <$> SomeNumericBound.as fieldView

omit [Build] [LibXrpl] [LT T] [DecidableLT T] in
/-- A number is read only where there is a field. -/
theorem numericValue_safe (v : FieldView) :
    Safe (numericValue T v) fun value => value.isSome = true → v.present = true := by
  unfold numericValue
  split
  · simp
  · rename_i h
    simp only [Bool.or_eq_true, Bool.not_eq_true', not_or, Bool.not_eq_false] at h
    exact Safe.map ((SomeNumericBound.as_safe v h.2).mono fun _ _ _ => h.1)

namespace Min

/-- No number, no objection. -/
def verify (bound : T) (fieldView : FieldView) : MaybeError := do
  let value ← numericValue T fieldView
  rejectIf (value.any (· < bound)) rpcInvalidParams

end Min

/-- At least the bound. -/
def min (value : T) : Item α := .requirement (Min.verify value)

namespace Between

/-- No number, no objection. -/
def verify (lo hi : T) (fieldView : FieldView) : MaybeError := do
  let value ← numericValue T fieldView
  rejectIf (value.any fun n => n < lo || hi < n) rpcInvalidParams

end Between

/-- Within the bounds, both included. -/
def between (lo hi : T) : Item α := .requirement (Between.verify lo hi)

/-- `std::min`. -/
def stdMin (n m : T) : T := if m < n then m else n

/-- `std::clamp`. -/
def stdClamp (n lo hi : T) : T := if n < lo then lo else if hi < n then hi else n

namespace Clamp

/-- A number is moved to the nearer bound, anything else left alone. -/
def modify (lo hi : T) : EStateM Failure FieldView Unit :=
  FieldView.rewriteBy fun fieldView => do
    let value ← numericValue T fieldView
    pure (value.map fun n => SomeNumericBound.toJson (stdClamp n lo hi))

end Clamp

/-- The bounds, applied in place. -/
def clamp (lo hi : T) : Item α := .modifier (Clamp.modify lo hi)

end Numeric

/-- An integral type other than `bool`, by its width and signedness. -/
structure IntegralType where
  bits : Nat
  signed : Bool
  deriving DecidableEq, Repr

namespace ClampAs

/-- `static_cast<int64_t>(std::numeric_limits<Target>::max())`. -/
def kHi (target : IntegralType) : Int64 :=
  Int64.ofInt (if target.signed then 2 ^ (target.bits - 1) - 1 else 2 ^ target.bits - 1)

/-- `static_cast<int64_t>(std::numeric_limits<Target>::min())`. -/
def kLo (target : IntegralType) : Int64 :=
  Int64.ofInt (if target.signed then -2 ^ (target.bits - 1) else 0)

/-- The number is written back in the storage of the target type. -/
def modify (target : IntegralType) : EStateM Failure FieldView Unit :=
  FieldView.rewriteBy fun fieldView => do
    if !fieldView.present then pure none
    else if fieldView.isInt64 then
      let n ← fieldView.asInt64
      let value := stdClamp n (kLo target) (kHi target)
      if !target.signed then
        pure (some (.ofUint32 (if value < 0 then 0 else value).toUInt64.toUInt32))
      else
        pure (some (.int64 value))
    else if fieldView.isUint32 then
      let n ← fieldView.asUint32
      let value := stdMin n.toUInt64.toInt64 (kHi target)
      if !target.signed then pure (some (.ofUint32 value.toUInt64.toUInt32))
      else pure (some (.int64 value))
    else pure none

end ClampAs

/-- The range of a type, applied in place. -/
def clampAs (target : IntegralType) : Item α := .modifier (ClampAs.modify target)

/-- `int32_t`. -/
def IntegralType.int32 : IntegralType := ⟨32, true⟩

/-! ## Texts -/

omit [Build] [LibXrpl] in
/-- A value that is not a string is refused, and then a string that is bad. -/
theorem safe_textCheck {v : FieldView} {code code' : CombinedError} {message message' : String}
    {bad : Bytes → Bool} {P : Bytes → Prop} (h : ∀ text, bad text = false → P text) :
    Safe (do
      rejectIf (!v.isString) code message
      let text ← v.asString
      rejectIf (bad text) code' message') fun _ => v.HasString P := by
  refine safe_rejectIf_bind fun hs => safe_asString_bind (by simpa using hs) fun text hv => ?_
  exact safe_rejectIf.mono fun _ hbad => ⟨text, hv, h text hbad⟩

namespace AccountFormat

/-- `AccountFormat`: an account in any of its spellings. -/
def verify (fieldView : FieldView) : MaybeError :=
  ifPresent fieldView do
    rejectIf (!fieldView.isString) rpcInvalidParams (fieldView.key ++ "NotString")
    let text ← fieldView.asString
    rejectIf (accountFromStringStrict text).isNone rpcActMalformed (fieldView.key ++ "Malformed")

omit [Build] in
/-- After it the decoder reads the account. -/
theorem verify_safe (v : FieldView) : Safe (verify v) fun _ =>
    v.present = true → v.HasString fun text => (accountFromStringStrict text).isSome := by
  refine safe_ifPresent fun _ => safe_textCheck fun text h => ?_
  simpa [Option.isSome_iff_ne_none] using h

end AccountFormat

/-- The item of the validator. -/
def account : Item α := .requirement AccountFormat.verify

namespace TimeFormatValidator

/-- `TimeFormatValidator`: a time in the format; it is read to see. -/
def verify (format : List TimeDirective) (fieldView : FieldView) : MaybeError :=
  ifPresent fieldView do
    rejectIf (!fieldView.isString) rpcInvalidParams
    let text ← fieldView.asString
    let timePoint ← systemTpFromUtcStr text format
    rejectIf timePoint.isNone rpcInvalidParams

end TimeFormatValidator

/-- The item of the validator. -/
def timeFormat (format : List TimeDirective) : Item α :=
  .requirement (TimeFormatValidator.verify format)

namespace HexStringValidator

/-- `HexStringValidator`: what the C string of the text spells. -/
def verify (bits : Nat) (fieldView : FieldView) : MaybeError :=
  ifPresent fieldView do
    rejectIf (!fieldView.isString) kMalformedField (notStringFieldMessage fieldView.key)
    let text ← fieldView.asString
    rejectIf (parseHexCString bits text).isNone kMalformedField
      (malformedFieldMessage fieldView.key)

/-- After it the parser reads that C string. -/
theorem verify_safe (bits : Nat) (v : FieldView) : Safe (verify bits v) fun _ =>
    v.present = true → v.HasString fun text => (parseHexCString bits text).isSome := by
  refine safe_ifPresent fun _ => safe_textCheck fun text h => ?_
  simpa [Option.isSome_iff_ne_none] using h

end HexStringValidator

/-- A hash. -/
def uint256Hex : Item α := .requirement (HexStringValidator.verify 256)

/-- The id of an issuance. -/
def uint192Hex : Item α := .requirement (HexStringValidator.verify 192)

namespace AccountBase58Validator

/-- `AccountBase58Validator`: an address, and not that of the zero account. -/
def verify (fieldView : FieldView) : MaybeError :=
  ifPresent fieldView do
    rejectIf (!fieldView.isString) rpcInvalidParams (fieldView.key ++ "NotString")
    let text ← fieldView.asString
    let account := parseBase58Wrapper LibXrpl.parseBase58AccountID text
    rejectIf (!account.any (· ≠ 0)) kMalformedAddress

/-- A base58 address other than that of the zero account. -/
def Accepts (text : Bytes) : Prop :=
  ∃ id, parseBase58Wrapper LibXrpl.parseBase58AccountID text = some id ∧ id ≠ 0

/-- After it the decoder reads the address. -/
theorem verify_safe (v : FieldView) :
    Safe (verify v) fun _ => v.present = true → v.HasString Accepts := by
  refine safe_ifPresent fun _ => safe_textCheck fun text h => ?_
  simpa [Option.any_eq_true, Accepts] using h

end AccountBase58Validator

/-- The item of the validator. -/
def accountBase58 : Item α := .requirement AccountBase58Validator.verify

/-! ## Currencies and issuers -/

namespace CurrencyValidator

/-- `CurrencyValidator`: the empty text has an error of its own. -/
def verify (fieldView : FieldView) : MaybeError :=
  ifPresent fieldView do
    rejectIf (!fieldView.isString) rpcInvalidParams (fieldView.key ++ "NotString")
    let text ← fieldView.asString
    rejectIf text.isEmpty rpcInvalidParams (fieldView.key ++ "IsEmpty")
    rejectIf (LibXrpl.toCurrency text).isNone kMalformedCurrency "malformedCurrency"

/-- After it `toCurrency` reads the text. -/
theorem verify_safe (v : FieldView) : Safe (verify v) fun _ =>
    v.present = true → v.HasString fun text => text ≠ [] ∧ (LibXrpl.toCurrency text).isSome := by
  refine safe_ifPresent fun _ => safe_rejectIf_bind fun hs => ?_
  refine safe_asString_bind (by simpa using hs) fun text hv => safe_rejectIf_bind fun he => ?_
  refine safe_rejectIf.mono fun _ h => ⟨text, hv, by simpa using he, ?_⟩
  simpa [Option.isSome_iff_ne_none] using h

end CurrencyValidator

/-- The item of the validator. -/
def currency : Item α := .requirement CurrencyValidator.verify

namespace StrictCurrencyValidator

/-- `StrictCurrencyValidator`: two of the currencies are none. -/
def verify (fieldView : FieldView) : MaybeError := do
  CurrencyValidator.verify fieldView
  ifPresent fieldView do
    let text ← fieldView.asString
    let decoded := LibXrpl.toCurrency text
    rejectIf (decoded.all fun c => c = Xrpl.badCurrency || c = Xrpl.noCurrency)
      kMalformedCurrency "malformedCurrency"

/-- After it the currency is neither of the two. -/
theorem verify_safe (v : FieldView) : Safe (verify v) fun _ =>
    v.present = true → v.HasString fun text => ∃ c, LibXrpl.toCurrency text = some c ∧
      c ≠ Xrpl.badCurrency ∧ c ≠ Xrpl.noCurrency := by
  apply (CurrencyValidator.verify_safe v).bind
  intro _ hcurrency
  refine safe_ifPresent fun hp => (hcurrency hp).asString_bind fun text hv htext => ?_
  refine safe_rejectIf.mono fun _ h => ⟨text, hv, ?_⟩
  obtain ⟨c, hc⟩ := Option.isSome_iff_exists.mp htext.2
  exact ⟨c, hc, by simpa [hc] using h⟩

end StrictCurrencyValidator

/-- The item of the validator. -/
def strictCurrency : Item α := .requirement StrictCurrencyValidator.verify

namespace IssuerValidator

/-- `IssuerValidator`: an issuer other than account one. -/
def verify (fieldView : FieldView) : MaybeError :=
  ifPresent fieldView do
    rejectIf (!fieldView.isString) rpcInvalidParams (fieldView.key ++ "NotString")
    let text ← fieldView.asString
    let issuer ← orReject (LibXrpl.toIssuer text) rpcInvalidParams
      ("Invalid field '" ++ fieldView.key ++ "', bad issuer.")
    rejectIf (issuer = Xrpl.noAccount) rpcInvalidParams
      ("Invalid field '" ++ fieldView.key ++ "', bad issuer account one.")

omit [Build] in
/-- After it `toIssuer` reads the text. -/
theorem verify_safe (v : FieldView) : Safe (verify v) fun _ =>
    v.present = true → v.HasString fun text =>
      ∃ id, LibXrpl.toIssuer text = some id ∧ id ≠ Xrpl.noAccount := by
  refine safe_ifPresent fun _ => safe_rejectIf_bind fun hs => ?_
  apply safe_asString_bind (by simpa using hs)
  intro text hv
  refine safe_orReject_bind fun id hid => safe_rejectIf.mono fun _ h => ?_
  exact ⟨text, hv, id, hid, by simpa using h⟩

end IssuerValidator

/-- The item of the validator. -/
def issuer : Item α := .requirement IssuerValidator.verify

namespace CurrencyIssueValidator

/-- `CurrencyIssueValidator`: XRP has no issuer, all else must have one. -/
def verify (fieldView : FieldView) : MaybeError :=
  ifPresent fieldView do
    rejectIf (!fieldView.isObject) rpcInvalidParams (fieldView.key ++ "NotObject")
    let currView := fieldView.child "currency"
    rejectIf (!currView.present || !currView.isString) kMalformedRequest
    let currency ← orReject (LibXrpl.toCurrency (← currView.asString)) kMalformedRequest
    let issuerView := fieldView.child "issuer"
    if Xrpl.isXRP currency then
      rejectIf issuerView.present kMalformedRequest
    else do
      rejectIf (!issuerView.present || !issuerView.isString) kMalformedRequest
      let text ← issuerView.asString
      rejectIf (LibXrpl.toIssuer text).isNone kMalformedRequest

/-- An object that names a currency and, unless that is XRP, an issuer. -/
def Accepts (v : FieldView) : Prop :=
  v.isObject = true ∧ (v.child "currency").HasString fun text =>
    ∃ currency, LibXrpl.toCurrency text = some currency ∧
      if Xrpl.isXRP currency then (v.child "issuer").present = false
      else (v.child "issuer").HasString fun text => (LibXrpl.toIssuer text).isSome

/-- After it the issue can be read. -/
theorem verify_safe (v : FieldView) :
    Safe (verify v) fun _ => v.present = true → Accepts v := by
  refine safe_ifPresent fun _ => safe_rejectIf_bind fun hobject => ?_
  apply safe_rejectIf_bind
  intro hcurr
  simp only [Bool.or_eq_false_iff, Bool.not_eq_eq_eq_not, Bool.not_false] at hcurr hobject
  refine safe_asString_bind hcurr.2 fun text hv => safe_orReject_bind fun currency hc => ?_
  have haccepts (h : if Xrpl.isXRP currency then (v.child "issuer").present = false
      else (v.child "issuer").HasString fun text => (LibXrpl.toIssuer text).isSome) :
      Accepts v := ⟨hobject, text, hv, currency, hc, h⟩
  cases hxrp : Xrpl.isXRP currency with
  | true =>
      simp only [if_true]
      exact safe_rejectIf.mono fun _ h => haccepts (by simpa [hxrp] using h)
  | false =>
      simp only [Bool.false_eq_true, if_false]
      apply safe_rejectIf_bind
      intro hissuer
      simp only [Bool.or_eq_false_iff, Bool.not_eq_eq_eq_not, Bool.not_false] at hissuer
      refine safe_asString_bind hissuer.2 fun text hv => safe_rejectIf.mono fun _ h => ?_
      refine haccepts ?_
      simp only [hxrp, Bool.false_eq_true, if_false]
      exact ⟨text, hv, by simpa [Option.isSome_iff_ne_none] using h⟩

end CurrencyIssueValidator

/-- The item of the validator. -/
def currencyIssue : Item α := .requirement CurrencyIssueValidator.verify

/-! ## Numbers given as text -/

namespace ToNumberModifier

/-- The number a string is replaced by. -/
def newValue (fieldView : FieldView) : Parsed (Option Json) :=
  if !fieldView.present || !fieldView.isString then pure none
  else do
    let text ← fieldView.asString
    rejectIf (text.contains 0x2e) rpcInvalidParams
    match Text.fromCharsInt64 text with
    | some (val, []) => do
        rejectIf (val < 0 || (Text.uint32Max : Int) < val) rpcInvalidParams
        pure (some (.int64 (Int64.ofInt val)))
    | _ => throw (unexpected rpcInvalidParams)

/-- A string that spells a number is replaced by it. -/
def modify : EStateM Failure FieldView Unit := FieldView.rewriteBy newValue

end ToNumberModifier

/-- The item of the modifier. -/
def toNumber : Item α := .modifier ToNumberModifier.modify

/-- `detail::lexicalUint32`. -/
def lexicalUint32 (text : Bytes) : Option UInt32 :=
  let digits := if text.head? = some 0x2b then text.tail else text
  (Text.parseWhole Text.uint32Max digits).map UInt32.ofNat

namespace LexicalUint32Modifier

/-- A string in the lexical spelling becomes its number. -/
def newValue (fieldView : FieldView) : Parsed (Option Json) :=
  if !fieldView.present || !fieldView.isString then pure none
  else do
    let text ← fieldView.asString
    let val ← orReject (lexicalUint32 text) rpcInvalidParams
    pure (some (.ofUint32 val))

/-- It is replaced in place. -/
def modify : EStateM Failure FieldView Unit := FieldView.rewriteBy newValue

end LexicalUint32Modifier

/-- `lexicalUint32` as an item. -/
def lexicalUint32Item : Item α := .modifier LexicalUint32Modifier.modify

/-! ## Credentials -/

namespace CredentialTypeValidator

/-- `CredentialTypeValidator`: text in hexadecimal, of a bounded length. -/
def verify (fieldView : FieldView) : MaybeError :=
  ifPresent fieldView do
    rejectIf (!fieldView.isString) kMalformedAuthorizedCredentials
      (fieldView.key ++ " NotString")
    let decoded ← orReject (LibXrpl.strUnHex (← fieldView.asString))
      kMalformedAuthorizedCredentials (fieldView.key ++ " NotHexString")
    rejectIf decoded.isEmpty kMalformedAuthorizedCredentials (fieldView.key ++ " is empty")
    rejectIf (LibXrpl.kMaxCredentialTypeLength < decoded.length)
      kMalformedAuthorizedCredentials (fieldView.key ++ " greater than max length")

/-- After it `strUnHex` reads the text. -/
theorem verify_safe (v : FieldView) : Safe (verify v) fun _ =>
    v.present = true → v.HasString fun text => ∃ decoded, LibXrpl.strUnHex text = some decoded ∧
      decoded ≠ [] ∧ decoded.length ≤ LibXrpl.kMaxCredentialTypeLength := by
  refine safe_ifPresent fun _ => safe_rejectIf_bind fun hs => ?_
  apply safe_asString_bind (by simpa using hs)
  intro text hv
  refine safe_orReject_bind fun decoded hdecoded => safe_rejectIf_bind fun he => ?_
  refine safe_rejectIf.mono fun _ h => ⟨text, hv, decoded, hdecoded, by simpa using he, ?_⟩
  simpa using h

end CredentialTypeValidator

/-- The item of the validator. -/
def credentialType : Item α := .requirement CredentialTypeValidator.verify

namespace AuthorizeCredentialValidator

/-- The body of the loop. -/
def verifyElement (elem : FieldView) : MaybeError := do
  rejectIf (!elem.isObject) kMalformedAuthorizedCredentials
    "authorized_credentials elements in array are not objects."
  let issuerView := elem.child "issuer"
  rejectIf (!issuerView.present) kMalformedAuthorizedCredentials
    "Field 'Issuer' is required but missing."
  (AccountBase58Validator.verify issuerView).mapError
    (customFailure kMalformedAuthorizedCredentials "issuer NotString")
  let credView := elem.child "credential_type"
  rejectIf (!credView.present) kMalformedAuthorizedCredentials
    "Field 'CredentialType' is required but missing."
  CredentialTypeValidator.verify credView

/-- `AuthorizeCredentialValidator`: a short list of issuers and types. -/
def verify (fieldView : FieldView) : MaybeError :=
  ifPresent fieldView do
    rejectIf (!fieldView.isArray) kMalformedRequest (fieldView.key ++ " not array")
    let sz := fieldView.arraySize
    rejectIf (sz == 0) kMalformedAuthorizedCredentials
      "Requires at least one element in authorized_credentials array."
    rejectIf (LibXrpl.kMaxCredentialsArraySize < sz) kMalformedAuthorizedCredentials
      ("Max " ++ toString LibXrpl.kMaxCredentialsArraySize ++
        " number of credentials in authorized_credentials array")
    forM fieldView.elements verifyElement

/-- An object with an address and a credential type. -/
def AcceptsElement (elem : FieldView) : Prop :=
  elem.isObject = true ∧ (elem.child "issuer").HasString AccountBase58Validator.Accepts ∧
    (elem.child "credential_type").isString = true

/-- One element of the list. -/
theorem verifyElement_safe (elem : FieldView) :
    Safe (verifyElement elem) fun _ => AcceptsElement elem := by
  refine safe_rejectIf_bind fun hobject => safe_rejectIf_bind fun hissuer => ?_
  refine ((AccountBase58Validator.verify_safe _).mapError
    (customFailure_error _ _)).bind fun _ haccount => ?_
  apply safe_rejectIf_bind
  intro hcred
  apply (CredentialTypeValidator.verify_safe _).mono
  intro _ htype
  refine ⟨by simpa using hobject, haccount (by simpa using hissuer), ?_⟩
  exact (htype (by simpa using hcred)).isString

/-- After it every element can be read. -/
theorem verify_safe (v : FieldView) : Safe (verify v) fun _ =>
    v.present = true → v.isArray = true ∧ ∀ elem ∈ v.elements, AcceptsElement elem := by
  refine safe_ifPresent fun _ => safe_rejectIf_bind fun harray => ?_
  refine safe_rejectIf_bind fun _ => safe_rejectIf_bind fun _ => ?_
  refine (Safe.forM fun elem _ => verifyElement_safe elem).mono fun _ h => ?_
  exact ⟨by simpa using harray, h⟩

end AuthorizeCredentialValidator

/-- The item of the validator. -/
def authorizeCredential : Item α := .requirement AuthorizeCredentialValidator.verify

/-! ## Validators a handler writes itself -/

/-- `CustomValidator`. -/
def customValidator (fn : FieldView → MaybeError) : Item α :=
  .requirement fun fieldView => ifPresent fieldView (fn fieldView)

/-- `CustomModifier`. -/
def customModifier (fn : EStateM Failure FieldView Unit) : Item α := .modifier do
  let fieldView ← get
  if !fieldView.present then pure () else fn

/-! ## Values that are not supported -/

namespace NotSupported

/-- `NotSupported`: the field must not be there. -/
def verify (fieldView : FieldView) : MaybeError :=
  rejectIf fieldView.present rpcNotSupported ("Not supported field '" ++ fieldView.key ++ "'")

end NotSupported

/-- The item of the validator. -/
def notSupported : Item α := .requirement NotSupported.verify

namespace NotSupportedIfEqual

/-- `NotSupportedIfEqual`: one of the two booleans is not supported. -/
def verify (value : Bool) (fieldView : FieldView) : MaybeError :=
  if !fieldView.present || !fieldView.isBool then pure ()
  else do
    let b ← fieldView.asBool
    rejectIf (b = value) rpcNotSupported
      ("Not supported field '" ++ fieldView.key ++ "'s value '" ++ toString value ++ "'")

end NotSupportedIfEqual

/-- The item of the validator. -/
def notSupportedIf (value : Bool) : Item α := .requirement (NotSupportedIfEqual.verify value)

namespace OneOfValidator

/-- `OneOfValidator`: one of the names. -/
def verify (values : List String) (fieldView : FieldView) : MaybeError :=
  ifPresent fieldView do
    rejectIf (!fieldView.isString) rpcInvalidParams
    let text ← fieldView.asString
    rejectIf (!(values.map bytesOf).contains text) rpcInvalidParams

omit [Build] [LibXrpl] in
/-- After it the text is one of the names. -/
theorem verify_safe (values : List String) (v : FieldView) : Safe (verify values v) fun _ =>
    v.present = true → v.HasString fun text => text ∈ values.map bytesOf := by
  refine safe_ifPresent fun _ => safe_textCheck fun text h => ?_
  simpa using h

end OneOfValidator

/-- The item of the validator. -/
def oneOf (values : List String) : Item α := .requirement (OneOfValidator.verify values)

/-! ## Case -/

/-- A string with every byte replaced: `ToLowerModifier` and `ToUpperModifier`. -/
def mapText (f : UInt8 → UInt8) : EStateM Failure FieldView Unit :=
  FieldView.rewriteBy fun fieldView =>
    if !fieldView.present || !fieldView.isString then pure none
    else do
      let text ← fieldView.asString
      pure (some (.string (text.map f)))

def toLower : Item α := .modifier (mapText Text.toLower)

/-! ## Arrays -/

namespace AccountIdArrayValidator

/-- `AccountIdArrayValidator`: some accounts, and not too many. -/
def verify (maxSize : Nat) (fieldView : FieldView) : MaybeError :=
  ifPresent fieldView do
    rejectIf (!fieldView.isArray) kMalformedField (expectedFieldMessage fieldView.key "array")
    let size := fieldView.arraySize
    rejectIf (size == 0 || maxSize < size) kMalformedField
      (expectedFieldMessage fieldView.key
        ("an array of 1 to " ++ toString maxSize ++ " account IDs"))
    forM fieldView.elements fun elem => do
      let notAccounts := expectedFieldMessage fieldView.key "an array of account IDs"
      rejectIf (!elem.isString) kMalformedField notAccounts
      let text ← elem.asString
      rejectIf (accountFromStringStrict text).isNone kMalformedField notAccounts

omit [Build] in
/-- After it the decoder reads every element. -/
theorem verify_safe (maxSize : Nat) (v : FieldView) : Safe (verify maxSize v) fun _ =>
    v.present = true → v.isArray = true ∧ ∀ elem ∈ v.elements,
      elem.HasString fun text => (accountFromStringStrict text).isSome := by
  refine safe_ifPresent fun _ => safe_rejectIf_bind fun harray => safe_rejectIf_bind fun _ => ?_
  refine (Safe.forM fun elem _ => safe_textCheck fun text h => ?_).mono fun _ h =>
    ⟨by simpa using harray, h⟩
  simpa [Option.isSome_iff_ne_none] using h

end AccountIdArrayValidator

/-- The item of the validator. -/
def accountIdArray (maxSize : Nat) : Item α :=
  .requirement (AccountIdArrayValidator.verify maxSize)

namespace Hex256ArrayValidator

/-- `Hex256ArrayValidator`: hashes, or none at all. -/
def verify (fieldView : FieldView) : MaybeError :=
  ifPresent fieldView do
    rejectIf (!fieldView.isArray) rpcInvalidParams
    forM fieldView.elements fun elem => do
      rejectIf (!elem.isString) rpcInvalidParams "Item is not a valid uint256 type."
      let text ← elem.asString
      rejectIf (parseHexCString 256 text).isNone rpcInvalidParams
        "Item is not a valid uint256 type."

omit [Build] in
/-- After it the parser reads every element. -/
theorem verify_safe (v : FieldView) : Safe (verify v) fun _ =>
    v.present = true → v.isArray = true ∧ ∀ elem ∈ v.elements,
      elem.HasString fun text => (parseHexCString 256 text).isSome := by
  refine safe_ifPresent fun _ => safe_rejectIf_bind fun harray => ?_
  refine (Safe.forM fun elem _ => safe_textCheck fun text h => ?_).mono fun _ h =>
    ⟨by simpa using harray, h⟩
  simpa [Option.isSome_iff_ne_none] using h

end Hex256ArrayValidator

/-- The item of the validator. -/
def hex256Array : Item α := .requirement Hex256ArrayValidator.verify

namespace Uint192ArrayValidator

/-- `Uint192ArrayValidator`: at least one id. -/
def verify (fieldView : FieldView) : MaybeError :=
  ifPresent fieldView do
    rejectIf (!fieldView.isArray || fieldView.arraySize == 0) rpcInvalidParams
    forM fieldView.elements fun elem => do
      rejectIf (!elem.isString) rpcInvalidParams
      let text ← elem.asString
      rejectIf (parseHexCString 192 text).isNone rpcInvalidParams

omit [Build] in
/-- After it the parser reads every element. -/
theorem verify_safe (v : FieldView) : Safe (verify v) fun _ =>
    v.present = true → v.isArray = true ∧ ∀ elem ∈ v.elements,
      elem.HasString fun text => (parseHexCString 192 text).isSome := by
  refine safe_ifPresent fun _ => safe_rejectIf_bind fun harray => ?_
  simp only [Bool.or_eq_false_iff, Bool.not_eq_eq_eq_not, Bool.not_false] at harray
  refine (Safe.forM fun elem _ => safe_textCheck fun text h => ?_).mono fun _ h =>
    ⟨harray.1, h⟩
  simpa [Option.isSome_iff_ne_none] using h

end Uint192ArrayValidator

/-- The item of the validator. -/
def uint192Array : Item α := .requirement Uint192ArrayValidator.verify

/-! ## Markers and ledger types -/

/-- `sv.find(',')`: what stands before the first comma and what stands after it. -/
def splitAtComma (text : Bytes) : Option (Bytes × Bytes) :=
  if text.contains 0x2c then
    some (text.takeWhile (· ≠ 0x2c), (text.dropWhile (· ≠ 0x2c)).tail)
  else none

namespace AccountMarkerValidator

/-- `AccountMarkerValidator`: a hash, a comma and a number. -/
def verify (fieldView : FieldView) : MaybeError :=
  ifPresent fieldView do
    rejectIf (!fieldView.isString) rpcInvalidParams (fieldView.key ++ "NotString")
    let text ← fieldView.asString
    let message := malformedCursorMessage fieldView.key
    let (hexPart, hintPart) ← orReject (splitAtComma text) kMalformedField message
    rejectIf (parseHexCString 256 hexPart).isNone kMalformedField message
    rejectIf (Text.parseWhole Text.uint64Max hintPart).isNone kMalformedField message

/-- After it the marker is a string, which is all its converters need. -/
theorem verify_safe (v : FieldView) :
    Safe (verify v) fun _ => v.present = true → v.isString = true := by
  refine safe_ifPresent fun _ => safe_rejectIf_bind fun hs => ?_
  have hs : v.isString = true := by simpa using hs
  refine safe_asString_bind hs fun text hv => safe_orReject_bind fun parts _ => ?_
  exact safe_rejectIf_bind fun _ => safe_rejectIf.mono fun _ _ => hs

end AccountMarkerValidator

/-- The item of the validator. -/
def accountMarker : Item α := .requirement AccountMarkerValidator.verify

/-! ## Null -/

/-- `NullAs`. -/
def nullAs (value : Json) : Item α :=
  .modifier (FieldView.rewriteBy fun fieldView =>
    pure (if fieldView.isNull then some value else none))

end RpcSpec.Dsl
