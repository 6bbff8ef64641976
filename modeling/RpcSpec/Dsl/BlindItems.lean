import RpcSpec.Dsl.Storage
set_option autoImplicit false

/-!
# Items that do not see how integers are stored

The items and the converters by name: each looks at its view through the accessors
alone, so the lemmas about these are the whole of every proof.

`Item.Blind` and `Converter.Blind` are the notions of the module on storage; with the simp
set given here the blindness of a handler's field is read off its items.
-/

namespace RpcSpec.Dsl

open RpcSpec.Foundation FieldView

variable {α : Type}

attribute [simp] ItemsBlind SectionBlind blind_ifPresent

/-! ## Combinators -/

/-- A replaced error does not change what the wrapped item sees of a number. -/
@[simp] theorem withCustomError_blind {wrapped : Item α} {code : CombinedError}
    {message : String} : (withCustomError wrapped code message).Blind ↔ wrapped.Blind := by
  rw [withCustomError, Item.Blind]

/-- A guarded list is blind when its items are: the guard takes both stored forms of an
integer alike. -/
@[simp] theorem ifType_blind {t : JsonType} {items : List (Item α)} :
    (ifType t items).Blind ↔ ItemsBlind items := by
  rw [ifType, Item.Blind]

/-- A section is blind when the items of its subfields are. -/
@[simp] theorem section_blind {subFields : List (FieldSpec α)} :
    (section_ subFields).Blind ↔ SectionBlind subFields := by
  rw [section_, Item.Blind]

/-- What one build keeps of the items is blind when all of them are. -/
@[simp] theorem ifServerClio_blind [Build] {inners : List (Item α)} :
    (ifServerClio inners).Blind ↔ ItemsBlind inners := by
  rw [ifServerClio, Item.Blind]

@[simp] theorem ifServerXrpld_blind [Build] {inners : List (Item α)} :
    (ifServerXrpld inners).Blind ↔ ItemsBlind inners := by
  rw [ifServerXrpld, Item.Blind]

@[simp] theorem deprecated_blind : (deprecated : Item α).Blind := by
  rw [deprecated, Item.Blind] <;> simp

/-- A guard looks at the presence of a member of the root, never at a number. -/
@[simp] theorem ifAbsent_blind (key : String) : (ifAbsent key : Item α).Blind := by
  rw [ifAbsent, Item.Blind] <;> simp

/-- `never` looks at the field's presence only. -/
@[simp] theorem never_blind : (never : Item α).Blind := by
  rw [never, Item.Blind] <;> simp

@[simp] theorem defaultTo_blind (value : α) : (defaultTo value).Blind := by
  rw [defaultTo, Item.Blind] <;> simp

/-- Blindness of a list is blindness of its parts. -/
@[simp] theorem itemsBlind_append {items rest : List (Item α)} :
    ItemsBlind (items ++ rest) ↔ ItemsBlind items ∧ ItemsBlind rest := by
  induction items with
  | nil => simp
  | cons item items ih => simp [ih, and_assoc]

/-! ## Requirements -/

/-- A requirement is blind when its check answers alike on both stored forms. -/
theorem requirement_blind {verify : FieldView → MaybeError} (h : Blind verify) :
    (Item.requirement verify : Item α).Blind := by
  rwa [Item.Blind]

/-- A hand-written check runs on fields that are present and is blind when its function is. -/
theorem customValidator_blind {fn : FieldView → MaybeError} (h : Blind fn) :
    (customValidator fn : Item α).Blind := requirement_blind (blind_ifPresent h)

@[simp] theorem required_blind [Build] : (required : Item α).Blind :=
  requirement_blind fun v => by simp [Required.verify]

/-- The type check admits a number in either stored form: what it asks of an integer is its
value. -/
@[simp] theorem typeIs_storedUnsigned (types : List JsonType) (v : FieldView) :
    TypeIs.verify types v.storedUnsigned = TypeIs.verify types v := by
  have his : v.storedUnsigned.is = v.is := funext (storedUnsigned_is v)
  simp [TypeIs.verify, his]

@[simp] theorem type_blind (types : List JsonType) : (type types : Item α).Blind :=
  requirement_blind (typeIs_storedUnsigned types)

/-- The length of an array is unaffected by how the numbers in it are stored. -/
@[simp] theorem minArrayLength_blind (bound : Nat) : (minArrayLength bound : Item α).Blind :=
  requirement_blind fun v => by simp

@[simp] theorem maxArrayLength_blind (bound : Nat) : (maxArrayLength bound : Item α).Blind :=
  requirement_blind fun v => by simp

/-- The number a bound is compared with is the same under both stored forms. -/
@[simp] theorem numericValue_storedUnsigned (v : FieldView) :
    numericValue UInt32 v.storedUnsigned = numericValue UInt32 v := by
  simp [numericValue, SomeNumericBound.as]

@[simp] theorem min_blind (bound : UInt32) : (min bound : Item α).Blind :=
  requirement_blind fun v => by simp [Min.verify]

/-- A range reads the number through `numericValue` alone. -/
@[simp] theorem between_blind (lo hi : UInt32) : (between lo hi : Item α).Blind :=
  requirement_blind fun v => by simp [Between.verify]

/-- A time is read from a string, and a string holds no number. -/
@[simp] theorem timeFormat_blind (format : List TimeDirective) :
    (timeFormat format : Item α).Blind :=
  requirement_blind fun v => by
    simp only [TimeFormatValidator.verify, ifPresent, storedUnsigned_present,
      storedUnsigned_isString, storedUnsigned_asString]

@[simp] theorem notSupported_blind : (notSupported : Item α).Blind :=
  requirement_blind fun v => by simp [NotSupported.verify]

/-- The value a field must not hold is a Boolean. -/
@[simp] theorem notSupportedIf_blind (value : Bool) : (notSupportedIf value : Item α).Blind :=
  requirement_blind fun v => by
    unfold NotSupportedIfEqual.verify
    rw [storedUnsigned_present, storedUnsigned_isBool, storedUnsigned_asBool, storedUnsigned_key]

/-- The listed values are strings. -/
@[simp] theorem oneOf_blind (values : List String) : (oneOf values : Item α).Blind :=
  requirement_blind fun v => by simp [OneOfValidator.verify, ifPresent]

section Texts

variable [Build] [LibXrpl]

omit [Build] in
@[simp] theorem account_blind : (account : Item α).Blind :=
  requirement_blind fun v => by simp [AccountFormat.verify, ifPresent]

/-- An account is read from a string; a number in either form is refused. -/
@[simp] theorem accountBase58_storedUnsigned (v : FieldView) :
    AccountBase58Validator.verify v.storedUnsigned = AccountBase58Validator.verify v := by
  simp [AccountBase58Validator.verify, ifPresent]

@[simp] theorem accountBase58_blind : (accountBase58 : Item α).Blind :=
  requirement_blind accountBase58_storedUnsigned

/-- A currency is read from a string; a number in either form is refused. -/
@[simp] theorem currency_storedUnsigned (v : FieldView) :
    CurrencyValidator.verify v.storedUnsigned = CurrencyValidator.verify v := by
  simp [CurrencyValidator.verify, ifPresent]

@[simp] theorem currency_blind : (currency : Item α).Blind :=
  requirement_blind currency_storedUnsigned

@[simp] theorem strictCurrency_blind : (strictCurrency : Item α).Blind :=
  requirement_blind fun v => by simp [StrictCurrencyValidator.verify, ifPresent]

omit [Build] in
@[simp] theorem issuer_blind : (issuer : Item α).Blind :=
  requirement_blind fun v => by simp [IssuerValidator.verify, ifPresent]

/-- A currency with its issuer is read from the strings of an object. -/
@[simp] theorem currencyIssue_storedUnsigned (v : FieldView) :
    CurrencyIssueValidator.verify v.storedUnsigned = CurrencyIssueValidator.verify v := by
  simp [CurrencyIssueValidator.verify, ifPresent]

@[simp] theorem currencyIssue_blind : (currencyIssue : Item α).Blind :=
  requirement_blind currencyIssue_storedUnsigned

/-- A credential's type is read from a string. -/
@[simp] theorem credentialType_storedUnsigned (v : FieldView) :
    CredentialTypeValidator.verify v.storedUnsigned = CredentialTypeValidator.verify v := by
  simp [CredentialTypeValidator.verify, ifPresent]

@[simp] theorem credentialType_blind : (credentialType : Item α).Blind :=
  requirement_blind credentialType_storedUnsigned

@[simp] theorem authorizeCredential_blind : (authorizeCredential : Item α).Blind := by
  have helement : Blind AuthorizeCredentialValidator.verifyElement := fun elem => by
    simp [AuthorizeCredentialValidator.verifyElement]
  apply requirement_blind
  intro v
  have hloop : AuthorizeCredentialValidator.verifyElement ∘ storedUnsigned =
      AuthorizeCredentialValidator.verifyElement := funext helement
  simp [AuthorizeCredentialValidator.verify, ifPresent, List.forM_map, helement _]

omit [Build] in
/-- The elements are refused unless they are strings, so no number in the list is read. -/
@[simp] theorem accountIdArray_blind (maxSize : Nat) : (accountIdArray maxSize : Item α).Blind :=
  requirement_blind fun v => by simp [AccountIdArrayValidator.verify, ifPresent]

omit [Build] in
@[simp] theorem hex256Array_blind : (hex256Array : Item α).Blind :=
  requirement_blind fun v => by simp [Hex256ArrayValidator.verify, ifPresent]

omit [Build] in
@[simp] theorem uint192Array_blind : (uint192Array : Item α).Blind :=
  requirement_blind fun v => by simp [Uint192ArrayValidator.verify, ifPresent]

/-- A hex text is read from a string; a number in either form is refused alike. -/
theorem hexString_blind (bits : Nat) : Blind (HexStringValidator.verify bits) := fun v => by
  simp [HexStringValidator.verify, ifPresent]

@[simp] theorem uint256Hex_blind : (uint256Hex : Item α).Blind :=
  requirement_blind (hexString_blind 256)

@[simp] theorem uint192Hex_blind : (uint192Hex : Item α).Blind :=
  requirement_blind (hexString_blind 192)

@[simp] theorem accountMarker_blind : (accountMarker : Item α).Blind :=
  requirement_blind fun v => by simp [AccountMarkerValidator.verify, ifPresent]

end Texts

/-! ## Modifiers -/

/-- A modifier that replaces the value is blind when what it replaces it by is. -/
theorem rewriteBy_blind {newValue : FieldView → Parsed (Option Json)} (h : Blind newValue) :
    (Item.modifier (rewriteBy newValue) : Item α).Blind := by
  rw [Item.Blind]
  exact lockstep_rewriteBy h

@[simp] theorem clamp_blind (lo hi : UInt32) : (clamp lo hi : Item α).Blind :=
  rewriteBy_blind fun v => by simp

@[simp] theorem clampAs_blind (target : IntegralType) : (clampAs target : Item α).Blind :=
  rewriteBy_blind fun v => by simp

/-- A text is turned into the same number on both sides, and a number stays as it is stored. -/
theorem toNumber_modify_lockstep : Lockstep SameNumbers ToNumberModifier.modify :=
  lockstep_rewriteBy fun v => by simp [ToNumberModifier.newValue]

@[simp] theorem toNumber_blind : (toNumber : Item α).Blind := by
  rw [toNumber, Item.Blind]
  exact toNumber_modify_lockstep

@[simp] theorem lexicalUint32Item_blind : (lexicalUint32Item : Item α).Blind :=
  rewriteBy_blind fun v => by simp [LexicalUint32Modifier.newValue]

/-- Only the bytes of a string are rewritten. -/
theorem mapText_blind (f : UInt8 → UInt8) : (Item.modifier (mapText f) : Item α).Blind :=
  rewriteBy_blind fun v => by simp

@[simp] theorem toLower_blind : (toLower : Item α).Blind := mapText_blind _

/-- Only a null is replaced, and the null is the same on both sides. -/
@[simp] theorem nullAs_blind (json : Json) : (nullAs json : Item α).Blind :=
  rewriteBy_blind fun v => by simp

/-- A hand-written modifier is blind when it moves the two views together. -/
theorem customModifier_blind {fn : EStateM Failure FieldView Unit} (h : Lockstep SameNumbers fn) :
    (customModifier fn : Item α).Blind := by
  rw [customModifier, Item.Blind]
  refine lockstep_get_bind (fun v => by rw [storedUnsigned_present]) fun v => ?_
  split
  · exact .pure _
  · exact h

/-! ## Converters -/

namespace Converter

/-- A number is turned into a Boolean by its value, not by its stored form. -/
@[simp] theorem jsonBoolConverter_blind (strict : Bool) : (jsonBoolConverter strict).Blind :=
  fun v => by simp [jsonBoolConverter]

@[simp] theorem jsonBool_blind : jsonBool.Blind := jsonBoolConverter_blind _

@[simp] theorem jsonBoolStrict_blind : jsonBoolStrict.Blind := jsonBoolConverter_blind _

/-- The number read is the one that both stored forms stand for. -/
@[simp] theorem asUint32_blind : asUint32.Blind := fun v => by simp [asUint32]

@[simp] theorem asString_blind : asString.Blind := fun v => by simp [asString]

section LibXrpl

variable [Build] [LibXrpl]

omit [Build] in
@[simp] theorem accountIdActMalformed_blind : accountIdActMalformed.Blind := fun v => by
  simp [accountIdActMalformed]

omit [Build] in
/-- The list is read element by element, each from a string. -/
@[simp] theorem asAccountIdVec_blind : asAccountIdVec.Blind := fun v => by
  simp [asAccountIdVec, Function.comp_def]

omit [Build] in
@[simp] theorem asUint192Vec_blind : asUint192Vec.Blind := fun v => by
  simp [asUint192Vec, Function.comp_def]

@[simp] theorem accountId_blind : accountId.Blind := fun v => by simp [accountId]

/-- A hex converter reads the bytes of a string. -/
theorem hexConverter_blind {β : Type} {bits : Nat} {ofParsed : Bytes → BitVec bits → β} :
    (hexConverter bits ofParsed).Blind := fun v => by simp [hexConverter]

@[simp] theorem asUint256_blind : asUint256.Blind := hexConverter_blind

@[simp] theorem asUint192_blind : asUint192.Blind := hexConverter_blind

/-- A marker is kept as the text it is. -/
theorem accountMarkerStrConverter_blind (onXrpld : MalformedMarker) :
    (accountMarkerStrConverter onXrpld).Blind := fun v => by simp [accountMarkerStrConverter]

@[simp] theorem accountMarkerStr_blind : accountMarkerStr.Blind :=
  accountMarkerStrConverter_blind _

@[simp] theorem accountMarkerStrInvalidParams_blind : accountMarkerStrInvalidParams.Blind :=
  accountMarkerStrConverter_blind _

omit [LibXrpl] in
/-- The wrapper asks only whether the field is the empty string. -/
@[simp] theorem emptyAsAbsent_blind {T Holder : Type} [AbsentValue T Holder] {conv : Converter T}
    (h : conv.Blind) : (emptyAsAbsent conv).Blind := fun v => by
  simp [emptyAsAbsent, h v]

/-- On xrpld the one thing asked besides is whether the field is a string. -/
theorem deferredAccount_blind {clioConv : Converter AccountID} {nonString : NonStringAccount}
    (h : clioConv.Blind) : (deferredAccount clioConv nonString).Blind := fun v => by
  simp [deferredAccount, h v, accountId_blind v]

@[simp] theorem deferredAccountId_blind : deferredAccountId.Blind :=
  deferredAccount_blind accountId_blind

@[simp] theorem deferredAccountIdActMalformed_blind : deferredAccountIdActMalformed.Blind :=
  deferredAccount_blind accountIdActMalformed_blind

omit [Build] in
/-- An asset is read from the texts of an object's members. -/
@[simp] theorem assetFromView_storedUnsigned (v : FieldView) :
    assetFromView v.storedUnsigned = assetFromView v := by
  simp [assetFromView]

/-- On xrpld the asset is read from texts, on Clio by the converter. -/
@[simp] theorem deferredAsset_blind {clioConv : Converter Issue} (h : clioConv.Blind) :
    (deferredAsset clioConv).Blind := fun v => by simp [deferredAsset, h v]

end LibXrpl

end Converter

/-! ## Fields -/

section Fields

variable {Input : Type} {Value : Type} {key alternateKey : String} {member : Member Input Value}
  {items : List (Item Value)} {conv : Converter Value} {unguarded : anyGuardsKey key items = false}

/-- A field is blind when its items and its converter are; the member it binds plays no part. -/
@[simp] theorem field_blind :
    (field key member items conv unguarded).Blind ↔ ItemsBlind items ∧ conv.Blind := Iff.rfl

/-- An aliased field is blind under the same conditions, whichever key was used. -/
@[simp] theorem alias_blind : (alias_ alternateKey key member items conv unguarded).Blind ↔
    ItemsBlind items ∧ conv.Blind := Iff.rfl

@[simp] theorem unboundField_blind {items : List (Item Unit)} :
    (unboundField key items : Field Input).Blind ↔ ItemsBlind items := Iff.rfl

/-- The ledger rule reads strings and a 32-bit number that both stored forms show alike. -/
@[simp] theorem ledgerSelector_blind {member : Member Input LedgerSpecifier} :
    (ledgerSelector member).Blind := trivial

end Fields

end RpcSpec.Dsl
