import RpcSpec.Dsl.AliasRenaming
import RpcSpec.Handlers.LedgerEntry
set_option autoImplicit false

/-!
# The aliases of `ledger_entry`

Two of the selectors have a second spelling, `account` for `account_root` and `state` for
`ripple_state`.  Their items and converters use the key only in texts, so both aliases
are renamings.

`aliases_rename` says so of any field whose items and converter are of this kind, of these
two and of whatever else is given an alias.
-/

namespace RpcSpec.Handlers

open RpcSpec.Dsl RpcSpec.Foundation

namespace LedgerEntry

variable {K : String → String → Prop}

/-! ## Items and converters -/

section Items

variable {α : Type} [Build] [LibXrpl]

/-- The key stands in the text for a value that is no string. -/
theorem accountBase58_keyInTexts : (accountBase58 : Item α).KeyInTexts K := by
  simpa only [accountBase58, Item.KeyInTexts] using AccountBase58Validator.verify_keyInTexts

omit [Build] [LibXrpl] in
/-- A check of types names no key at all. -/
theorem stringOrObject_keyInTexts : (stringOrObject : Item α).KeyInTexts K := by
  simpa only [stringOrObject, type, Item.KeyInTexts] using KeyInTexts.of_value fun _ _ _ => rfl

/-- The text of the error is replaced, so no key is left in it. -/
theorem kMalformedRequestHexStringValidator_keyInTexts :
    (kMalformedRequestHexStringValidator : Item α).KeyInTexts K := by
  simpa only [kMalformedRequestHexStringValidator, withCustomError, uint256Hex, Item.KeyInTexts]
    using HexStringValidator.verify_keyInTexts 256

omit [Build] [LibXrpl] in
/-- What is asked of the members of the object is asked under their own keys. -/
theorem selectorItems_keyInTexts {typeCheck hash : Item α} (htype : typeCheck.KeyInTexts K)
    (hhash : hash.KeyInTexts K) (subFields : List (FieldSpec α)) :
    ItemsKeyInTexts K (selectorItems typeCheck hash subFields) := by
  simp only [selectorItems, ifType, section_, ItemsKeyInTexts, Item.KeyInTexts, and_true]
  exact ⟨htype, hhash⟩

omit [Build] in
theorem rippleStateConv_keyInTexts : KeyInTexts K rippleStateConv.parse :=
  .of_value fun _ _ _ => rfl

end Items

/-! ## The two selectors -/

section Selectors

variable [Build] [LibXrpl]

/-- A field of the spec with a second spelling that is a renaming. -/
def HasRenaming (alternateKey key : String) : Prop :=
  ∃ i field, kInputSpec.AliasedAlone i alternateKey field ∧ field.key = key ∧
    kInputSpec.PureRenaming i alternateKey field

/-- From one aliased field to the handler's spec. -/
theorem hasRenaming_of_alone {i : Nat} {alternateKey : String} {field : BoundField Input}
    (halone : kInputSpec.AliasedAlone i alternateKey field)
    (htexts : field.KeyInTexts (AliasFor alternateKey field.key)) :
    HasRenaming alternateKey field.key :=
  ⟨i, field, halone, rfl, halone.pureRenaming htexts⟩

/-- `account` is `account_root`. -/
theorem account_renaming : HasRenaming "account" "account_root" := by
  have halone : kInputSpec.AliasedAlone 3 "account" _ := .of_all rfl (by simp) rfl rfl
  refine hasRenaming_of_alone halone ⟨?_, accountId_keyInTexts⟩
  simpa only [ItemsKeyInTexts, and_true] using accountBase58_keyInTexts

/-- `state` is `ripple_state`. -/
theorem state_renaming : HasRenaming "state" "ripple_state" := by
  have halone : kInputSpec.AliasedAlone 11 "state" _ := .of_all rfl (by simp) rfl rfl
  refine hasRenaming_of_alone halone ⟨?_, rippleStateConv_keyInTexts⟩
  exact selectorItems_keyInTexts stringOrObject_keyInTexts
    kMalformedRequestHexStringValidator_keyInTexts rippleStateFields

end Selectors

end LedgerEntry

/-! ## Aliases as renamings -/

/-- Of two spellings one counts, and the alias is a renaming where the field uses the key in
texts only, as both fields of `ledger_entry` do. -/
theorem aliases_rename [Build] [LibXrpl] :
    (∀ {Input : Type} [InputAggregate Input] {spec : TypedSpec Input} {i : Nat}
        {alternateKey : String} {field : BoundField Input},
      spec.AliasedAlone i alternateKey field → spec.OneSpelling i alternateKey field ∧
        (field.KeyInTexts (AliasFor alternateKey field.key) →
          spec.PureRenaming i alternateKey field)) ∧
    LedgerEntry.HasRenaming "account" "account_root" ∧
    LedgerEntry.HasRenaming "state" "ripple_state" := by
  refine ⟨fun halone => ⟨halone.oneSpelling, fun htexts => halone.pureRenaming htexts⟩, ?_, ?_⟩
  · exact LedgerEntry.account_renaming
  · exact LedgerEntry.state_renaming

/-- A field with no items and a second spelling. -/
theorem aliases_rename_toggle :
    @TypedSpec.PureRenaming _ _ .clio hexLib ToggleInput.kTwoSpellingsSpec 0 "alt"
      (ToggleInput.strictField [] rfl) :=
  ((@aliases_rename .clio hexLib).1 ToggleInput.kTwoSpellingsSpec_aliasedAlone).2
    ⟨trivial, jsonBoolConverter_keyInTexts false⟩

end RpcSpec.Handlers
