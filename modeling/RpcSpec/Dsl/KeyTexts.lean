import RpcSpec.Dsl.Alike
import RpcSpec.Dsl.Converters
set_option autoImplicit false

/-!
# Items that name the key only in their texts

A value can be found under one key or under another.  An item that uses the key only in
the texts it reports does alike under both, up to the key in these texts
(`KeyInTexts`).  The items and converters of the aliased fields and of the two sides of
an order book are of this kind, as is shown here for those of the library.

`KeyInTexts.of_value` covers the functions that do not look at the key at all, and
`keyed_orReject`, `keyed_bind` and `keyed_textCheck` those that put it into an error.
-/

namespace RpcSpec.Dsl

open RpcSpec.Foundation XrpldError

/-! ## Texts that name a key -/

/-- The texts differ at most in the keys they name. -/
inductive SameText (K : String → String → Prop) : String → String → Prop where
  | same (text : String) : SameText K text text
  | key {key key' : String} (h : K key key') : SameText K key key'
  | append {text text' more more' : String} (h : SameText K text text')
      (hmore : SameText K more more') : SameText K (text ++ more) (text' ++ more')

/-- The same error, but for the keys its text names. -/
inductive SameFailure (K : String → String → Prop) : Failure → Failure → Prop where
  | error (code : CombinedError) {message message' : String} (h : SameText K message message') :
      SameFailure K (unexpected code message) (unexpected code message')
  | fault (why : Fault) : SameFailure K (.fault why) (.fault why)

variable {K : String → String → Prop}

theorem SameFailure.refl (failure : Failure) : SameFailure K failure failure := by
  cases failure with
  | error status => exact .error status.code (.same status.message)
  | fault why => exact .fault why

/-- A custom error in place of two failures is the same custom error. -/
theorem SameFailure.custom (code : CombinedError) (message : String) (failure failure' : Failure)
    (h : SameFailure K failure failure') :
    SameFailure K (customFailure code message failure) (customFailure code message failure') := by
  cases h with
  | error _ _ => exact .refl _
  | fault why => exact .fault why

section Messages

variable [Build] {key key' : String} (h : K key key')

include h

omit [Build] in
theorem sameText_key_append (text : String) : SameText K (key ++ text) (key' ++ text) :=
  .append (.key h) (.same text)

omit [Build] in
/-- A text around the key differs in the key only. -/
theorem sameText_between (text more : String) :
    SameText K (text ++ key ++ more) (text ++ key' ++ more) :=
  .append (.append (.same text) (.key h)) (.same more)

omit [Build] in
theorem invalidFieldMessage_sameText :
    SameText K (invalidFieldMessage key) (invalidFieldMessage key') := sameText_between h _ _

/-- The text for a missing field differs in the key only. -/
theorem missingFieldMessage_sameText :
    SameText K (missingFieldMessage key) (missingFieldMessage key') := by
  unfold missingFieldMessage
  split <;> exact sameText_between h _ _

theorem notStringFieldMessage_sameText :
    SameText K (notStringFieldMessage key) (notStringFieldMessage key') := by
  unfold notStringFieldMessage
  split
  · exact sameText_key_append h _
  · exact invalidFieldMessage_sameText h

theorem malformedFieldMessage_sameText :
    SameText K (malformedFieldMessage key) (malformedFieldMessage key') := by
  unfold malformedFieldMessage
  split
  · exact sameText_key_append h _
  · exact invalidFieldMessage_sameText h

/-- So does the text of a deprecation. -/
theorem deprecatedMessage_sameText :
    SameText K (deprecatedMessage key) (deprecatedMessage key') := by
  unfold deprecatedMessage
  split <;> exact sameText_between h _ _

end Messages

/-! ## Functions of a view -/

/-- What is computed of a view uses its key only in the texts of errors. -/
def KeyInTexts {β : Type} (K : String → String → Prop) (f : FieldView → Parsed β) : Prop :=
  ∀ v v', SameValue K v v' → Matches (SameFailure K) Eq (f v) (f v')

namespace KeyInTexts

variable {β : Type} {f : FieldView → Parsed β}

/-- The key is not used at all. -/
theorem of_value (h : ∀ key key' value, f ⟨key', value⟩ = f ⟨key, value⟩) : KeyInTexts K f := by
  rintro ⟨key, value⟩ ⟨key', value'⟩ ⟨hvalue, -⟩
  obtain rfl : value' = value := hvalue
  rw [h key key' value']
  exact .refl .refl (fun _ => rfl) _

/-- The value is at hand, under the one key and under the other. -/
theorem of_keys (h : ∀ key key' value, K key key' →
    Matches (SameFailure K) Eq (f ⟨key, value⟩) (f ⟨key', value⟩)) : KeyInTexts K f := by
  rintro ⟨key, value⟩ ⟨key', value'⟩ ⟨hvalue, hkey⟩
  obtain rfl : value' = value := hvalue
  exact h key key' value' hkey

end KeyInTexts

/-! ## Requirements -/

section Steps

variable {β γ : Type} {code code' : CombinedError} {message message' : String}

/-- A refusal whose text names the key. -/
theorem keyed_rejectIf (h : SameText K message message') (bad : Bool) :
    Matches (SameFailure K) Eq (rejectIf bad code message) (rejectIf bad code message') :=
  rejectIf_match (.error code h) bad

theorem keyed_orReject (h : SameText K message message') (decoded : Option β) :
    Matches (SameFailure K) Eq (orReject decoded code message) (orReject decoded code message') :=
  orReject_match (.error code h) decoded

/-- A step that does not look at the key. -/
theorem keyed_bind {f g : β → Parsed γ} (x : Parsed β)
    (h : ∀ b, Matches (SameFailure K) Eq (f b) (g b)) :
    Matches (SameFailure K) Eq (x >>= f) (x >>= g) := by
  refine (Matches.refl (R := Eq) SameFailure.refl (fun _ => rfl) x).bind ?_
  rintro b _ rfl
  exact h b

theorem keyed_ifPresent {key key' : String} {value : Option Json} {body body' : MaybeError}
    (h : Matches (SameFailure K) Eq body body') :
    Matches (SameFailure K) Eq (ifPresent ⟨key, value⟩ body) (ifPresent ⟨key', value⟩ body') :=
  ifPresent_match (K := fun _ _ => True) ⟨rfl, trivial⟩ h

/-- A value that is not a string is refused, and then a string that is bad. -/
theorem keyed_textCheck {key key' : String} {value : Option Json} {bad : Bytes → Bool}
    {more more' : String} (h : SameText K message message') (hmore : SameText K more more') :
    Matches (SameFailure K) Eq
      (do
        rejectIf (!FieldView.isString ⟨key, value⟩) code message
        let text ← FieldView.asString ⟨key, value⟩
        rejectIf (bad text) code' more)
      (do
        rejectIf (!FieldView.isString ⟨key', value⟩) code message'
        let text ← FieldView.asString ⟨key', value⟩
        rejectIf (bad text) code' more') := by
  apply (keyed_rejectIf h _).bind
  intro _ _ _
  exact keyed_bind (FieldView.asString ⟨key, value⟩) fun text => keyed_rejectIf hmore _

end Steps

section Requirements

variable [Build] [LibXrpl]

omit [LibXrpl] in
/-- `required` names the missing key and does nothing else with it. -/
theorem Required.verify_keyInTexts : KeyInTexts K Required.verify :=
  .of_keys fun _ _ _ h => keyed_rejectIf (missingFieldMessage_sameText h) _

theorem HexStringValidator.verify_keyInTexts (bits : Nat) :
    KeyInTexts K (HexStringValidator.verify bits) :=
  .of_keys fun _ _ _ h => keyed_ifPresent <|
    keyed_textCheck (notStringFieldMessage_sameText h) (malformedFieldMessage_sameText h)

theorem AccountBase58Validator.verify_keyInTexts : KeyInTexts K AccountBase58Validator.verify :=
  .of_keys fun _ _ _ h => keyed_ifPresent <|
    keyed_textCheck (sameText_key_append h _) (.same _)

theorem CurrencyValidator.verify_keyInTexts : KeyInTexts K CurrencyValidator.verify := by
  refine .of_keys fun key key' value h => keyed_ifPresent ?_
  apply (keyed_rejectIf (sameText_key_append h _) _).bind
  intro _ _ _
  apply keyed_bind (FieldView.asString ⟨key, value⟩)
  intro text
  exact (keyed_rejectIf (sameText_key_append h _) _).bind fun _ _ _ => keyed_rejectIf (.same _) _

omit [Build] in
theorem IssuerValidator.verify_keyInTexts : KeyInTexts K IssuerValidator.verify := by
  refine .of_keys fun key key' value h => keyed_ifPresent ?_
  apply (keyed_rejectIf (sameText_key_append h _) _).bind
  intro _ _ _
  apply keyed_bind (FieldView.asString ⟨key, value⟩)
  intro text
  refine (keyed_orReject (sameText_between h _ _) _).bind ?_
  rintro issuer _ rfl
  exact keyed_rejectIf (sameText_between h _ _) _

end Requirements

/-! ## Converters -/

section Converters

variable [Build] [LibXrpl]

theorem accountId_keyInTexts : KeyInTexts K accountId.parse := by
  refine .of_keys ?_
  intro key key' value h
  change Matches _ _ (if !FieldView.isString ⟨key, value⟩ then _ else _)
    (if !FieldView.isString ⟨key, value⟩ then _ else _)
  split
  · exact .error (.error _ (notStringFieldMessage_sameText h))
  · apply keyed_bind (FieldView.asString ⟨key, value⟩)
    intro text
    split
    · exact keyed_orReject (.same _) _
    · exact keyed_orReject (sameText_key_append h _) _

omit [Build] [LibXrpl] in
theorem jsonBoolConverter_keyInTexts (strict : Bool) :
    KeyInTexts K (jsonBoolConverter strict).parse := .of_value fun _ _ _ => rfl

end Converters

end RpcSpec.Dsl
