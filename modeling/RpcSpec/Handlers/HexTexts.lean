import RpcSpec.Dsl.Selection
import RpcSpec.Dsl.HexText
import RpcSpec.Handlers.Tokens
import RpcSpec.Handlers.Markets
set_option autoImplicit false

/-!
# Texts accepted as hexadecimal

Which strings the hexadecimal validators and converters accept, and which of them are
kept as text.  The text goes through a C string before it is parsed, so what follows a
NUL is not looked at.

`hexExact_iff` says of all the validators and converters that what they accept is
hexadecimal text of the width and nothing else, but for two kinds of texts: those that are
such up to a NUL, and those that are up to there the one digit libxrpl takes for zero.
-/

namespace RpcSpec.Handlers

open RpcSpec.Dsl RpcSpec.Foundation XrpldError Text

variable [Build] [LibXrpl] {bits : Nat} {key : String} {text : Bytes}

/-! ## What each of them parses -/

omit [Build] [LibXrpl] in
theorem returns_rejectIf_isNone {α : Type} {decoded : Option α} {code : CombinedError}
    {message : String} : Returns (rejectIf decoded.isNone code message) ↔ decoded.isSome := by
  cases decoded with
  | none => exact ⟨nofun, nofun⟩
  | some a => exact ⟨fun _ => rfl, fun _ => .ok ()⟩

/-- The validator returns when the parser does. -/
theorem returns_hexString :
    Returns (HexStringValidator.verify bits ⟨key, some (.string text)⟩) ↔
      (parseHexCString bits text).isSome :=
  returns_rejectIf_isNone

theorem returns_hexConverter {β : Type} {ofParsed : Bytes → BitVec bits → β} :
    Returns ((hexConverter bits ofParsed).parse ⟨key, some (.string text)⟩) ↔
      (parseHexCString bits text).isSome := by
  change Returns (do let parsed ← orReject (parseHexCString bits text) _ _
                     pure (ofParsed text parsed)) ↔ _
  cases parseHexCString bits text with
  | none => exact ⟨nofun, nofun⟩
  | some parsed => exact ⟨fun _ => rfl, fun _ => .ok _⟩

/-- The text is kept as it stands, not what was parsed of it. -/
theorem ledgerHashHex_parse {value : Bytes}
    (h : ledgerHashHex.parse ⟨key, some (.string text)⟩ = .ok value) :
    value = text ∧ (parseHexCString 256 text).isSome := by
  refine ⟨?_, returns_hexConverter.mp ⟨value, h⟩⟩
  change (do let parsed ← orReject (parseHexCString 256 text) _ _
             pure text) = _ at h
  obtain ⟨_, -, hvalue⟩ := bind_eq_ok_iff.mp h
  exact (pure_eq_ok_iff.mp hvalue).symm

/-- A string the parser of the width takes. -/
def HexItem (bits : Nat) (json : Json) : Prop :=
  ∃ text, json = .string text ∧ (parseHexCString bits text).isSome

omit [Build] in
/-- One element of an array of identifiers. -/
theorem returns_hexElement {json : Json} {message : String} :
    Returns (do
      rejectIf (!FieldView.isString ⟨key, some json⟩) rpcInvalidParams message
      let text ← FieldView.asString ⟨key, some json⟩
      rejectIf (parseHexCString bits text).isNone rpcInvalidParams message) ↔
      HexItem bits json := by
  cases json with
  | string text =>
      refine returns_rejectIf_isNone.trans ⟨fun h => ⟨text, rfl, h⟩, ?_⟩
      rintro ⟨_, ⟨⟩, h⟩
      exact h
  | _ => exact ⟨nofun, nofun⟩

omit [Build] in
theorem returns_hex256Array {items : List Json} :
    Returns (Hex256ArrayValidator.verify ⟨key, some (.array items)⟩) ↔
      ∀ json ∈ items, HexItem 256 json := by
  change Returns (forM (FieldView.elements ⟨key, some (.array items)⟩) _) ↔ _
  rw [Returns.forM_iff, FieldView.elements_array]
  simp only [List.forall_mem_map, returns_hexElement]

omit [Build] in
theorem returns_uint192Array {items : List Json} :
    Returns (Uint192ArrayValidator.verify ⟨key, some (.array items)⟩) ↔
      items ≠ [] ∧ ∀ json ∈ items, HexItem 192 json := by
  cases items with
  | nil => exact ⟨nofun, fun h => (h.1 rfl).elim⟩
  | cons first rest =>
      change Returns (forM (FieldView.elements ⟨key, some (.array (first :: rest))⟩) _) ↔ _
      rw [Returns.forM_iff, FieldView.elements_array]
      simp only [List.forall_mem_map, returns_hexElement, ne_eq, reduceCtorEq, not_false_eq_true,
        true_and]

/-- The part before the comma has been parsed as a hash. -/
theorem returns_accountMarker {marker : Bytes}
    (h : Returns (AccountMarkerValidator.verify ⟨key, some (.string marker)⟩)) {hint : Bytes}
    (hsplit : splitAtComma marker = some (text, hint)) : (parseHexCString 256 text).isSome := by
  obtain ⟨_, h⟩ := h
  change (do
    let parts ← orReject (splitAtComma marker) kMalformedField _
    rejectIf (parseHexCString 256 parts.1).isNone kMalformedField _
    rejectIf (Text.parseWhole Text.uint64Max parts.2).isNone kMalformedField _) = _ at h
  obtain ⟨parts, hparts, h⟩ := bind_eq_ok_iff.mp h
  rw [orReject_eq_ok_iff, hsplit] at hparts
  cases hparts
  obtain ⟨_, hhex, -⟩ := bind_eq_ok_iff.mp h
  exact returns_rejectIf_isNone.mp ⟨_, hhex⟩

/-- By the converter too, whatever it makes of the rest. -/
theorem returns_accountMarkerStr {onXrpld : MalformedMarker} {marker : Bytes}
    (h : Returns ((accountMarkerStrConverter onXrpld).parse ⟨key, some (.string marker)⟩))
    {hint : Bytes} (hsplit : splitAtComma marker = some (text, hint)) :
    (parseHexCString 256 text).isSome := by
  obtain ⟨_, h⟩ := h
  change (do
    let parts ← orReject (splitAtComma marker)
      (AccountMarkerStrConverter.malformed onXrpld key).1
      (AccountMarkerStrConverter.malformed onXrpld key).2
    rejectIf (parseHexCString 256 parts.1).isNone _ _
    rejectIf (Text.parseWhole Text.uint64Max
      (AccountMarkerStrConverter.hintText parts.2)).isNone _ _
    pure marker : Parsed Bytes) = _ at h
  obtain ⟨parts, hparts, h⟩ := bind_eq_ok_iff.mp h
  rw [orReject_eq_ok_iff, hsplit] at hparts
  cases hparts
  obtain ⟨_, hhex, -⟩ := bind_eq_ok_iff.mp h
  exact returns_rejectIf_isNone.mp ⟨_, hhex⟩

/-- The items of the domain read it, and its text is kept. -/
theorem domain_yields : Yields
    [(withCustomError (type [.string]) rpcDomainMalformed "Unable to parse domain." : Item Bytes),
      withCustomError uint256Hex rpcDomainMalformed "Unable to parse domain."]
    asString fun _ text => (parseHexCString 256 text).isSome := by
  have htype : (withCustomError (type [.string]) rpcDomainMalformed "Unable to parse domain." :
      Item Bytes).Checks fun _ => True :=
    .withCustomError (.requirement fun v => safe_rejectIf.mono fun _ _ => trivial) _ _
  have hhex : (withCustomError uint256Hex rpcDomainMalformed "Unable to parse domain." :
      Item Bytes).Checks fun v => v.present = true →
        v.HasString fun text => (parseHexCString 256 text).isSome :=
    .withCustomError (.requirement fun v => HexStringValidator.verify_safe 256 v) _ _
  refine .of_check (.cons htype (.single hhex)) ?_
  intro v hpresent hv
  apply safe_rejectIf_bind
  intro _
  obtain ⟨text, hvalue, htext⟩ := hv.2 hpresent
  rw [FieldView.asString_eq_ok_iff.mpr hvalue]
  exact htext

/-- The domain of a parsed `book_offers`. -/
theorem domain_isHex {root root' : Json} {input : BookOffers.Input}
    (hrun : BookOffers.kInputSpec.parse root = .ok input root')
    (hdomain : input.domain = some text) : (parseHexCString 256 text).isSome := by
  have hset : BookOffers.kInputSpec.SetBy BookOffers.Input.domain _ :=
    .of_nodup BookOffers.nodup_keys rfl (List.mem_of_getElem? (i := 4) rfl)
      (by simp [BookOffers.kInputSpec])
  have hselects : Selects _ _ root (BookOffers.Input.domain input) :=
    hset.selects (field_reads domain_yields (fun _ _ => rfl) rfl fun _ => rfl) rfl hrun
  obtain ⟨-, -, -, hhex⟩ := hselects.reads text hdomain
  exact hhex

/-! ## Accepted is exactly hexadecimal -/

/-- The string is accepted just when it consists of the digits of the width, alone or as
an element among others, and where it is kept as text it does. -/
structure HexExact (text : Bytes) : Prop where
  validators : ∀ bits ∈ hexWidths, ∀ key,
    Returns (HexStringValidator.verify bits ⟨key, some (.string text)⟩) ↔ IsHex bits text
  ledgerHash : ∀ key,
    Returns (ledgerHashHex.parse ⟨key, some (.string text)⟩) ↔ IsHex 256 text
  uint256 : ∀ key, Returns (asUint256.parse ⟨key, some (.string text)⟩) ↔ IsHex 256 text
  uint192 : ∀ key, Returns (asUint192.parse ⟨key, some (.string text)⟩) ↔ IsHex 192 text
  holdersMarker : ∀ key,
    Returns (MptHolders.accountIdHex.parse ⟨key, some (.string text)⟩) ↔ IsHex 160 text
  hex256Element : ∀ key before after,
    Returns (Hex256ArrayValidator.verify
        ⟨key, some (.array (before ++ .string text :: after))⟩) ↔
      IsHex 256 text ∧ ∀ json ∈ before ++ after,
        Returns (Hex256ArrayValidator.verify ⟨key, some (.array [json])⟩)
  uint192Element : ∀ key before after,
    Returns (Uint192ArrayValidator.verify
        ⟨key, some (.array (before ++ .string text :: after))⟩) ↔
      IsHex 192 text ∧ ∀ json ∈ before ++ after,
        Returns (Uint192ArrayValidator.verify ⟨key, some (.array [json])⟩)
  keptHash : ∀ key value,
    ledgerHashHex.parse ⟨key, some (.string text)⟩ = .ok value → IsHex 256 value
  keptDomain : ∀ root root' input,
    BookOffers.kInputSpec.parse root = .ok input root' → input.domain = some text →
      IsHex 256 text
  keptMarker : ∀ key marker hint, splitAtComma marker = some (text, hint) →
    Returns (AccountMarkerValidator.verify ⟨key, some (.string marker)⟩) ∨
      (∃ onXrpld, Returns
        ((accountMarkerStrConverter onXrpld).parse ⟨key, some (.string marker)⟩)) →
    IsHex 256 text

/-- The digits of one of the widths, with a NUL and anything after them. -/
def HexBeforeNul (text : Bytes) : Prop :=
  0 ∈ text ∧ ∃ bits ∈ hexWidths, IsHex bits (cString text)

/-- The one character 0, alone or with a NUL and anything after it. -/
def ZeroBeforeNul (text : Bytes) : Prop := cString text = loneZero

instance (text : Bytes) : Decidable (ZeroBeforeNul text) :=
  inferInstanceAs (Decidable (_ = _))

omit [Build] [LibXrpl] in
theorem not_isHex_loneZero (hbits : bits ∈ hexWidths) : ¬ IsHex bits loneZero := by
  have hall : ∀ bits ∈ hexWidths, ¬ IsHex bits loneZero := by decide
  exact hall bits hbits

omit [Build] [LibXrpl] in
/-- What is read as zero is no identifier. -/
theorem ZeroBeforeNul.not_isHex (h : ZeroBeforeNul text) (hbits : bits ∈ hexWidths) :
    ¬ IsHex bits text := by
  intro hhex
  rw [ZeroBeforeNul, cString_of_noNul hhex.noNul] at h
  exact not_isHex_loneZero hbits (h ▸ hhex)

omit [Build] in
/-- For all other strings the parser asks for the digits. -/
theorem isSome_parseHexCString_iff (hlib : DocumentedHex) (hzero : ¬ ZeroBeforeNul text)
    (htext : ¬ HexBeforeNul text) (hbits : bits ∈ hexWidths) :
    (parseHexCString bits text).isSome ↔ IsHex bits text := by
  rw [hlib.parseHexCString hbits, isSome_readHex?,
    or_iff_right (show cString text ≠ loneZero from hzero)]
  by_cases hnul : 0 ∈ text
  · constructor
    · exact fun hhex => (htext ⟨hnul, bits, hbits, hhex⟩).elim
    · exact fun hhex => (hhex.noNul hnul).elim
  · rw [cString_of_noNul hnul]

omit [Build] in
theorem hexItem_string_iff : HexItem bits (.string text) ↔ (parseHexCString bits text).isSome := by
  constructor
  · rintro ⟨_, ⟨⟩, h⟩
    exact h
  · exact fun h => ⟨text, rfl, h⟩

omit [Build] [LibXrpl] in
/-- An element among others, and the others. -/
theorem forall_mem_insert_iff {P : Json → Prop} {before after : List Json} {json : Json} :
    (∀ other ∈ before ++ json :: after, P other) ↔ P json ∧ ∀ other ∈ before ++ after, P other := by
  simp only [List.forall_mem_append, List.forall_mem_cons]
  exact ⟨fun ⟨hb, hj, ha⟩ => ⟨hj, hb, ha⟩, fun ⟨hj, hb, ha⟩ => ⟨hb, hj, ha⟩⟩

/-- Accepted hexadecimal is exactly hexadecimal, but for the strings whose digits a NUL
follows and those that read `0` up to the first NUL. -/
theorem hexExact_iff (hlib : DocumentedHex) (text : Bytes) :
    HexExact text ↔ ¬ ZeroBeforeNul text ∧ ¬ HexBeforeNul text := by
  constructor
  · intro hexact
    have haccepted (bits : Nat) (hbits : bits ∈ hexWidths)
        (h : cString text = loneZero ∨ IsHex bits (cString text)) : IsHex bits text := by
      refine (hexact.validators bits hbits "").mp ?_
      rw [returns_hexString, hlib.parseHexCString hbits, isSome_readHex?]
      exact h
    constructor
    · intro hzero
      exact hzero.not_isHex (by decide) (haccepted 256 (by decide) (.inl hzero))
    · rintro ⟨hnul, bits, hbits, hhex⟩
      exact (haccepted bits hbits (.inr hhex)).noNul hnul
  · rintro ⟨hzero, htext⟩
    have hparse {bits : Nat} (hbits : bits ∈ hexWidths) :=
      isSome_parseHexCString_iff hlib hzero htext hbits
    refine ⟨?_, ?_, ?_, ?_, ?_, ?_, ?_, ?_, ?_, ?_⟩
    · exact fun bits hbits key => returns_hexString.trans (hparse hbits)
    · exact fun key => returns_hexConverter.trans (hparse (by decide))
    · exact fun key => returns_hexConverter.trans (hparse (by decide))
    · exact fun key => returns_hexConverter.trans (hparse (by decide))
    · exact fun key => returns_hexConverter.trans (hparse (by decide))
    · intro key before after
      rw [returns_hex256Array, forall_mem_insert_iff, hexItem_string_iff, hparse (by decide)]
      simp only [returns_hex256Array, List.mem_singleton, forall_eq]
    · intro key before after
      rw [returns_uint192Array, forall_mem_insert_iff, hexItem_string_iff, hparse (by decide)]
      simp [returns_uint192Array]
    · intro key value hvalue
      obtain ⟨rfl, hsome⟩ := ledgerHashHex_parse hvalue
      exact (hparse (by decide)).mp hsome
    · exact fun root root' input hrun hdomain =>
        (hparse (by decide)).mp (domain_isHex hrun hdomain)
    · rintro key marker hint hsplit (haccepted | ⟨onXrpld, haccepted⟩)
      · exact (hparse (by decide)).mp (returns_accountMarker haccepted hsplit)
      · exact (hparse (by decide)).mp (returns_accountMarkerStr haccepted hsplit)

omit [Build] [LibXrpl] in
/-- A string of nothing but digits. -/
theorem hexExact_iff_zeros : @HexExact .clio hexLib (List.replicate 64 0x30) :=
  (@hexExact_iff .clio hexLib hexLib_documentedHex _).mpr
    ⟨by decide, fun h => absurd h.1 (by decide)⟩

/-- The digits of a hash, a NUL and one byte more. -/
def hashBeforeNul : Bytes := List.replicate 64 0x30 ++ [0, 0x21]

set_option maxRecDepth 4000 in
omit [Build] [LibXrpl] in
/-- The converter keeps the NUL and what follows it. -/
theorem hashBeforeNul_not_hexExact : ¬ @HexExact .clio hexLib hashBeforeNul := by
  intro hexact
  have hkept : @Converter.parse _ (@ledgerHashHex .clio hexLib)
      ⟨"ledger_hash", some (.string hashBeforeNul)⟩ = .ok hashBeforeNul := by
    rfl
  exact absurd (@HexExact.keptHash .clio hexLib _ hexact _ _ hkept) (by decide)

end RpcSpec.Handlers
