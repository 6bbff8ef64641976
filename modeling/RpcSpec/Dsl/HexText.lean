import RpcSpec.Dsl.XrplParse
set_option autoImplicit false

/-!
# Numbers in text

What a text must consist of to spell a number: decimal digits for a sequence,
exactly one hexadecimal digit for every four bits for an identifier.

What the specs get from `base_uint::parseHex` is a little wider: libxrpl documents one
exception to the number of digits, the text `0`, which it reads as zero at every width.
`readHex?` is this reading and `DocumentedHex` that the library reads so; `HexHasNoNul`
is the part of it that no text with a NUL is read.

`parseWhole_eq_some_iff` and `hexValue?_eq_some_iff` are the two grammars as equivalences,
and `readHex?_eq_some_iff` is the reading of the library.
-/

namespace RpcSpec.Dsl

namespace Text

/-! ## Decimal digits -/

/-- The text is made of decimal digits that spell the number. -/
structure Spells (text : Bytes) (n : Nat) : Prop where
  nonempty : text ≠ []
  digits : ∀ c ∈ text, isDigit c = true
  value : decimalValue text = n

theorem fromChars_eq_some_nil_iff {max n : Nat} {text : Bytes} :
    fromChars max text = some (n, []) ↔ Spells text n ∧ n ≤ max := by
  have hall : text.dropWhile isDigit = [] ↔ ∀ c ∈ text, isDigit c = true :=
    List.dropWhile_eq_nil_iff
  have htake : (∀ c ∈ text, isDigit c = true) → text.takeWhile isDigit = text :=
    List.takeWhile_eq_self_iff.mpr
  unfold fromChars
  constructor
  · intro h
    simp only at h
    split at h
    · cases h
    rename_i hcond
    obtain ⟨hvalue, hrest⟩ := Prod.mk.inj (Option.some.inj h)
    have hdigits := hall.mp hrest
    rw [htake hdigits] at hcond hvalue
    simp only [Bool.or_eq_true, List.isEmpty_iff, decide_eq_true_eq, not_or, not_lt] at hcond
    exact ⟨⟨hcond.1, hdigits, hvalue⟩, hvalue ▸ hcond.2⟩
  · rintro ⟨⟨hne, hdigits, rfl⟩, hmax⟩
    simp [htake hdigits, hall.mpr hdigits, hne, hmax]

/-- A whole text is read as a number just when it spells one in range. -/
theorem parseWhole_eq_some_iff {max n : Nat} {text : Bytes} :
    parseWhole max text = some n ↔ Spells text n ∧ n ≤ max := by
  rw [← fromChars_eq_some_nil_iff]
  unfold parseWhole
  split
  · rename_i m hm
    simp [hm]
  · rename_i hnot
    simp only [reduceCtorEq, false_iff]
    exact hnot n

/-- A text with a byte that is no digit spells no number. -/
theorem Spells.isDigit_of_mem {text : Bytes} {n : Nat} (h : Spells text n) {c : UInt8}
    (hc : c ∈ text) (hnot : isDigit c = false) : False := by
  rw [h.digits c hc] at hnot
  cases hnot

/-! ## Hexadecimal digits -/

/-- The value of a hexadecimal digit. -/
def hexDigit? (c : UInt8) : Option Nat :=
  if isDigit c then some (c.toNat - 0x30)
  else if 0x41 ≤ c && c ≤ 0x46 then some (c.toNat - 0x37)
  else if 0x61 ≤ c && c ≤ 0x66 then some (c.toNat - 0x57)
  else none

/-- The byte is a hexadecimal digit. -/
def isHexDigit (c : UInt8) : Bool := (hexDigit? c).isSome

/-- The number spelled by hexadecimal digits. -/
def hexNumber (digits : Bytes) : Nat :=
  digits.foldl (fun acc d => 16 * acc + (hexDigit? d).getD 0) 0

/-- Exactly the digits of a value of the width. -/
def IsHex (bits : Nat) (text : Bytes) : Prop :=
  text.length = bits / 4 ∧ ∀ c ∈ text, isHexDigit c = true

instance (bits : Nat) (text : Bytes) : Decidable (IsHex bits text) :=
  inferInstanceAs (Decidable (_ ∧ _))

/-- The value of the width that a text spells. -/
def hexValue? (bits : Nat) (text : Bytes) : Option (BitVec bits) :=
  if IsHex bits text then some (BitVec.ofNat bits (hexNumber text)) else none

theorem hexValue?_eq_some_iff {bits : Nat} {text : Bytes} {value : BitVec bits} :
    hexValue? bits text = some value ↔
      IsHex bits text ∧ BitVec.ofNat bits (hexNumber text) = value := by
  unfold hexValue?
  split <;> simp_all

theorem isSome_hexValue? {bits : Nat} {text : Bytes} :
    (hexValue? bits text).isSome ↔ IsHex bits text := by
  unfold hexValue?
  split <;> simp_all

/-- Digits are no NUL. -/
theorem IsHex.noNul {bits : Nat} {text : Bytes} (h : IsHex bits text) : 0 ∉ text := by
  intro hmem
  have hzero := h.2 0 hmem
  revert hzero
  decide

/-- The text `0`, the one that is read whatever the width. -/
def loneZero : Bytes := [0x30]

/-- The value a text is read as: `0` is zero, and of any other text exactly the digits
of the width are. -/
def readHex? (bits : Nat) (text : Bytes) : Option (BitVec bits) :=
  if text = loneZero then some 0 else hexValue? bits text

theorem readHex?_loneZero (bits : Nat) : readHex? bits loneZero = some 0 := if_pos rfl

theorem readHex?_eq_some_iff {bits : Nat} {text : Bytes} {value : BitVec bits} :
    readHex? bits text = some value ↔
      text = loneZero ∧ value = 0 ∨
        IsHex bits text ∧ BitVec.ofNat bits (hexNumber text) = value := by
  unfold readHex?
  split
  · rename_i hzero
    subst hzero
    have hnumber : hexNumber loneZero = 0 := rfl
    simp only [Option.some.injEq, true_and, hnumber]
    constructor
    · rintro rfl
      exact .inl rfl
    · rintro (rfl | ⟨-, rfl⟩) <;> rfl
  · rename_i hzero
    simp only [hzero, false_and, false_or, hexValue?_eq_some_iff]

theorem isSome_readHex? {bits : Nat} {text : Bytes} :
    (readHex? bits text).isSome ↔ text = loneZero ∨ IsHex bits text := by
  unfold readHex?
  split <;> simp_all [isSome_hexValue?]

/-- No text with a NUL is read. -/
theorem noNul_of_readHex? {bits : Nat} {text : Bytes} {value : BitVec bits}
    (h : readHex? bits text = some value) : 0 ∉ text := by
  rcases readHex?_eq_some_iff.mp h with ⟨rfl, -⟩ | ⟨hhex, -⟩
  · decide
  · exact hhex.noNul

end Text

/-! ## What is relied on from libxrpl -/

/-- The widths of the identifiers the specs read: accounts, MPT issuances, hashes. -/
def hexWidths : List Nat := [160, 192, 256]

/-- `base_uint::parseHex` as libxrpl documents it: the text must be precisely two
hexadecimal characters for every byte, with the one exception of the text `0`. -/
def DocumentedHex [LibXrpl] : Prop :=
  ∀ bits ∈ hexWidths, ∀ text : Bytes, LibXrpl.parseHex bits text = Text.readHex? bits text

/-- `base_uint::parseHex` takes no text with a NUL in it. -/
def HexHasNoNul [LibXrpl] (bits : Nat) : Prop :=
  ∀ (text : Bytes) (v : BitVec bits), LibXrpl.parseHex bits text = some v → 0 ∉ text

section DocumentedHex

variable [LibXrpl] {bits : Nat} {text : Bytes}

theorem DocumentedHex.parseHexCString (hlib : DocumentedHex) (hbits : bits ∈ hexWidths) :
    parseHexCString bits text = Text.readHex? bits (Text.cString text) :=
  hlib bits hbits _

/-- Without a NUL the C string is the text. -/
theorem DocumentedHex.parseHexCString_of_noNul (hlib : DocumentedHex) (hbits : bits ∈ hexWidths)
    (hnul : 0 ∉ text) : Dsl.parseHexCString bits text = Text.readHex? bits text := by
  rw [hlib.parseHexCString hbits, Text.cString_of_noNul hnul]

theorem DocumentedHex.hexHasNoNul (hlib : DocumentedHex) (hbits : bits ∈ hexWidths) :
    HexHasNoNul bits :=
  fun text _ h => Text.noNul_of_readHex? ((hlib bits hbits text).symm.trans h)

end DocumentedHex

/-! ## A library that reads hexadecimal text

Enough of libxrpl to run the specs on requests that hold no base58. -/

namespace HexLib

/-- The characters a currency code may be made of. -/
def isoCharSet : Bytes :=
  bytesOf "abcdefghijklmnopqrstuvwxyzABCDEFGHIJKLMNOPQRSTUVWXYZ0123456789<>()[]|?!@#$%^&*"
    ++ [0x7b, 0x7d]

/-- The empty code and `XRP` are XRP, three characters are a code at byte 12, and
anything else is hexadecimal. -/
def toCurrency (code : Bytes) : Option Currency :=
  if code = [] ∨ code = bytesOf "XRP" then some 0
  else if code.length = 3 then
    if code.all (isoCharSet.contains ·) then
      some (BitVec.ofNat 160 (code.foldl (fun acc b => 256 * acc + b.toNat) 0) <<< 40)
    else none
  else Text.readHex? 160 code

end HexLib

/-- Hexadecimal as documented, and no base58. -/
abbrev hexLib : LibXrpl where
  parseHex := Text.readHex?
  strUnHex _ := none
  isPublicKey _ := false
  calcAccountID _ := 0
  parseBase58AccountID _ := none
  parseBase58AccountPublic _ := none
  toCurrency := HexLib.toCurrency
  toIssuer := Text.readHex? 160
  issueFromJson _ := none
  kMaxCredentialTypeLength := 64
  kMaxCredentialsArraySize := 8
  txFormats := []

theorem hexLib_documentedHex : @DocumentedHex hexLib := fun _ _ _ => rfl

end RpcSpec.Dsl
