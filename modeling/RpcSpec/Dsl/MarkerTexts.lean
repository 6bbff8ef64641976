import RpcSpec.Dsl.Converters
import RpcSpec.Dsl.HexText
import RpcSpec.Foundation.Agreement
set_option autoImplicit false

/-!
# Account markers

A marker is the hash of a page in hexadecimal, a comma and a hint in decimal.  xrpld reads
the hint up to the next comma and lets a plus sign precede it; Clio, and the validator that
both share, take the hint as it is.

`markerGrammar` states the grammar of each parser as an equivalence, over all texts, and
how far apart the two servers are.
-/

namespace RpcSpec.Dsl

open RpcSpec.Foundation Text

/-! ## The grammars -/

/-- A hash, a comma, and digits that spell a number of 64 bits. -/
def ClioMarker (text : Bytes) : Prop :=
  ∃ hex hint n, text = hex ++ 0x2c :: hint ∧ IsHex 256 hex ∧ Spells hint n ∧ n < 2 ^ 64

/-- A hint with at most one plus sign before its digits and with what follows the next comma. -/
def XrpldHint (hint : Bytes) : Prop :=
  ∃ sign digits rest n, hint = sign ++ digits ++ rest ∧ (sign = [] ∨ sign = [0x2b]) ∧
    Spells digits n ∧ n < 2 ^ 64 ∧ (rest = [] ∨ rest.head? = some 0x2c)

/-- A hash, a comma, and a hint as xrpld reads one. -/
def XrpldMarker (text : Bytes) : Prop :=
  ∃ hex hint, text = hex ++ 0x2c :: hint ∧ IsHex 256 hex ∧ XrpldHint hint

/-- What Clio accepts xrpld accepts. -/
theorem ClioMarker.xrpld {text : Bytes} (h : ClioMarker text) : XrpldMarker text := by
  obtain ⟨hex, hint, n, rfl, hhex, hspells, hn⟩ := h
  exact ⟨hex, hint, rfl, hhex, [], hint, [], n, by simp, .inl rfl, hspells, hn, .inl rfl⟩

/-! ## What the parsers look at -/

theorem splitAtComma_eq_some_iff {text hex hint : Bytes} :
    splitAtComma text = some (hex, hint) ↔ text = hex ++ 0x2c :: hint ∧ 0x2c ∉ hex := by
  induction text generalizing hex with
  | nil => simp [splitAtComma]
  | cons c rest ih =>
      by_cases hc : c = 0x2c
      · subst hc
        simp only [splitAtComma, List.contains_cons, BEq.rfl, Bool.true_or, if_true,
          Option.some.injEq, Prod.mk.injEq]
        constructor
        · rintro ⟨hhex, hhint⟩
          obtain rfl : [] = hex := by simpa using hhex
          obtain rfl : rest = hint := by simpa using hhint
          exact ⟨rfl, List.not_mem_nil⟩
        · rintro ⟨heq, hnot⟩
          cases hex with
          | nil =>
              obtain ⟨-, rfl⟩ := List.cons.inj heq
              simp
          | cons d more =>
              obtain ⟨rfl, -⟩ := List.cons.inj heq
              exact absurd (List.mem_cons_self) hnot
      · have hsplit : splitAtComma (c :: rest) =
            (splitAtComma rest).map fun parts => (c :: parts.1, parts.2) := by
          have hne : (0x2c == c) = false := by simpa using Ne.symm hc
          simp only [splitAtComma, List.contains_cons, hne, Bool.false_or]
          split <;> simp [hc]
        rw [hsplit, Option.map_eq_some_iff]
        constructor
        · rintro ⟨⟨front, back⟩, hparts, heq⟩
          obtain ⟨rfl, rfl⟩ := Prod.mk.inj heq
          obtain ⟨rfl, hnot⟩ := ih.mp hparts
          exact ⟨rfl, by simpa [Ne.symm hc] using hnot⟩
        · rintro ⟨heq, hnot⟩
          cases hex with
          | nil =>
              obtain ⟨rfl, -⟩ := List.cons.inj heq
              exact absurd rfl hc
          | cons d more =>
              obtain ⟨rfl, rfl⟩ := List.cons.inj heq
              exact ⟨(more, hint), ih.mpr ⟨rfl, fun h => hnot (List.mem_cons_of_mem _ h)⟩, rfl⟩

/-- A comma is no hexadecimal digit. -/
theorem comma_not_mem {bits : Nat} {hex : Bytes} (h : IsHex bits hex) : 0x2c ∉ hex :=
  fun hmem => absurd (h.2 _ hmem) (by decide)

theorem isSome_parseWhole_iff {digits : Bytes} :
    (parseWhole uint64Max digits).isSome ↔ ∃ n, Spells digits n ∧ n < 2 ^ 64 := by
  have hmax (n : Nat) : n ≤ uint64Max ↔ n < 2 ^ 64 := by
    change n ≤ 18446744073709551615 ↔ _
    omega
  rw [Option.isSome_iff_exists]
  simp only [parseWhole_eq_some_iff, hmax]

/-- The digits of a number are neither a comma nor a sign. -/
theorem Text.Spells.takeWhile_append {digits rest : Bytes} {n : Nat} (h : Spells digits n)
    (hrest : rest = [] ∨ rest.head? = some 0x2c) :
    (digits ++ rest).takeWhile (· ≠ 0x2c) = digits := by
  have hall : ∀ c ∈ digits, decide (c ≠ 0x2c) = true := by
    intro c hc
    apply decide_eq_true
    intro heq
    subst heq
    exact h.isDigit_of_mem hc (by decide)
  rw [List.takeWhile_append_of_pos hall]
  rcases hrest with rfl | hhead
  · simp
  · cases rest with
    | nil => cases hhead
    | cons c more =>
        obtain rfl : c = 0x2c := Option.some.inj hhead
        simp

/-- What is left after the next comma. -/
theorem dropWhile_comma (hint : Bytes) :
    hint.dropWhile (· ≠ 0x2c) = [] ∨ (hint.dropWhile (· ≠ 0x2c)).head? = some 0x2c := by
  cases hrest : hint.dropWhile (· ≠ 0x2c) with
  | nil => exact .inl rfl
  | cons c more =>
      have hstop := List.head?_dropWhile_not (· ≠ 0x2c) hint
      rw [hrest] at hstop
      exact .inr (congrArg some (by simpa using hstop))

section Hint

variable [Build] {hint : Bytes}

open AccountMarkerStrConverter in
theorem hintText_clio (hclio : kIsXrpldBuild = false) : hintText hint = hint := by
  simp [hintText, hclio]

open AccountMarkerStrConverter in
/-- The digits of a hint as xrpld reads it. -/
theorem xrpldHint_iff (hxrpld : kIsXrpldBuild = true) :
    XrpldHint hint ↔ ∃ n, Spells (hintText hint) n ∧ n < 2 ^ 64 := by
  have htext : hintText hint = if (hint.takeWhile (· ≠ 0x2c)).head? = some 0x2b then
      (hint.takeWhile (· ≠ 0x2c)).tail else hint.takeWhile (· ≠ 0x2c) := by
    simp only [hintText, hxrpld, if_true]
  rw [htext]
  constructor
  · rintro ⟨sign, digits, rest, n, rfl, hsign, hspells, hn, hrest⟩
    have hdigits := hspells.takeWhile_append hrest
    rcases hsign with rfl | rfl
    · have hhead : ¬ digits.head? = some 0x2b := by
        intro hhead
        cases digits with
        | nil => cases hhead
        | cons c more =>
            obtain rfl : c = 0x2b := Option.some.inj hhead
            exact hspells.isDigit_of_mem (List.mem_cons_self) (by decide)
      rw [List.nil_append, hdigits, if_neg hhead]
      exact ⟨n, hspells, hn⟩
    · have hsigned : (([0x2b] ++ digits ++ rest).takeWhile (· ≠ 0x2c) : Bytes) =
          0x2b :: digits := by
        change ((0x2b :: (digits ++ rest)).takeWhile (· ≠ 0x2c) : Bytes) = _
        rw [List.takeWhile_cons_of_pos (by decide), hdigits]
      rw [hsigned]
      exact ⟨n, hspells, hn⟩
  · have hcut := List.takeWhile_append_dropWhile (p := fun c : UInt8 => decide (c ≠ 0x2c))
      (l := hint)
    rintro ⟨n, hspells, hn⟩
    split at hspells
    · rename_i hhead
      obtain ⟨c, more, hmore⟩ : ∃ c more, hint.takeWhile (· ≠ 0x2c) = c :: more := by
        cases htake : hint.takeWhile (· ≠ 0x2c) with
        | nil =>
            rw [htake] at hhead
            cases hhead
        | cons c more => exact ⟨c, more, rfl⟩
      rw [hmore] at hhead hspells hcut
      obtain rfl : c = 0x2b := Option.some.inj hhead
      exact ⟨[0x2b], more, _, n, hcut.symm, .inr rfl, hspells, hn, dropWhile_comma hint⟩
    · exact ⟨[], _, _, n, hcut.symm, .inl rfl, hspells, hn, dropWhile_comma hint⟩

end Hint

/-! ## What the parsers accept -/

section Accepted

variable [Build] [LibXrpl] {key : String} {text : Bytes}

open AccountMarkerStrConverter in
theorem accountMarkerStr_parse_eq_ok_iff {onXrpld : MalformedMarker} {value : Bytes} :
    (accountMarkerStrConverter onXrpld).parse ⟨key, some (.string text)⟩ = .ok value ↔
      value = text ∧ ∃ hex hint, splitAtComma text = some (hex, hint) ∧
        (parseHexCString 256 hex).isSome ∧ (parseWhole uint64Max (hintText hint)).isSome := by
  change (do
    let parts ← orReject (splitAtComma text) (malformed onXrpld key).1 (malformed onXrpld key).2
    rejectIf (parseHexCString 256 parts.1).isNone _ _
    rejectIf (parseWhole uint64Max (hintText parts.2)).isNone _ _
    pure text : Parsed Bytes) = _ ↔ _
  simp only [bind_eq_ok_iff, orReject_eq_ok_iff, rejectIf_eq_ok_iff, pure_eq_ok_iff,
    Option.isNone_eq_false_iff]
  constructor
  · rintro ⟨⟨hex, hint⟩, hsplit, -, hhex, -, hhint, rfl⟩
    exact ⟨rfl, hex, hint, hsplit, hhex, hhint⟩
  · rintro ⟨rfl, hex, hint, hsplit, hhex, hhint⟩
    exact ⟨(hex, hint), hsplit, (), hhex, (), hhint, rfl⟩

theorem accountMarker_verify_eq_ok_iff {u : Unit} :
    AccountMarkerValidator.verify ⟨key, some (.string text)⟩ = .ok u ↔
      ∃ hex hint, splitAtComma text = some (hex, hint) ∧
        (parseHexCString 256 hex).isSome ∧ (parseWhole uint64Max hint).isSome := by
  change (do
    let parts ← orReject (splitAtComma text) kMalformedField (malformedCursorMessage key)
    rejectIf (parseHexCString 256 parts.1).isNone _ _
    rejectIf (parseWhole uint64Max parts.2).isNone _ _ : MaybeError) = _ ↔ _
  simp only [bind_eq_ok_iff, orReject_eq_ok_iff, rejectIf_eq_ok_iff, Option.isNone_eq_false_iff]
  constructor
  · rintro ⟨⟨hex, hint⟩, hsplit, -, hhex, hhint⟩
    exact ⟨hex, hint, hsplit, hhex, hhint⟩
  · rintro ⟨hex, hint, hsplit, hhex, hhint⟩
    exact ⟨(hex, hint), hsplit, (), hhex, hhint⟩

end Accepted

section Grammar

variable [LibXrpl] {text : Bytes}

/-- `uint256::parseHex` of a C string without a NUL succeeds on 64 hexadecimal digits. -/
def HexHash : Prop :=
  ∀ text : Bytes, 0 ∉ text → ((LibXrpl.parseHex 256 text).isSome ↔ IsHex 256 text)

/-- The two parts of a text without a NUL. -/
theorem exists_split_iff (hhex : HexHash) (hnul : 0 ∉ text) {P : Bytes → Prop} :
    (∃ hex hint, splitAtComma text = some (hex, hint) ∧ (parseHexCString 256 hex).isSome ∧
        P hint) ↔
      ∃ hex hint, text = hex ++ 0x2c :: hint ∧ IsHex 256 hex ∧ P hint := by
  have hparse {hex hint : Bytes} (heq : text = hex ++ 0x2c :: hint) :
      (parseHexCString 256 hex).isSome ↔ IsHex 256 hex := by
    have hfront : 0 ∉ hex := fun h => hnul (heq ▸ List.mem_append_left _ h)
    rw [parseHexCString, cString_of_noNul hfront]
    exact hhex hex hfront
  constructor
  · rintro ⟨hex, hint, hsplit, hsome, hP⟩
    obtain ⟨heq, -⟩ := splitAtComma_eq_some_iff.mp hsplit
    exact ⟨hex, hint, heq, (hparse heq).mp hsome, hP⟩
  · rintro ⟨hex, hint, heq, hisHex, hP⟩
    exact ⟨hex, hint, splitAtComma_eq_some_iff.mpr ⟨heq, comma_not_mem hisHex⟩,
      (hparse heq).mpr hisHex, hP⟩

theorem clioMarker_iff (hhex : HexHash) (hnul : 0 ∉ text) :
    (∃ hex hint, splitAtComma text = some (hex, hint) ∧ (parseHexCString 256 hex).isSome ∧
        (parseWhole uint64Max hint).isSome) ↔ ClioMarker text := by
  rw [exists_split_iff hhex hnul]
  simp only [isSome_parseWhole_iff]
  constructor
  · rintro ⟨hex, hint, heq, hisHex, n, hspells, hn⟩
    exact ⟨hex, hint, n, heq, hisHex, hspells, hn⟩
  · rintro ⟨hex, hint, n, heq, hisHex, hspells, hn⟩
    exact ⟨hex, hint, heq, hisHex, n, hspells, hn⟩

/-- Which strings are account markers, and what is made of one. -/
structure MarkerGrammar (text : Bytes) : Prop where
  clio : ∀ onXrpld key value,
    (@accountMarkerStrConverter .clio _ onXrpld).parse ⟨key, some (.string text)⟩ = .ok value ↔
      value = text ∧ ClioMarker text
  xrpld : ∀ onXrpld key value,
    (@accountMarkerStrConverter .xrpld _ onXrpld).parse ⟨key, some (.string text)⟩ = .ok value ↔
      value = text ∧ XrpldMarker text
  widened : ∀ onXrpld key value,
    (@accountMarkerStrConverter .clio _ onXrpld).parse ⟨key, some (.string text)⟩ = .ok value →
      (@accountMarkerStrConverter .xrpld _ onXrpld).parse ⟨key, some (.string text)⟩ = .ok value
  validator : ∀ build key,
    @AccountMarkerValidator.verify build _ ⟨key, some (.string text)⟩ = .ok () ↔ ClioMarker text

/-- Markers are what the grammars say. -/
theorem markerGrammar (hhex : HexHash) (hnul : 0 ∉ text) : MarkerGrammar text := by
  have hclio (onXrpld : MalformedMarker) (key : String) (value : Bytes) :
      (@accountMarkerStrConverter .clio _ onXrpld).parse ⟨key, some (.string text)⟩ = .ok value ↔
        value = text ∧ ClioMarker text := by
    rw [@accountMarkerStr_parse_eq_ok_iff .clio, ← clioMarker_iff hhex hnul]
    simp only [@hintText_clio .clio _ rfl]
  have hxrpld (onXrpld : MalformedMarker) (key : String) (value : Bytes) :
      (@accountMarkerStrConverter .xrpld _ onXrpld).parse ⟨key, some (.string text)⟩ = .ok value ↔
        value = text ∧ XrpldMarker text := by
    rw [@accountMarkerStr_parse_eq_ok_iff .xrpld, exists_split_iff hhex hnul]
    simp only [isSome_parseWhole_iff, ← @xrpldHint_iff .xrpld _ rfl]
    rfl
  refine ⟨hclio, hxrpld, ?_, ?_⟩
  · intro onXrpld key value h
    obtain ⟨hvalue, hmarker⟩ := (hclio onXrpld key value).mp h
    exact (hxrpld onXrpld key value).mpr ⟨hvalue, hmarker.xrpld⟩
  · intro build key
    rw [@accountMarker_verify_eq_ok_iff build, clioMarker_iff hhex hnul]

end Grammar

/-- A library that takes the digits of a hash and nothing else for one. -/
abbrev digitsOnlyLib : LibXrpl := { hexLib with parseHex := hexValue? }

theorem digitsOnlyLib_hexHash : @HexHash digitsOnlyLib := fun _ _ => isSome_hexValue?

set_option maxRecDepth 4000 in
/-- A page of zeros with the hint 7. -/
theorem markerGrammar_zeros :
    @MarkerGrammar digitsOnlyLib (List.replicate 64 0x30 ++ [0x2c, 0x37]) :=
  @markerGrammar digitsOnlyLib _ digitsOnlyLib_hexHash (by decide)

end RpcSpec.Dsl
