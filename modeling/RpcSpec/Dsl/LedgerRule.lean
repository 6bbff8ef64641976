import RpcSpec.Dsl.TypedSpec
import RpcSpec.Dsl.HexText
set_option autoImplicit false

/-!
# The rule of ledger selection

Which ledger a request selects, said of the values it holds.  On xrpld at most one of
the three keys may be there; Clio reads two of them, and a hash goes before an index.
`ledgerSelector_selects` is that the field selects by the rule and refuses the rest.
-/

namespace RpcSpec.Dsl

open RpcSpec.Foundation Text

/-! ## The values a ledger is named by -/

/-- The integer a value is. -/
def Json.integer? : Json → Option Int
  | .int64 n => some n.toInt
  | .uint64 n => some n.toNat
  | _ => none

/-- A string of 64 hexadecimal digits, or the one character 0 for the hash of zeros. -/
inductive NamesHash : Json → LedgerSpecifier → Prop
  | zero : NamesHash (.string loneZero) (.hash 0)
  | hex {text : Bytes} (h : IsHex 256 text) :
      NamesHash (.string text) (.hash (BitVec.ofNat 256 (hexNumber text)))

/-- A sequence: a 32-bit integer, or digits that spell one. -/
inductive NamesSequence : Json → LedgerSpecifier → Prop
  | integer {json : Json} {n : Nat} (hint : json.integer? = some (n : Int)) (hn : n < 2 ^ 32) :
      NamesSequence json (.sequence (UInt32.ofNat n))
  | digits {text : Bytes} {n : Nat} (h : Spells text n) (hn : n < 2 ^ 32) :
      NamesSequence (.string text) (.sequence (UInt32.ofNat n))

/-- An index, as Clio reads it. -/
inductive ClioIndex : Json → LedgerSpecifier → Prop
  | validated : ClioIndex (.string (bytesOf "validated")) (.shortcut .validated)
  | sequence {json : Json} {ledger : LedgerSpecifier} (h : NamesSequence json ledger) :
      ClioIndex json ledger

/-- An index, as xrpld reads it. -/
inductive XrpldIndex : Json → LedgerSpecifier → Prop
  | empty : XrpldIndex (.string []) (.shortcut .current)
  | current : XrpldIndex (.string (bytesOf "current")) (.shortcut .current)
  | validated : XrpldIndex (.string (bytesOf "validated")) (.shortcut .validated)
  | closed : XrpldIndex (.string (bytesOf "closed")) (.shortcut .closed)
  | sequence {json : Json} {ledger : LedgerSpecifier} (h : NamesSequence json ledger) :
      XrpldIndex json ledger
  | signed {text : Bytes} {n : Nat} (h : Spells text n) (hn : n < 2 ^ 32) :
      XrpldIndex (.string (0x2b :: text)) (.sequence (UInt32.ofNat n))

/-- A string as long as a hash. -/
def Json.isHashLong : Json → Bool
  | .string text => text.length == 64
  | _ => false

/-- The `ledger` of older requests: as long as a hash it must be one. -/
def LegacyLedger (json : Json) (ledger : LedgerSpecifier) : Prop :=
  if json.isHashLong then NamesHash json ledger else XrpldIndex json ledger

/-! ## The ledger a request selects -/

/-- The keys of xrpld's rule that are there. -/
def ledgerKeysNamed (root : Json) : List String :=
  ["ledger", "ledger_hash", "ledger_index"].filter fun key => (root.member? key).isSome

/-- xrpld's rule: no key, or one and its value names the ledger. -/
inductive XrpldSelects (root : Json) : LedgerSpecifier → Prop
  | unspecified (h : ledgerKeysNamed root = []) : XrpldSelects root .unspecified
  | ledger {json : Json} {ledger : LedgerSpecifier} (h : ledgerKeysNamed root = ["ledger"])
      (hjson : root.member? "ledger" = some json) (hledger : LegacyLedger json ledger) :
      XrpldSelects root ledger
  | hash {json : Json} {ledger : LedgerSpecifier} (h : ledgerKeysNamed root = ["ledger_hash"])
      (hjson : root.member? "ledger_hash" = some json) (hledger : NamesHash json ledger) :
      XrpldSelects root ledger
  | index {json : Json} {ledger : LedgerSpecifier}
      (h : ledgerKeysNamed root = ["ledger_index"])
      (hjson : root.member? "ledger_index" = some json) (hledger : XrpldIndex json ledger) :
      XrpldSelects root ledger

/-- Clio's rule: both values must name a ledger, the hash is taken, and without either
nothing is. -/
inductive ClioSelects (root : Json) : Option LedgerSpecifier → Prop
  | absent (hhash : root.member? "ledger_hash" = none)
      (hindex : root.member? "ledger_index" = none) : ClioSelects root none
  | hash {json : Json} {ledger : LedgerSpecifier} (hhash : root.member? "ledger_hash" = some json)
      (hledger : NamesHash json ledger)
      (hindex : ∀ index, root.member? "ledger_index" = some index →
        ∃ other, ClioIndex index other) : ClioSelects root (some ledger)
  | index {json : Json} {ledger : LedgerSpecifier}
      (hhash : root.member? "ledger_hash" = none)
      (hindex : root.member? "ledger_index" = some json) (hledger : ClioIndex json ledger) :
      ClioSelects root (some ledger)

/-- The rule of the server the build is for. -/
def LedgerRule [Build] (root : Json) (chosen : Option LedgerSpecifier) : Prop :=
  if kIsXrpldBuild then ∃ ledger, chosen = some ledger ∧ XrpldSelects root ledger
  else ClioSelects root chosen

/-- The strings under the keys of the request hold no NUL. -/
def NoNulStrings (root : Json) : Prop :=
  ∀ key text, root.member? key = some (.string text) → 0 ∉ text

/-! ## Each form is read by its rule -/

section Integers

variable {key : String} {json : Json}

theorem asUint32_of_integer {n : Nat} (h : json.integer? = some (n : Int)) (hn : n < 2 ^ 32) :
    FieldView.isUint32 ⟨key, some json⟩ = true ∧
      FieldView.asUint32 ⟨key, some json⟩ = .ok (UInt32.ofNat n) := by
  cases json with
  | int64 m =>
      have hint : m.toInt = n := Option.some.inj h
      have hnonneg : 0 ≤ m := by
        rw [Int64.le_iff_toInt_le, hint]
        simp
      have hmax : m ≤ 0xffffffff := by
        rw [Int64.le_iff_toInt_le, hint]
        change (n : Int) ≤ 4294967295
        omega
      have hnat : m.toUInt64.toNat = n := by
        rw [Int64.toNat_toUInt64_of_le hnonneg, ← Int64.toNat_toInt, hint, Int.toNat_natCast]
      have hvalue : m.toUInt64.toUInt32 = UInt32.ofNat n := by
        rw [← hnat]
        rfl
      simp [FieldView.isUint32, FieldView.asUint32, hnonneg, hmax, hvalue, Pure.pure, Except.pure]
  | uint64 m =>
      have hnat : m.toNat = n := Int.ofNat.inj (Option.some.inj h)
      have hmax : m ≤ FieldView.uint32Max := by
        rw [UInt64.le_iff_toNat_le]
        change m.toNat ≤ 4294967295
        omega
      have hvalue : m.toUInt32 = UInt32.ofNat n := by
        rw [← hnat]
        rfl
      simp [FieldView.isUint32, FieldView.asUint32, hmax, hvalue, Pure.pure, Except.pure]
  | _ => cases h

theorem integer_of_isUint32 (h : FieldView.isUint32 ⟨key, some json⟩ = true) :
    ∃ n : Nat, json.integer? = some (n : Int) ∧ n < 2 ^ 32 := by
  cases json with
  | int64 m =>
      simp only [FieldView.isUint32, Bool.and_eq_true, decide_eq_true_eq,
        Int64.le_iff_toInt_le] at h
      obtain ⟨hnonneg, hmax⟩ := h
      change 0 ≤ m.toInt at hnonneg
      change m.toInt ≤ 4294967295 at hmax
      exact ⟨m.toInt.toNat, by simp only [Json.integer?, Int.toNat_of_nonneg hnonneg], by omega⟩
  | uint64 m =>
      simp only [FieldView.isUint32, decide_eq_true_eq, UInt64.le_iff_toNat_le] at h
      change m.toNat ≤ 4294967295 at h
      exact ⟨m.toNat, rfl, by omega⟩
  | _ => cases h

/-- Of the values that are no string, the 32-bit integers are read as a sequence. -/
theorem ite_asUint32_eq_ok_iff {refused : Failure} {ledger : LedgerSpecifier}
    (h : FieldView.isString ⟨key, some json⟩ = false) :
    (if FieldView.isUint32 ⟨key, some json⟩ then .sequence <$> FieldView.asUint32 ⟨key, some json⟩
      else throw refused : Parsed LedgerSpecifier) = .ok ledger ↔ NamesSequence json ledger := by
  constructor
  · intro hok
    split at hok
    · rename_i huint
      obtain ⟨n, hint, hn⟩ := integer_of_isUint32 huint
      rw [(asUint32_of_integer hint hn).2] at hok
      cases hok
      exact .integer hint hn
    · cases hok
  · rintro (⟨hint, hn⟩ | _)
    · rw [if_pos (asUint32_of_integer hint hn).1, (asUint32_of_integer hint hn).2]
      rfl
    · cases h

end Integers

theorem isString_eq_true_iff {key : String} {json : Json} :
    FieldView.isString ⟨key, some json⟩ = true ↔ ∃ text, json = .string text := by
  cases json <;> simp [FieldView.isString]

/-- A text spells a sequence just when it names one. -/
theorem sequenceFromText_eq_some_iff {text : Bytes} {ledger : LedgerSpecifier} :
    sequenceFromText text = some ledger ↔
      ∃ n, Spells text n ∧ n < 2 ^ 32 ∧ ledger = .sequence (UInt32.ofNat n) := by
  simp only [sequenceFromText, Option.map_eq_some_iff, parseWhole_eq_some_iff, uint32Max]
  constructor
  · rintro ⟨n, ⟨hspells, hmax⟩, rfl⟩
    exact ⟨n, hspells, by omega, rfl⟩
  · rintro ⟨n, hspells, hmax, rfl⟩
    exact ⟨n, ⟨hspells, by omega⟩, rfl⟩

theorem namesSequence_string_iff {text : Bytes} {ledger : LedgerSpecifier} :
    NamesSequence (.string text) ledger ↔
      ∃ n, Spells text n ∧ n < 2 ^ 32 ∧ ledger = .sequence (UInt32.ofNat n) := by
  constructor
  · rintro (⟨hint, -⟩ | ⟨hspells, hn⟩)
    · cases hint
    · exact ⟨_, hspells, hn, rfl⟩
  · rintro ⟨n, hspells, hn, rfl⟩
    exact .digits hspells hn

/-- What spells a number is none of the words. -/
theorem Text.Spells.ne_word {text word : Bytes} {n : Nat} (h : Spells text n)
    (hword : word.any (fun c => !isDigit c) = true) : text ≠ word := by
  rintro rfl
  obtain ⟨c, hc, hnot⟩ := List.any_eq_true.mp hword
  exact h.isDigit_of_mem hc (by simpa using hnot)

/-- One plus sign may go before the digits. -/
theorem sequenceFromText_signed_eq_some_iff {text : Bytes} {ledger : LedgerSpecifier} :
    sequenceFromText (if text.head? = some 0x2b then text.tail else text) = some ledger ↔
      NamesSequence (.string text) ledger ∨
        ∃ digits n, text = 0x2b :: digits ∧ Spells digits n ∧ n < 2 ^ 32 ∧
          ledger = .sequence (UInt32.ofNat n) := by
  rw [sequenceFromText_eq_some_iff, namesSequence_string_iff]
  by_cases hsign : text.head? = some 0x2b
  · obtain ⟨digits, rfl⟩ := List.head?_eq_some_iff.mp hsign
    rw [if_pos hsign]
    constructor
    · rintro ⟨n, hspells, hn, rfl⟩
      exact .inr ⟨digits, n, rfl, hspells, hn, rfl⟩
    · rintro (⟨n, hspells, -, -⟩ | ⟨_, n, ⟨⟩, hspells, hn, rfl⟩)
      · exact (hspells.isDigit_of_mem List.mem_cons_self (by decide)).elim
      · exact ⟨n, hspells, hn, rfl⟩
  · rw [if_neg hsign]
    constructor
    · exact .inl
    · rintro (h | ⟨digits, n, rfl, -⟩)
      · exact h
      · exact (hsign rfl).elim

section Forms

variable [Build] {key : String} {json : Json} {ledger : LedgerSpecifier}

theorem ledgerSpecifierFromIndex_eq_ok_iff :
    ledgerSpecifierFromIndex ⟨key, some json⟩ = .ok ledger ↔ ClioIndex json ledger := by
  cases hstring : FieldView.isString ⟨key, some json⟩ with
  | true =>
      obtain ⟨text, rfl⟩ := isString_eq_true_iff.mp hstring
      change (if text = bytesOf "validated" then pure (.shortcut .validated)
        else orReject (sequenceFromText text) _ _ : Parsed LedgerSpecifier) = _ ↔ _
      split
      · rename_i htext
        subst htext
        constructor
        · rintro ⟨⟩
          exact .validated
        · rintro (_ | hsequence)
          · rfl
          · obtain ⟨n, hspells, -, -⟩ := namesSequence_string_iff.mp hsequence
            exact (hspells.ne_word (by decide) rfl).elim
      · rename_i htext
        rw [orReject_eq_ok_iff, sequenceFromText_eq_some_iff, ← namesSequence_string_iff]
        constructor
        · exact .sequence
        · rintro (_ | hsequence)
          · exact (htext rfl).elim
          · exact hsequence
  | false =>
      have hread : ledgerSpecifierFromIndex ⟨key, some json⟩ =
          if FieldView.isUint32 ⟨key, some json⟩ then
            .sequence <$> FieldView.asUint32 ⟨key, some json⟩
          else throw (unexpected kMalformedField malformedLedgerIndexMessage) := by
        simp [ledgerSpecifierFromIndex, hstring]
      rw [hread, ite_asUint32_eq_ok_iff hstring]
      constructor
      · exact .sequence
      · rintro (_ | hsequence)
        · cases hstring
        · exact hsequence

omit [Build] in
theorem xrpldLedgerFromIndex_eq_ok_iff :
    xrpldLedgerFromIndex ⟨key, some json⟩ = .ok ledger ↔ XrpldIndex json ledger := by
  cases hstring : FieldView.isString ⟨key, some json⟩ with
  | true =>
      obtain ⟨text, rfl⟩ := isString_eq_true_iff.mp hstring
      change (if text = bytesOf "current" || text.isEmpty then pure (.shortcut .current)
        else if text = bytesOf "validated" then pure (.shortcut .validated)
        else if text = bytesOf "closed" then pure (.shortcut .closed)
        else orReject (sequenceFromText (if text.head? = some 0x2b then text.tail else text)) _ _
        : Parsed LedgerSpecifier) = _ ↔ _
      constructor
      · intro hok
        split at hok
        · rename_i htext
          cases hok
          rcases (by simpa using htext : text = bytesOf "current" ∨ text = []) with rfl | rfl
          · exact .current
          · exact .empty
        split at hok
        · rename_i htext
          cases hok
          exact htext ▸ .validated
        split at hok
        · rename_i htext
          cases hok
          exact htext ▸ .closed
        rw [orReject_eq_ok_iff, sequenceFromText_signed_eq_some_iff] at hok
        rcases hok with hsequence | ⟨digits, n, rfl, hspells, hn, rfl⟩
        · exact .sequence hsequence
        · exact .signed hspells hn
      · intro hindex
        rcases hindex with _ | _ | _ | _ | hsequence | ⟨hspells, hn⟩
        case sequence =>
          obtain ⟨n, hspells, -, -⟩ := namesSequence_string_iff.mp hsequence
          have hcurrent : text ≠ bytesOf "current" := hspells.ne_word (by decide)
          rw [if_neg (by simp [hcurrent, hspells.nonempty]),
            if_neg (hspells.ne_word (by decide)), if_neg (hspells.ne_word (by decide)),
            orReject_eq_ok_iff, sequenceFromText_signed_eq_some_iff]
          exact .inl hsequence
        case signed =>
          rw [if_neg (by simp [bytesOf]), if_neg (by simp [bytesOf]), if_neg (by simp [bytesOf]),
            orReject_eq_ok_iff, sequenceFromText_signed_eq_some_iff]
          exact .inr ⟨_, _, rfl, hspells, hn, rfl⟩
        all_goals rfl
  | false =>
      have hread : xrpldLedgerFromIndex ⟨key, some json⟩ =
          if FieldView.isUint32 ⟨key, some json⟩ then
            .sequence <$> FieldView.asUint32 ⟨key, some json⟩
          else throw (unexpected kMalformedField
            (expectedFieldMessage key "string or number")) := by
        simp [xrpldLedgerFromIndex, hstring]
      rw [hread, ite_asUint32_eq_ok_iff hstring]
      constructor
      · exact .sequence
      · rintro (_ | _ | _ | _ | hsequence | _)
        case sequence => exact hsequence
        all_goals cases hstring

variable [LibXrpl]

omit [Build] in
theorem parseHexCString_eq_hash_iff (hlib : DocumentedHex) {text : Bytes} (hnul : 0 ∉ text) :
    (∃ hash, parseHexCString 256 text = some hash ∧ .hash hash = ledger) ↔
      NamesHash (.string text) ledger := by
  rw [hlib.parseHexCString_of_noNul (by decide) hnul]
  constructor
  · rintro ⟨hash, hvalue, rfl⟩
    rcases readHex?_eq_some_iff.mp hvalue with ⟨rfl, rfl⟩ | ⟨hhex, rfl⟩
    · exact .zero
    · exact .hex hhex
  · rintro (_ | hhex)
    · exact ⟨0, readHex?_loneZero 256, rfl⟩
    · exact ⟨_, readHex?_eq_some_iff.mpr (.inr ⟨hhex, rfl⟩), rfl⟩

omit [Build] in
theorem xrpldLedgerFromHash_eq_ok_iff (hlib : DocumentedHex) {text : Bytes} (hnul : 0 ∉ text) :
    xrpldLedgerFromHash ⟨key, some (.string text)⟩ = .ok ledger ↔
      NamesHash (.string text) ledger := by
  change (do let hash ← orReject (parseHexCString 256 text) _ _; pure (.hash hash) :
    Parsed LedgerSpecifier) = _ ↔ _
  rw [bind_eq_ok_iff, ← parseHexCString_eq_hash_iff hlib hnul]
  simp only [orReject_eq_ok_iff, pure_eq_ok_iff]

theorem ledgerSpecifierFromHash_eq_ok_iff (hlib : DocumentedHex)
    (hnul : ∀ text, json = .string text → 0 ∉ text) :
    ledgerSpecifierFromHash ⟨key, some json⟩ = .ok ledger ↔ NamesHash json ledger := by
  cases hstring : FieldView.isString ⟨key, some json⟩ with
  | true =>
      obtain ⟨text, rfl⟩ := isString_eq_true_iff.mp hstring
      change (do let hash ← orReject (parseHexCString 256 text) _ _; pure (.hash hash) :
        Parsed LedgerSpecifier) = _ ↔ _
      rw [bind_eq_ok_iff, ← parseHexCString_eq_hash_iff hlib (hnul text rfl)]
      simp only [orReject_eq_ok_iff, pure_eq_ok_iff]
  | false =>
      constructor
      · intro hok
        simp [ledgerSpecifierFromHash, hstring, throw, throwThe, MonadExceptOf.throw] at hok
      · rintro (_ | _) <;> cases hstring

omit [Build] [LibXrpl] in
/-- An index is given as a string or as an integer. -/
theorem XrpldIndex.isStringOrInteger (h : XrpldIndex json ledger) :
    isStringOrInteger ⟨key, some json⟩ = true := by
  rcases h with _ | _ | _ | _ | (⟨hint, hn⟩ | _) | _
  case sequence.integer =>
    rename_i n
    have hinteger : FieldView.isInt64 ⟨key, some json⟩ = true := by
      cases json with
      | int64 m => rfl
      | uint64 m =>
          have hnat : m.toNat = n := Int.ofNat.inj (Option.some.inj hint)
          simp only [FieldView.isInt64, decide_eq_true_eq, UInt64.le_iff_toNat_le]
          change m.toNat ≤ 9223372036854775807
          omega
      | _ => cases hint
    simp [Dsl.isStringOrInteger, hinteger]
  all_goals rfl

omit [Build] [LibXrpl] in
theorem rejectIf_bind_index_eq_ok_iff {code : CombinedError} {message : String} :
    (do rejectIf (!isStringOrInteger ⟨key, some json⟩) code message
        xrpldLedgerFromIndex ⟨key, some json⟩) = .ok ledger ↔ XrpldIndex json ledger := by
  cases hkind : isStringOrInteger ⟨key, some json⟩ with
  | true => exact xrpldLedgerFromIndex_eq_ok_iff
  | false =>
      constructor
      · rintro ⟨⟩
      · intro hindex
        rw [hindex.isStringOrInteger] at hkind
        cases hkind

omit [Build] in
theorem rejectIf_bind_hash_eq_ok_iff (hlib : DocumentedHex)
    (hnul : ∀ text, json = .string text → 0 ∉ text) {code : CombinedError} {message : String} :
    (do rejectIf (!FieldView.isString ⟨key, some json⟩) code message
        xrpldLedgerFromHash ⟨key, some json⟩) = .ok ledger ↔ NamesHash json ledger := by
  cases hstring : FieldView.isString ⟨key, some json⟩ with
  | true =>
      obtain ⟨text, rfl⟩ := isString_eq_true_iff.mp hstring
      exact xrpldLedgerFromHash_eq_ok_iff hlib (hnul text rfl)
  | false =>
      constructor
      · rintro ⟨⟩
      · rintro (_ | _) <;> cases hstring

omit [Build] in
theorem legacyLedger_eq_ok_iff (hlib : DocumentedHex)
    (hnul : ∀ text, json = .string text → 0 ∉ text)
    {code : CombinedError} {message : String} :
    (do rejectIf (!isStringOrInteger ⟨key, some json⟩) code message
        if FieldView.isString ⟨key, some json⟩ then do
          let text ← FieldView.asString ⟨key, some json⟩
          if text.length = 64 then xrpldLedgerFromHash ⟨key, some json⟩
          else xrpldLedgerFromIndex ⟨key, some json⟩
        else xrpldLedgerFromIndex ⟨key, some json⟩) = .ok ledger ↔ LegacyLedger json ledger := by
  cases hstring : FieldView.isString ⟨key, some json⟩ with
  | true =>
      obtain ⟨text, rfl⟩ := isString_eq_true_iff.mp hstring
      change (if text.length = 64 then _ else _) = _ ↔ _
      by_cases hlength : text.length = 64
      · simp only [LegacyLedger, Json.isHashLong, hlength, BEq.rfl, if_true]
        exact xrpldLedgerFromHash_eq_ok_iff hlib (hnul text rfl)
      · simp only [if_neg hlength, LegacyLedger, Json.isHashLong, beq_false_of_ne hlength,
          Bool.false_eq_true, if_false]
        exact xrpldLedgerFromIndex_eq_ok_iff
  | false =>
      have hlong : json.isHashLong = false := by cases json <;> first | rfl | cases hstring
      simp only [Bool.false_eq_true, if_false, LegacyLedger, hlong]
      exact rejectIf_bind_index_eq_ok_iff

end Forms

section Request

variable {root : Json} {ledger : LedgerSpecifier}

/-- The message when more than one key is there: it names all three just when the
older one is among them. -/
def severalLedgersMessage (root : Json) : String :=
  if (root.member? "ledger").isSome then
    "Exactly one of 'ledger', 'ledger_hash', or 'ledger_index' can be specified."
  else "Exactly one of 'ledger_hash' or 'ledger_index' can be specified."

/-- More than one key is refused whatever the values. -/
theorem xrpldLedgerFromRequest_several [LibXrpl] (h : 1 < (ledgerKeysNamed root).length) :
    xrpldLedgerFromRequest root =
      .error (unexpected kMalformedField (severalLedgersMessage root)) := by
  have hcount : (ledgerKeysNamed root).length =
      (root.member? "ledger").isSome.toNat + (root.member? "ledger_hash").isSome.toNat +
        (root.member? "ledger_index").isSome.toNat := by
    simp only [ledgerKeysNamed, List.filter_cons, List.filter_nil]
    cases (root.member? "ledger").isSome <;> cases (root.member? "ledger_hash").isSome <;>
      cases (root.member? "ledger_index").isSome <;> rfl
  rw [hcount] at h
  unfold xrpldLedgerFromRequest severalLedgersMessage
  refine (if_pos h).trans ?_
  by_cases hlegacy : (root.member? "ledger").isSome = true
  · exact (if_pos hlegacy).trans (by rw [if_pos hlegacy]; rfl)
  · exact (if_neg hlegacy).trans (by rw [if_neg hlegacy]; rfl)

theorem not_xrpldSelects_of_several (h : 1 < (ledgerKeysNamed root).length) :
    ¬ XrpldSelects root ledger := by
  rintro (hnamed | ⟨hnamed, -⟩ | ⟨hnamed, -⟩ | ⟨hnamed, -⟩) <;> simp [hnamed] at h

theorem xrpldLedgerFromRequest_eq_ok_iff [LibXrpl] (hlib : DocumentedHex)
    (hroot : NoNulStrings root) :
    xrpldLedgerFromRequest root = .ok ledger ↔ XrpldSelects root ledger := by
  by_cases hseveral : 1 < (ledgerKeysNamed root).length
  · rw [xrpldLedgerFromRequest_several hseveral]
    exact ⟨nofun, fun h => (not_xrpldSelects_of_several hseveral h).elim⟩
  have hnamed := ledgerKeysNamed.eq_1 root
  simp only [List.filter_cons, List.filter_nil] at hnamed
  cases hlegacy : root.member? "ledger" <;> cases hhash : root.member? "ledger_hash" <;>
    cases hindex : root.member? "ledger_index"
  all_goals
    simp only [hlegacy, hhash, hindex, Option.isSome_none, Option.isSome_some, if_true,
      Bool.false_eq_true, if_false] at hnamed
  case none.none.none =>
    have hread : xrpldLedgerFromRequest root = pure .unspecified := by
      simp [xrpldLedgerFromRequest, rootChild, FieldView.present, hlegacy, hhash, hindex]
    rw [hread]
    constructor
    · rintro ⟨⟩
      exact .unspecified hnamed
    · rintro (_ | ⟨h, -⟩ | ⟨h, -⟩ | ⟨h, -⟩)
      · rfl
      all_goals simp [hnamed] at h
  case none.none.some json =>
    have hread : xrpldLedgerFromRequest root = (do
        rejectIf (!isStringOrInteger ⟨"ledger_index", some json⟩) kMalformedField
          (expectedFieldMessage "ledger_index" "string or number")
        xrpldLedgerFromIndex ⟨"ledger_index", some json⟩) := by
      simp [xrpldLedgerFromRequest, rootChild, FieldView.present, hlegacy, hhash, hindex]
    rw [hread, rejectIf_bind_index_eq_ok_iff]
    constructor
    · exact .index hnamed hindex
    · rintro (h | ⟨h, -⟩ | ⟨h, -⟩ | ⟨-, hjson, hledger⟩)
      case index =>
        cases hindex.symm.trans hjson
        exact hledger
      all_goals simp [hnamed] at h
  case none.some.none json =>
    have hread : xrpldLedgerFromRequest root = (do
        rejectIf (!FieldView.isString ⟨"ledger_hash", some json⟩) kMalformedField
          (expectedFieldMessage "ledger_hash" "hex string")
        xrpldLedgerFromHash ⟨"ledger_hash", some json⟩) := by
      simp [xrpldLedgerFromRequest, rootChild, FieldView.present, hlegacy, hhash, hindex]
    rw [hread, rejectIf_bind_hash_eq_ok_iff hlib (hroot _ · <| hhash.trans <| congrArg some ·)]
    constructor
    · exact .hash hnamed hhash
    · rintro (h | ⟨h, -⟩ | ⟨-, hjson, hledger⟩ | ⟨h, -⟩)
      case hash =>
        cases hhash.symm.trans hjson
        exact hledger
      all_goals simp [hnamed] at h
  case some.none.none json =>
    have hread : xrpldLedgerFromRequest root = (do
        rejectIf (!isStringOrInteger ⟨"ledger", some json⟩) kMalformedField
          (expectedFieldMessage "ledger" "string or number")
        if FieldView.isString ⟨"ledger", some json⟩ then do
          let text ← FieldView.asString ⟨"ledger", some json⟩
          if text.length = 64 then xrpldLedgerFromHash ⟨"ledger", some json⟩
          else xrpldLedgerFromIndex ⟨"ledger", some json⟩
        else xrpldLedgerFromIndex ⟨"ledger", some json⟩) := by
      simp [xrpldLedgerFromRequest, rootChild, FieldView.present, hlegacy, hhash, hindex]
    rw [hread, legacyLedger_eq_ok_iff hlib (hroot _ · <| hlegacy.trans <| congrArg some ·)]
    constructor
    · exact .ledger hnamed hlegacy
    · rintro (h | ⟨-, hjson, hledger⟩ | ⟨h, -⟩ | ⟨h, -⟩)
      case ledger =>
        cases hlegacy.symm.trans hjson
        exact hledger
      all_goals simp [hnamed] at h
  all_goals exact (hseveral (by simp [hnamed])).elim

variable [Build] [LibXrpl] {chosen : Option LedgerSpecifier}

theorem selectLedger_clio_eq_ok_iff (hlib : DocumentedHex) (hroot : NoNulStrings root)
    (hbuild : kIsXrpldBuild = false) :
    selectLedger root = .ok chosen ↔ ClioSelects root chosen := by
  simp only [selectLedger, hbuild, Bool.false_eq_true, if_false]
  cases hhash : root.member? "ledger_hash" <;> cases hindex : root.member? "ledger_index"
  all_goals
    simp only [rootChild, FieldView.present, hhash, hindex, Option.isSome_none,
      Option.isSome_some, if_true, Bool.false_eq_true, if_false]
  case none.none =>
    constructor
    · rintro ⟨⟩
      exact .absent hhash hindex
    · rintro (_ | ⟨h, -⟩ | ⟨-, h, -⟩)
      · rfl
      · cases hhash.symm.trans h
      · cases hindex.symm.trans h
  case none.some index =>
    simp only [map_eq_ok_iff, ledgerSpecifierFromIndex_eq_ok_iff]
    constructor
    · rintro ⟨ledger, hledger, rfl⟩
      exact .index hhash hindex hledger
    · rintro (⟨-, h⟩ | ⟨h, -⟩ | ⟨-, hjson, hledger⟩)
      · cases hindex.symm.trans h
      · cases hhash.symm.trans h
      · cases hindex.symm.trans hjson
        exact ⟨_, hledger, rfl⟩
  case some.none json =>
    have hread (ledger : LedgerSpecifier) :
        ledgerSpecifierFromHash ⟨"ledger_hash", some json⟩ = .ok ledger ↔ NamesHash json ledger :=
      ledgerSpecifierFromHash_eq_ok_iff hlib (hroot _ · <| hhash.trans <| congrArg some ·)
    simp only [bind_eq_ok_iff, hread, pure_eq_ok_iff]
    constructor
    · rintro ⟨ledger, hledger, rfl⟩
      exact .hash hhash hledger (by simp [hindex])
    · rintro (⟨h, -⟩ | ⟨hjson, hledger, -⟩ | ⟨h, -⟩)
      · cases hhash.symm.trans h
      · cases hhash.symm.trans hjson
        exact ⟨_, hledger, rfl⟩
      · cases hhash.symm.trans h
  case some.some json index =>
    have hread (ledger : LedgerSpecifier) :
        ledgerSpecifierFromHash ⟨"ledger_hash", some json⟩ = .ok ledger ↔ NamesHash json ledger :=
      ledgerSpecifierFromHash_eq_ok_iff hlib (hroot _ · <| hhash.trans <| congrArg some ·)
    simp only [bind_eq_ok_iff, hread, ledgerSpecifierFromIndex_eq_ok_iff, pure_eq_ok_iff]
    constructor
    · rintro ⟨ledger, hledger, other, hother, rfl⟩
      refine .hash hhash hledger ?_
      intro _ h
      cases hindex.symm.trans h
      exact ⟨other, hother⟩
    · rintro (⟨h, -⟩ | ⟨hjson, hledger, hother⟩ | ⟨h, -⟩)
      · cases hhash.symm.trans h
      · cases hhash.symm.trans hjson
        obtain ⟨other, hindexed⟩ := hother index hindex
        exact ⟨_, hledger, other, hindexed, rfl⟩
      · cases hhash.symm.trans h

/-- What the selection answers is what the rule says. -/
theorem selectLedger_eq_ok_iff (hlib : DocumentedHex) (hroot : NoNulStrings root) :
    selectLedger root = .ok chosen ↔ LedgerRule root chosen := by
  cases hbuild : kIsXrpldBuild with
  | true =>
      simp only [selectLedger, LedgerRule, hbuild, if_true, map_eq_ok_iff,
        xrpldLedgerFromRequest_eq_ok_iff hlib hroot]
      exact exists_congr fun ledger => ⟨fun ⟨h, h'⟩ => ⟨h'.symm, h⟩, fun ⟨h, h'⟩ => ⟨h', h.symm⟩⟩
  | false =>
      simp only [LedgerRule, hbuild, Bool.false_eq_true, if_false]
      exact selectLedger_clio_eq_ok_iff hlib hroot hbuild

/-! ## What is refused -/

/-- The message of Clio for a hash that is none. -/
def clioHashMessage : Json → String
  | .string _ => malformedFieldMessage "ledger_hash"
  | _ => notStringFieldMessage "ledger_hash"

theorem ledgerSpecifierFromHash_refuses (hlib : DocumentedHex) {key : String} {json : Json}
    (hnul : ∀ text, json = .string text → 0 ∉ text) (h : ∀ ledger, ¬ NamesHash json ledger) :
    ledgerSpecifierFromHash ⟨key, some json⟩ =
      .error (unexpected kMalformedField (clioHashMessage json)) := by
  cases json with
  | string text =>
      have hnone : parseHexCString 256 text = none := by
        rw [hlib.parseHexCString_of_noNul (by decide) (hnul text rfl)]
        apply Option.eq_none_iff_forall_ne_some.mpr
        intro hash hhash
        rcases readHex?_eq_some_iff.mp hhash with ⟨rfl, -⟩ | ⟨hhex, -⟩
        · exact h _ .zero
        · exact h _ (.hex hhex)
      change (do let hash ← orReject (parseHexCString 256 text) _ _; pure (.hash hash) :
        Parsed LedgerSpecifier) = _
      rw [hnone]
      rfl
  | _ => rfl

omit [LibXrpl] in
theorem ledgerSpecifierFromIndex_refuses {key : String} {json : Json}
    (h : ∀ ledger, ¬ ClioIndex json ledger) :
    ledgerSpecifierFromIndex ⟨key, some json⟩ =
      .error (unexpected kMalformedField malformedLedgerIndexMessage) := by
  unfold ledgerSpecifierFromIndex
  dsimp only
  split
  · rename_i huint
    obtain ⟨n, hint, hn⟩ := integer_of_isUint32 huint
    exact (h _ (.sequence (.integer hint hn))).elim
  split
  · rfl
  cases hstring : FieldView.isString ⟨key, some json⟩ with
  | false => rfl
  | true =>
      obtain ⟨text, rfl⟩ := isString_eq_true_iff.mp hstring
      change (if text = bytesOf "validated" then pure (.shortcut .validated)
        else orReject (sequenceFromText text) _ _ : Parsed LedgerSpecifier) = _
      split
      · rename_i htext
        subst htext
        exact (h _ .validated).elim
      · have hnone : sequenceFromText text = none := by
          apply Option.eq_none_iff_forall_ne_some.mpr
          intro ledger hledger
          exact h _ (.sequence (namesSequence_string_iff.mpr
            (sequenceFromText_eq_some_iff.mp hledger)))
        rw [hnone]
        rfl

end Request

section Clio

variable [Build] [LibXrpl] {root : Json}

/-- Clio reports a bad hash whatever the index. -/
theorem selectLedger_badHash (hlib : DocumentedHex) (hroot : NoNulStrings root)
    (hbuild : kIsXrpldBuild = false) {hash : Json} (hhash : root.member? "ledger_hash" = some hash)
    (hnot : ∀ ledger, ¬ NamesHash hash ledger) :
    selectLedger root = .error (unexpected kMalformedField (clioHashMessage hash)) := by
  have hread : ledgerSpecifierFromHash ⟨"ledger_hash", some hash⟩ = _ :=
    ledgerSpecifierFromHash_refuses hlib (hroot _ · <| hhash.trans <| congrArg some ·) hnot
  simp only [selectLedger, hbuild, Bool.false_eq_true, if_false, rootChild, FieldView.present,
    hhash, Option.isSome_some, if_true, hread]
  rfl

/-- A bad index is reported where there is no bad hash. -/
theorem selectLedger_badIndex (hlib : DocumentedHex) (hroot : NoNulStrings root)
    (hbuild : kIsXrpldBuild = false) {index : Json}
    (hindex : root.member? "ledger_index" = some index)
    (hnot : ∀ ledger, ¬ ClioIndex index ledger)
    (hfirst : ∀ hash, root.member? "ledger_hash" = some hash → ∃ ledger, NamesHash hash ledger) :
    selectLedger root = .error (unexpected kMalformedField malformedLedgerIndexMessage) := by
  simp only [selectLedger, hbuild, Bool.false_eq_true, if_false, rootChild, FieldView.present,
    hindex, Option.isSome_some, if_true, ledgerSpecifierFromIndex_refuses hnot]
  cases hhash : root.member? "ledger_hash" with
  | none => rfl
  | some hash =>
      obtain ⟨ledger, hledger⟩ := hfirst hash hhash
      have hread : ledgerSpecifierFromHash ⟨"ledger_hash", some hash⟩ = .ok ledger :=
        (ledgerSpecifierFromHash_eq_ok_iff hlib
          (hroot _ · <| hhash.trans <| congrArg some ·)).mpr hledger
      simp only [Option.isSome_some, if_true, hread]
      rfl

end Clio

/-! ## The field -/

section Selector

variable [Build] [LibXrpl] {Input : Type}

theorem parseOne_ledgerSelector (member : Member Input LedgerSpecifier) (out : Input)
    (root : Json) :
    (ledgerSelector member).parseOne out root =
      match selectLedger root with
      | .ok chosen => .ok (chosen.elim out (member.assign out)) root
      | .error failure => .error failure root := by
  change EStateM.bind (monadLift (selectLedger root)) _ root = _
  rw [EStateM.bind]
  rcases selectLedger root with failure | _ | ledger <;> rfl

/-- A request is accepted just when the rule selects, and then the member is what it
selects; anything else is refused.  On xrpld more than one key is refused whatever the
values.  On Clio a bad hash is reported before a bad index. -/
theorem ledgerSelector_selects (hlib : DocumentedHex) {root : Json} (hroot : NoNulStrings root)
    (member : Member Input LedgerSpecifier) (out : Input) :
    (∀ out' root', (ledgerSelector member).parseOne out root = .ok out' root' ↔
      root' = root ∧ ∃ chosen, LedgerRule root chosen ∧
        out' = chosen.elim out (member.assign out)) ∧
    ((∀ chosen, ¬ LedgerRule root chosen) →
      ∃ status, (ledgerSelector member).parseOne out root = .error (.error status) root) ∧
    (kIsXrpldBuild = true → 1 < (ledgerKeysNamed root).length →
      (ledgerSelector member).parseOne out root =
        .error (unexpected kMalformedField (severalLedgersMessage root)) root) ∧
    (kIsXrpldBuild = false → ∀ hash, root.member? "ledger_hash" = some hash →
      (∀ ledger, ¬ NamesHash hash ledger) →
      (ledgerSelector member).parseOne out root =
        .error (unexpected kMalformedField (clioHashMessage hash)) root) ∧
    (kIsXrpldBuild = false → ∀ index, root.member? "ledger_index" = some index →
      (∀ ledger, ¬ ClioIndex index ledger) →
      (∀ hash, root.member? "ledger_hash" = some hash → ∃ ledger, NamesHash hash ledger) →
      (ledgerSelector member).parseOne out root =
        .error (unexpected kMalformedField malformedLedgerIndexMessage) root) := by
  refine ⟨fun out' root' => ?_, fun hnone => ?_, fun hbuild hseveral => ?_,
    fun hbuild hash hhash hnot => ?_, fun hbuild index hindex hnot hfirst => ?_⟩
  · rw [parseOne_ledgerSelector]
    simp only [← selectLedger_eq_ok_iff hlib hroot]
    cases selectLedger root with
    | ok chosen => simp [and_comm, eq_comm]
    | error failure => simp
  · rw [parseOne_ledgerSelector]
    rcases Safe.iff_ok_or_error.mp (selectLedger_safe root) with ⟨chosen, hok, -⟩ | ⟨status, herror⟩
    · exact (hnone chosen ((selectLedger_eq_ok_iff hlib hroot).mp hok)).elim
    · exact ⟨status, by rw [herror]⟩
  · have hselect : selectLedger root =
        .error (unexpected kMalformedField (severalLedgersMessage root)) := by
      simp only [selectLedger, hbuild, if_true, xrpldLedgerFromRequest_several hseveral]
      rfl
    rw [parseOne_ledgerSelector, hselect]
  · rw [parseOne_ledgerSelector, selectLedger_badHash hlib hroot hbuild hhash hnot]
  · rw [parseOne_ledgerSelector, selectLedger_badIndex hlib hroot hbuild hindex hnot hfirst]

/-- A request for the ledger of sequence 7, with a plus sign. -/
def signedIndexRequest : Json := .object [("ledger_index", .string (bytesOf "+7"))]

omit [Build] [LibXrpl] in
/-- The strings of a request with one key. -/
theorem noNulStrings_single {key : String} {text : Bytes} (h : 0 ∉ text) :
    NoNulStrings (.object [(key, .string text)]) := by
  intro other text' hmember
  simp only [Json.member?, List.lookup_cons, List.lookup_nil] at hmember
  split at hmember
  · cases hmember
    exact h
  · cases hmember

omit [Build] [LibXrpl] in
theorem ledgerSelector_selects_signedIndex :
    @Field.parseOne _ .xrpld hexLib
        (ledgerSelector ⟨"ledger", fun _ ledger => ledger⟩) .unspecified signedIndexRequest =
      .ok (.sequence 7) signedIndexRequest := by
  have hroot : NoNulStrings signedIndexRequest := noNulStrings_single (by decide)
  have hspells : Spells (bytesOf "7") 7 := ⟨by decide, by decide +kernel, by decide⟩
  have hselects : XrpldSelects signedIndexRequest (.sequence 7) :=
    .index (by decide +kernel) rfl (.signed hspells (by decide))
  exact ((@ledgerSelector_selects .xrpld hexLib LedgerSpecifier hexLib_documentedHex
    signedIndexRequest hroot ⟨"ledger", fun _ ledger => ledger⟩ .unspecified).1 _ _).mpr
      ⟨rfl, some (.sequence 7), ⟨_, rfl, hselects⟩, rfl⟩

/-- A request for the ledger of the hash `0`. -/
def zeroHashRequest : Json := .object [("ledger_hash", .string loneZero)]

omit [Build] [LibXrpl] in
/-- A lone hash that is one character long, not 64 digits, selects a ledger on both
servers. -/
theorem zeroHash_selected :
    NoNulStrings zeroHashRequest ∧
      zeroHashRequest.member? "ledger_hash" = some (.string loneZero) ∧ ¬ IsHex 256 loneZero ∧
      @Field.parseOne _ .xrpld hexLib (ledgerSelector ⟨"ledger", fun _ ledger => ledger⟩)
        .unspecified zeroHashRequest = .ok (.hash 0) zeroHashRequest ∧
      @Field.parseOne _ .clio hexLib (ledgerSelector ⟨"ledger", fun _ ledger => ledger⟩)
        .unspecified zeroHashRequest = .ok (.hash 0) zeroHashRequest :=
  ⟨noNulStrings_single (by decide), rfl, by decide, rfl, rfl⟩

end Selector

end RpcSpec.Dsl
