import RpcSpec.Dsl.Json
import Mathlib.Algebra.Group.Int.Defs
import Mathlib.Algebra.Group.Nat.Defs
import Mathlib.Data.List.TakeWhile
set_option autoImplicit false

/-!
# Decoding text (`rpcspec/detail/XrplParse.hpp`)

The functions that turn the bytes of a string into accounts, currencies, hashes,
numbers and times.  What libxrpl contributes is the class `LibXrpl`: pure
functions of their arguments, of which nothing else is assumed here.

A time goes through `std::get_time`, which skips blanks, and through a conversion of its
seconds to nanoseconds in 64 bits, which overflows outside the years 1677 to 2262;
`systemTpFromUtcStr_cases` says what comes out where.
-/

namespace RpcSpec.Dsl

open RpcSpec.Foundation

/-! ## Characters and numbers -/

namespace Text

/-- What a C string made of these bytes holds: the bytes before the first NUL. -/
def cString (text : Bytes) : Bytes := text.takeWhile (· ≠ 0)

/-- Without a NUL the C string is the whole string. -/
theorem cString_of_noNul {text : Bytes} (h : 0 ∉ text) : cString text = text := by
  apply List.takeWhile_eq_self_iff.mpr
  intro b hb
  simp only [decide_eq_true_eq]
  rintro rfl
  exact h hb

/-- `std::isdigit`. -/
def isDigit (c : UInt8) : Bool := 0x30 ≤ c && c ≤ 0x39

/-- A letter in upper case. -/
def isUpper (c : UInt8) : Bool := 0x41 ≤ c && c ≤ 0x5a

/-- A letter in lower case. -/
def isLower (c : UInt8) : Bool := 0x61 ≤ c && c ≤ 0x7a

/-- `std::isalnum` in the classic locale. -/
def isAlnum (c : UInt8) : Bool := isDigit c || isUpper c || isLower c

/-- `std::tolower` in the classic locale. -/
def toLower (c : UInt8) : UInt8 := if isUpper c then c + 0x20 else c

/-- `std::isspace` in the classic locale. -/
def isSpace (c : UInt8) : Bool := c == 0x20 || (0x09 ≤ c && c ≤ 0x0d)

/-- `std::toupper` in the classic locale. -/
def toUpper (c : UInt8) : UInt8 := if isLower c then c - 0x20 else c

/-- The number spelled by decimal digits. -/
def decimalValue (digits : Bytes) : Nat :=
  digits.foldl (fun acc d => 10 * acc + (d.toNat - 0x30)) 0

/-- `std::from_chars` into an unsigned type whose largest value is `max`: the
number and the bytes from where the parse stopped.  Neither a sign nor blanks are
skipped; a number out of range is an error. -/
def fromChars (max : Nat) (text : Bytes) : Option (Nat × Bytes) :=
  let digits := text.takeWhile isDigit
  if digits.isEmpty || max < decimalValue digits then none
  else some (decimalValue digits, text.dropWhile isDigit)

/-- `std::from_chars` into `int64_t`: a minus sign may precede the digits. -/
def fromCharsInt64 (text : Bytes) : Option (Int × Bytes) :=
  match text with
  | 0x2d :: rest => (fromChars (2 ^ 63) rest).map fun (n, stop) => (-(n : Int), stop)
  | _ => (fromChars (2 ^ 63 - 1) text).map fun (n, stop) => ((n : Int), stop)

/-- The largest number of 32 bits. -/
def uint32Max : Nat := 2 ^ 32 - 1

/-- The largest number of 64 bits. -/
def uint64Max : Nat := 2 ^ 64 - 1

/-- The whole text is a number of the type: `ec == std::errc() and ptr == end`. -/
def parseWhole (max : Nat) (text : Bytes) : Option Nat :=
  match fromChars max text with
  | some (n, []) => some n
  | _ => none

end Text

/-! ## libxrpl -/

/-- `xrpl::AccountID`, a 160-bit value. -/
abbrev AccountID := BitVec 160

/-- `xrpl::Currency`, a 160-bit value. -/
abbrev Currency := BitVec 160

/-- `xrpl::uint192`. -/
abbrev Uint192 := BitVec 192

/-- `xrpl::uint256`. -/
abbrev Uint256 := BitVec 256

/-- `xrpl::MPTID`. -/
abbrev MPTID := Uint192

/-- `xrpl::Issue`. -/
structure Issue where
  currency : Currency
  account : AccountID
  deriving DecidableEq, Repr

/-- `xrpl::Asset`: an issue or an MPT issue. -/
inductive Asset where
  | issue (issue : Issue)
  | mptIssue (id : MPTID)
  deriving DecidableEq, Repr

/-- `xrpl::Book`. -/
structure Book where
  in_ : Issue
  out : Issue
  domain : Option Uint256
  deriving DecidableEq, Repr

namespace Xrpl

/-- The account of zeros, which issues XRP alone. -/
def xrpAccount : AccountID := 0

/-- Account one, which stands for no account. -/
def noAccount : AccountID := 1

/-- Currency one, which stands for no currency. -/
def noCurrency : Currency := 1

/-- The ISO-style code "XRP" at byte 12. -/
def badCurrency : Currency := 0x5852500000000000

/-- Of a currency and of an account: the one of zeros. -/
def isXRP (id : BitVec 160) : Bool := id == 0

/-- XRP, issued by nobody. -/
def xrpIssue : Issue := ⟨0, xrpAccount⟩

end Xrpl

/-- The functions and constants of libxrpl the specs use. -/
class LibXrpl where
  /-- `base_uint<bits>::parseHex(std::string_view)` -/
  parseHex : (bits : Nat) → Bytes → Option (BitVec bits)
  strUnHex : Bytes → Option Bytes
  /-- `publicKeyType(slice).has_value()` -/
  isPublicKey : Bytes → Bool
  calcAccountID : Bytes → AccountID
  /-- `parseBase58<AccountID>(str)` -/
  parseBase58AccountID : Bytes → Option AccountID
  /-- `parseBase58<PublicKey>(TokenType::AccountPublic, str)` -/
  parseBase58AccountPublic : Bytes → Option Bytes
  toCurrency : Bytes → Option Currency
  toIssuer : Bytes → Option AccountID
  /-- `issueFromJson(str)`; nothing where it throws `std::runtime_error` -/
  issueFromJson : Bytes → Option Issue
  kMaxCredentialTypeLength : Nat
  kMaxCredentialsArraySize : Nat
  /-- the names of `TxFormats::getInstance()` -/
  txFormats : List Bytes

variable [LibXrpl]

/-- `parsed.parseHex(std::string{text}.c_str())`. -/
def parseHexCString (bits : Nat) (text : Bytes) : Option (BitVec bits) :=
  LibXrpl.parseHex bits (Text.cString text)

/-- `parseBase58Wrapper<T>`: anything not alphanumeric is refused first. -/
def parseBase58Wrapper {T : Type} (parseBase58 : Bytes → Option T) (str : Bytes) : Option T :=
  if !str.all Text.isAlnum then none else parseBase58 str

/-- An account from a hex public key, a base58 public key or a base58 address. -/
def accountFromStringStrict (account : Bytes) : Option AccountID :=
  let publicKey :=
    match LibXrpl.strUnHex account with
    | some blob =>
        if LibXrpl.isPublicKey blob then some blob
        else parseBase58Wrapper LibXrpl.parseBase58AccountPublic account
    | none => parseBase58Wrapper LibXrpl.parseBase58AccountPublic account
  match publicKey with
  | some key => some (LibXrpl.calcAccountID key)
  | none => parseBase58Wrapper LibXrpl.parseBase58AccountID account

/-- A base58 address is an account in either reading. -/
theorem accountFromStringStrict_isSome_of_base58 {account : Bytes}
    (h : (parseBase58Wrapper LibXrpl.parseBase58AccountID account).isSome) :
    (accountFromStringStrict account).isSome := by
  unfold accountFromStringStrict
  dsimp only
  split
  · rfl
  · exact h

/-! ## Decoders of validated text -/

/-- The value, or the `std::logic_error` that the text was not pre-validated. -/
def valueOrLogicError {α : Type} (decoded : Option α) : Parsed α :=
  match decoded with
  | some a => pure a
  | none => throw (.fault .notPreValidated)

/-- Reads what `accountFromStringStrict` has read before, or throws. -/
def accountFromValidated (account : Bytes) : Parsed AccountID :=
  valueOrLogicError (accountFromStringStrict account)

/-- Reads what the hex parser has read before, or throws. -/
def uint256FromValidated (hex : Bytes) : Parsed Uint256 :=
  valueOrLogicError (parseHexCString 256 hex)

/-- The same for the shorter width. -/
def uint192FromValidated (hex : Bytes) : Parsed Uint192 :=
  valueOrLogicError (parseHexCString 192 hex)

/-- Reads what `toCurrency` has read before, or throws. -/
def currencyFromValidated (code : Bytes) : Parsed Currency :=
  valueOrLogicError (LibXrpl.toCurrency code)

/-- Reads what `toIssuer` has read before, or throws. -/
def issuerFromValidated (issuer : Bytes) : Parsed AccountID :=
  valueOrLogicError (LibXrpl.toIssuer issuer)

omit [LibXrpl] in
/-- Nothing is thrown where the decoder reads the text. -/
theorem valueOrLogicError_safe {α : Type} {decoded : Option α} (h : decoded.isSome) :
    Safe (valueOrLogicError decoded) fun a => decoded = some a := by
  obtain ⟨a, rfl⟩ := Option.isSome_iff_exists.mp h
  simp [valueOrLogicError]

/-! ## Times

`std::get_time` as libstdc++ reads with it: blanks before the text are skipped by the
stream, and one blank may stand before the day.  The time read is counted in seconds and
converted to the nanoseconds of `system_clock::time_point`, which are an `int64_t`: a time
outside of 1677-09-21 to 2262-04-11 does not fit, and the conversion overflows. -/

/-- One directive of a `std::get_time` format. -/
inductive TimeDirective where
  /-- `%Y` -/
  | year
  /-- `%m` -/
  | month
  /-- `%d` -/
  | day
  /-- `%T`, which is `%H:%M:%S` -/
  | time
  | literal (c : UInt8)
  deriving DecidableEq, Repr

/-- `std::tm`, as far as a format may set it. -/
structure Tm where
  year : Nat := 1900
  month : Nat := 1
  day : Nat := 0
  hour : Nat := 0
  minute : Nat := 0
  second : Nat := 0
  deriving DecidableEq, Repr

/-- A number of at most `width` digits within the bounds. -/
def readNumber (width lo hi : Nat) (text : Bytes) : Option (Nat × Bytes) :=
  let digits := (text.take width).takeWhile Text.isDigit
  let n := Text.decimalValue digits
  if digits.isEmpty || n < lo || hi < n then none else some (n, text.drop digits.length)

/-- A character of the format, in either case. -/
def readLiteral (l : UInt8) : Bytes → Option Bytes
  | [] => none
  | c :: text => if Text.toLower c = Text.toLower l then some text else none

/-- One blank, if there is one. -/
def skipBlank : Bytes → Bytes
  | [] => []
  | c :: text => if Text.isSpace c then text else c :: text

/-- A directive that begins with a percent sign. -/
def TimeDirective.isConversion : TimeDirective → Bool
  | .literal _ => false
  | _ => true

/-- What a directive takes from the text, and what it sets. -/
def readDirective (tm : Tm) (text : Bytes) : TimeDirective → Option (Tm × Bytes)
  | .year => do
      let (year, text) ← readNumber 4 0 9999 text
      pure ({ tm with year }, text)
  | .month => do
      let (month, text) ← readNumber 2 1 12 text
      pure ({ tm with month }, text)
  | .day => do
      let (day, text) ← readNumber 2 1 31 (skipBlank text)
      pure ({ tm with day }, text)
  | .time => do
      let (hour, text) ← readNumber 2 0 23 text
      let text ← readLiteral 0x3a text
      let (minute, text) ← readNumber 2 0 59 text
      let text ← readLiteral 0x3a text
      let (second, text) ← readNumber 2 0 60 text
      pure ({ tm with hour, minute, second }, text)
  | .literal l => do
      let text ← readLiteral l text
      pure (tm, text)

/-- The loop of `std::get_time`.  A conversion that uses up the input ends the parse
without a failure; where there is no input for a directive, it fails. -/
def getTime : List TimeDirective → Tm → Bytes → Option Tm
  | [], tm, _ => some tm
  | directive :: format, tm, text =>
      if text.isEmpty then none
      else do
        let (tm, rest) ← readDirective tm text directive
        if directive.isConversion && rest.isEmpty then pure tm else getTime format tm rest

/-- `in >> std::get_time(&ts, format)`, from the text and the sentinel byte that makes
input that ends before the format does fail. -/
def readTime (dateStr : Bytes) (format : List TimeDirective) : Option Tm :=
  getTime format {} ((dateStr ++ [0x01]).dropWhile Text.isSpace)

/-- `sys_days` of a civil date: the days since 1970-01-01.  A day past the end of
its month counts on into the next. -/
def sysDays (year : Int) (month day : Nat) : Int :=
  let y := if month ≤ 2 then year - 1 else year
  let era := y / 400
  let yearOfEra := y - era * 400
  let shifted : Int := if 2 < month then (month : Int) - 3 else month + 9
  let dayOfYear := (153 * shifted + 2) / 5 + day - 1
  era * 146097 + (yearOfEra * 365 + yearOfEra / 4 - yearOfEra / 100 + dayOfYear) - 719468

/-- `sys_days{date} + hours{…} + minutes{…} + seconds{…}`: the seconds since the epoch. -/
def Tm.sysSeconds (tm : Tm) : Int :=
  sysDays tm.year tm.month tm.day * 86400 + tm.hour * 3600 + tm.minute * 60 + tm.second

/-- `std::chrono::system_clock::time_point`: nanoseconds since the epoch. -/
abbrev SystemTimePoint := Int64

/-- The seconds a `SystemTimePoint` can be told in. -/
def FitsTimePoint (seconds : Int) : Prop :=
  -2 ^ 63 ≤ seconds * 1000000000 ∧ seconds * 1000000000 < 2 ^ 63

instance (seconds : Int) : Decidable (FitsTimePoint seconds) :=
  inferInstanceAs (Decidable (_ ∧ _))

omit [LibXrpl] in
/-- The times that fit: from 1677-09-21T00:12:44Z to 2262-04-11T23:47:16Z. -/
theorem fitsTimePoint_iff {seconds : Int} :
    FitsTimePoint seconds ↔ -9223372036 ≤ seconds ∧ seconds ≤ 9223372036 := by
  unfold FitsTimePoint
  omega

/-- The conversion from seconds to `SystemTimePoint`: the product that overflows is
undefined. -/
def toTimePoint (seconds : Int) : Parsed SystemTimePoint :=
  if FitsTimePoint seconds then pure (Int64.ofInt (seconds * 1000000000))
  else throw (.fault .signedOverflow)

/-- The time point of a timestamp, or nothing when it does not parse. -/
def systemTpFromUtcStr (dateStr : Bytes) (format : List TimeDirective) :
    Parsed (Option SystemTimePoint) :=
  match readTime dateStr format with
  | none => pure none
  | some tm => some <$> toTimePoint tm.sysSeconds

/-- The text names no time, or one that fits. -/
def TimeFits (format : List TimeDirective) (text : Bytes) : Prop :=
  ∀ tm, readTime text format = some tm → FitsTimePoint tm.sysSeconds

instance (format : List TimeDirective) (text : Bytes) : Decidable (TimeFits format text) :=
  match h : readTime text format with
  | none => isTrue (by simp [TimeFits, h])
  | some tm => decidable_of_iff (FitsTimePoint tm.sysSeconds) (by simp [TimeFits, h])

omit [LibXrpl] in
/-- A time that fits is converted, one that does not is undefined behaviour. -/
theorem systemTpFromUtcStr_cases (text : Bytes) (format : List TimeDirective) :
    (TimeFits format text ∧ ∃ decoded, systemTpFromUtcStr text format = .ok decoded) ∨
      (¬ TimeFits format text ∧
        systemTpFromUtcStr text format = .error (.fault .signedOverflow)) := by
  unfold systemTpFromUtcStr TimeFits
  cases readTime text format with
  | none => exact .inl ⟨fun _ h => (by cases h), none, rfl⟩
  | some tm =>
      simp only [Option.some.injEq, forall_eq', toTimePoint]
      by_cases hfits : FitsTimePoint tm.sysSeconds
      · rw [if_pos hfits]
        exact .inl ⟨hfits, _, rfl⟩
      · rw [if_neg hfits]
        exact .inr ⟨hfits, rfl⟩

end RpcSpec.Dsl
