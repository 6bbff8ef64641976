import RpcSpec.Dsl.HexText
import RpcSpec.Handlers.Common
set_option autoImplicit false

/-!
# Subscriptions

`subscribe` and `unsubscribe`.  The two copies of the validators and converters
differ in the two members of a book that only `subscribe` knows; what they share is
defined once, with those members as a parameter.

The validator of the books stops at the first one that is wrong and the converter reads
those it has let through: `verifyBooks_safe` is the one and `kInputSpec_neverFaults` needs
both.
-/

namespace RpcSpec.Handlers

open RpcSpec.Dsl RpcSpec.Foundation XrpldError

variable [Build] [LibXrpl]

/-! ## Accounts -/

/-- The function of `kSubscribeAccountsValidator`. -/
def verifySubscribeAccounts (fieldView : FieldView) : MaybeError := do
  rejectIf (!fieldView.isArray) rpcInvalidParams (fieldView.key ++ "NotArray")
  rejectIf (fieldView.arraySize == 0) rpcActMalformed (fieldView.key ++ " malformed.")
  forM fieldView.elements fun elem => do
    rejectIf (!elem.isString) rpcInvalidParams (fieldView.key ++ "'sItemNotString")
    let text ← elem.asString
    rejectIf (accountFromStringStrict text).isNone rpcActMalformed
      (fieldView.key ++ "'sItemMalformed")

omit [Build] in
/-- An array of texts, each of them an account. -/
theorem verifySubscribeAccounts_safe (v : FieldView) : Safe (verifySubscribeAccounts v) fun _ =>
    ∀ elem ∈ v.elements, elem.HasString fun text => (accountFromStringStrict text).isSome := by
  refine safe_rejectIf_bind fun _ => safe_rejectIf_bind fun _ => ?_
  refine Safe.forM fun elem _ => safe_textCheck fun text h => ?_
  simpa [Option.isSome_iff_ne_none] using h

omit [Build] in
/-- The accounts are read behind that check. -/
theorem subscribeAccounts_neverFaults {Input : Type} {key : String}
    {member : Member Input (Option (List AccountID))} {unguarded} :
    (field key member [customValidator verifySubscribeAccounts] asAccountIdVec
      unguarded).NeverFaults := by
  refine field_neverFaults_of_meets
    (.cons (.requirement fun v _ => safe_ifPresent fun _ => verifySubscribeAccounts_safe v) .nil) ?_
  exact fun v hp hv => asAccountIdVec_safe (hv hp)

omit [Build] in
/-- The ids are read behind `uint192Array`. -/
theorem mptIssuances_neverFaults {Input : Type} {key : String}
    {member : Member Input (Option (List MPTID))} {unguarded} :
    (field key member [uint192Array] asUint192Vec unguarded).NeverFaults := by
  refine field_neverFaults_of_meets
    (.cons (.requirement fun v _ => Uint192ArrayValidator.verify_safe v) .nil) ?_
  exact fun v hp hv => asUint192Vec_safe (hv hp).2

/-! ## Streams -/

/-- The streams a client may follow. -/
inductive StreamType where
  | ledger
  | transactions
  | transactionsProposed
  | bookChanges
  | manifests
  | validations
  | server
  | peerStatus
  | consensus
  deriving DecidableEq, Repr

namespace StreamsValidator

/-- The streams of either server. -/
def kCommon : List Bytes :=
  ["ledger", "transactions", "transactions_proposed", "book_changes", "manifests",
    "validations"].map bytesOf

/-- Only Clio has these, to refuse them. -/
def kNotSupported : List Bytes := ["server", "peer_status", "consensus"].map bytesOf

/-- Only xrpld has these. -/
def kRippledExtra : List Bytes :=
  ["server", "peer_status", "consensus", "rt_transactions"].map bytesOf

/-- The servers refuse what they do not have in their own ways. -/
def verify (fieldView : FieldView) : MaybeError :=
  ifPresent fieldView do
    rejectIf (!fieldView.isArray) rpcInvalidParams (fieldView.key ++ "NotArray")
    forM fieldView.elements fun elem => do
      rejectIf (!elem.isString) rpcInvalidParams "streamNotString"
      let str ← elem.asString
      if kIsClioBuild then do
        rejectIf (kNotSupported.contains str) rpcNotSupported
        rejectIf (!kCommon.contains str) rpcStreamMalformed
      else
        rejectIf (!kCommon.contains str && !kRippledExtra.contains str) rpcStreamMalformed

omit [LibXrpl] in
theorem verify_safe (v : FieldView) : Safe (verify v) fun _ =>
    v.present = true → ∀ elem ∈ v.elements, elem.isString = true := by
  refine safe_ifPresent fun _ => safe_rejectIf_bind fun _ => Safe.forM fun elem _ => ?_
  apply safe_rejectIf_bind
  intro hs
  have hs : elem.isString = true := by simpa using hs
  apply safe_asString_bind hs
  intro _ _
  split
  · exact safe_rejectIf_bind fun _ => safe_rejectIf.mono fun _ _ => hs
  · exact safe_rejectIf.mono fun _ _ => hs

end StreamsValidator

/-- The check of the list of streams. -/
def kSubscribeStreamValidator : Item (Option (List StreamType)) :=
  .requirement StreamsValidator.verify

/-- The chain of comparisons of `StreamVecConverter`. -/
def streamOf (text : Bytes) : StreamType :=
  if text = bytesOf "ledger" then .ledger
  else if text = bytesOf "transactions" then .transactions
  else if text = bytesOf "transactions_proposed" || text = bytesOf "rt_transactions" then
    .transactionsProposed
  else if text = bytesOf "book_changes" then .bookChanges
  else if text = bytesOf "manifests" then .manifests
  else if text = bytesOf "validations" then .validations
  else if text = bytesOf "server" then .server
  else if text = bytesOf "peer_status" then .peerStatus
  else .consensus

/-- `StreamVecConverter`, for arrays of strings. -/
def streamVecConv : Converter (Option (List StreamType)) where
  parse fieldView := do
    let result ← fieldView.elements.mapM fun elem => streamOf <$> elem.asString
    pure (some result)

omit [LibXrpl] in
/-- The names are read behind that check. -/
theorem streams_neverFaults {Input : Type} {key : String}
    {member : Member Input (Option (List StreamType))} {unguarded} :
    (field key member [kSubscribeStreamValidator] streamVecConv unguarded).NeverFaults := by
  refine field_neverFaults_of_meets
    (.cons (.requirement fun v _ => StreamsValidator.verify_safe v) .nil) fun v hp hv => ?_
  refine (Safe.mapM (P := fun _ _ => True) fun elem helem => ?_).bind fun _ _ => trivial
  exact ((FieldView.asString_safe (hv hp elem helem)).mono fun _ _ => trivial).map

/-! ## Books -/

/-- What the checks of the two issuers of a book report. -/
structure IssuerErrors where
  field : String
  code : XrpldError
  notString : String
  bad : String
  accountOne : String

/-- How a bad issuer of this side is reported. -/
def paysErrors : IssuerErrors where
  field := "taker_pays.issuer"
  code := rpcSrcIsrMalformed
  notString := "takerPaysIssuerNotString"
  bad := ""
  accountOne := ""

/-- How a bad issuer of the other side is reported. -/
def getsErrors : IssuerErrors where
  field := "taker_gets.issuer"
  code := rpcDstIsrMalformed
  notString := "taker_gets.issuer should be string"
  bad := "Invalid field 'taker_gets.issuer', bad issuer."
  accountOne := "Invalid field 'taker_gets.issuer', bad issuer account one."

/-- The issuer of one side, that of XRP where none is given. -/
def givenIssuer (errors : IssuerErrors) (issuerView : FieldView) : Parsed AccountID :=
  if issuerView.present then do
    rejectIf (!issuerView.isString) rpcInvalidParams errors.notString
    let issuer ← orReject (LibXrpl.toIssuer (← issuerView.asString)) errors.code errors.bad
    rejectIf (issuer = Xrpl.noAccount) errors.code errors.accountOne
    pure issuer
  else pure Xrpl.xrpAccount

/-- The issuer of one side, checked against its currency. -/
def bookIssuer (errors : IssuerErrors) (currency : Currency) (issuerView : FieldView) :
    Parsed AccountID := do
  let issuer ← givenIssuer errors issuerView
  rejectIf (Xrpl.isXRP currency && !Xrpl.isXRP issuer) errors.code
    ("Unneeded field '" ++ errors.field ++ "' for XRP currency specification.")
  rejectIf (!Xrpl.isXRP currency && Xrpl.isXRP issuer) errors.code
    ("Invalid field '" ++ errors.field ++ "', expected non-XRP issuer.")
  pure issuer

/-- The currency of one side. -/
def bookCurrency (code : XrpldError) (currencyView : FieldView) : Parsed Currency := do
  rejectIf (!currencyView.present || !currencyView.isString) code
  orReject (LibXrpl.toCurrency (← currencyView.asString)) code

/-- The body of the loop of `kBooksValidator`; `extras` checks the members that only
one of the two handlers knows. -/
def verifyBook (extras : FieldView → MaybeError) (key : String) (book : FieldView) :
    MaybeError := do
  rejectIf (!book.isObject) rpcInvalidParams (key ++ "ItemNotObject")
  let bothView := book.child "both"
  rejectIf (bothView.present && !bothView.isBool) rpcInvalidParams "bothNotBool"
  extras book
  let takerPaysView := book.child "taker_pays"
  rejectIf (!takerPaysView.present) rpcInvalidParams "Missing field 'taker_pays'"
  rejectIf (!takerPaysView.isObject) rpcInvalidParams "Field 'taker_pays' is not an object"
  let takerGetsView := book.child "taker_gets"
  rejectIf (!takerGetsView.present) rpcInvalidParams "Missing field 'taker_gets'"
  rejectIf (!takerGetsView.isObject) rpcInvalidParams "Field 'taker_gets' is not an object"
  let payCurrency ← bookCurrency rpcSrcCurMalformed (takerPaysView.child "currency")
  let getCurrency ← bookCurrency rpcDstAmtMalformed (takerGetsView.child "currency")
  let domainView := book.child "domain"
  rejectIf (domainView.present && !domainView.isString) rpcDomainMalformed
  let payIssuer ← bookIssuer paysErrors payCurrency (takerPaysView.child "issuer")
  let getIssuer ← bookIssuer getsErrors getCurrency (takerGetsView.child "issuer")
  rejectIf (payCurrency = getCurrency && payIssuer = getIssuer) rpcBadMarket
  if domainView.present then do
    let text ← domainView.asString
    rejectIf (LibXrpl.parseHex 256 text).isNone rpcDomainMalformed

/-- The function of `kBooksValidator`. -/
def verifyBooks (extras : FieldView → MaybeError) (fieldView : FieldView) : MaybeError := do
  rejectIf (!fieldView.isArray) rpcInvalidParams (fieldView.key ++ "NotArray")
  forM fieldView.elements (verifyBook extras fieldView.key)

/-- A flag of a validated book. -/
def bookFlag (view : FieldView) : Parsed Bool :=
  if view.present then view.asBool else pure false

/-- An issuer of a validated book. -/
def issuerOrXrp (issuerView : FieldView) : Parsed AccountID :=
  if issuerView.present then do issuerFromValidated (← issuerView.asString)
  else pure Xrpl.xrpAccount

/-- The domain of a validated book. -/
def bookDomain (domainView : FieldView) : Parsed (Option Uint256) :=
  if domainView.present then do
    some <$> uint256FromValidated (← domainView.asString)
  else pure none

/-- The `xrpl::Book` the converters build from a validated element. -/
def bookOf (bookView : FieldView) : Parsed Book := do
  let paysView := bookView.child "taker_pays"
  let getsView := bookView.child "taker_gets"
  let payCurrency ← currencyFromValidated (← (paysView.child "currency").asString)
  let getCurrency ← currencyFromValidated (← (getsView.child "currency").asString)
  let payIssuer ← issuerOrXrp (paysView.child "issuer")
  let getIssuer ← issuerOrXrp (getsView.child "issuer")
  let domainID ← bookDomain (bookView.child "domain")
  pure ⟨⟨payCurrency, payIssuer⟩, ⟨getCurrency, getIssuer⟩, domainID⟩

/-! ### What the validator establishes -/

/-- What the converters rely on of one side of a book. -/
structure SideAccepted (side : FieldView) : Prop where
  currency : (side.child "currency").HasString fun text => (LibXrpl.toCurrency text).isSome
  issuer : (side.child "issuer").present = true →
    (side.child "issuer").HasString fun text => (LibXrpl.toIssuer text).isSome

/-- What the converters rely on of a book. -/
structure BookAccepted (book : FieldView) : Prop where
  both : (book.child "both").present = true → (book.child "both").isBool = true
  pays : SideAccepted (book.child "taker_pays")
  gets : SideAccepted (book.child "taker_gets")
  domain : (book.child "domain").present = true →
    (book.child "domain").HasString fun text => (LibXrpl.parseHex 256 text).isSome

omit [Build] in
/-- What it lets through is a currency's text. -/
theorem bookCurrency_safe (code : XrpldError) (v : FieldView) : Safe (bookCurrency code v) fun _ =>
    v.HasString fun text => (LibXrpl.toCurrency text).isSome := by
  apply safe_rejectIf_bind
  intro hs
  simp only [Bool.or_eq_false_iff, Bool.not_eq_eq_eq_not, Bool.not_false] at hs
  refine safe_asString_bind hs.2 fun text hv => safe_orReject.mono fun currency hc => ?_
  exact ⟨text, hv, by simp [hc]⟩

omit [Build] in
/-- What it lets through is an issuer's text, or no issuer at all. -/
theorem bookIssuer_safe (errors : IssuerErrors) (currency : Currency) (v : FieldView) :
    Safe (bookIssuer errors currency v) fun _ =>
      v.present = true → v.HasString fun text => (LibXrpl.toIssuer text).isSome := by
  have hgiven : Safe (givenIssuer errors v) fun _ =>
      v.present = true → v.HasString fun text => (LibXrpl.toIssuer text).isSome := by
    unfold givenIssuer
    split
    · refine safe_rejectIf_bind fun hs => safe_asString_bind (by simpa using hs) fun text hv => ?_
      refine safe_orReject_bind fun issuer hissuer => safe_rejectIf_bind fun _ => fun _ => ?_
      exact ⟨text, hv, by simp [hissuer]⟩
    · rename_i hp
      exact fun hp' => absurd hp' hp
  apply hgiven.bind
  intro issuer hissuer
  exact safe_rejectIf_bind fun _ => safe_rejectIf_bind fun _ => hissuer

omit [Build] in
/-- With whatever the check of the extra members establishes. -/
theorem verifyBook_safe {extras : FieldView → MaybeError} {E : FieldView → Prop}
    (hextras : ∀ book, Safe (extras book) fun _ => E book) (key : String) (book : FieldView) :
    Safe (verifyBook extras key book) fun _ => BookAccepted book ∧ E book := by
  refine safe_rejectIf_bind fun _ => safe_rejectIf_bind fun hboth => ?_
  apply (hextras book).bind
  intro _ hE
  refine safe_rejectIf_bind fun _ => safe_rejectIf_bind fun _ => ?_
  refine safe_rejectIf_bind fun _ => safe_rejectIf_bind fun _ => ?_
  apply (bookCurrency_safe _ _).bind
  intro payCurrency hpays
  refine (bookCurrency_safe _ _).bind fun getCurrency hgets => safe_rejectIf_bind fun hdomain => ?_
  apply (bookIssuer_safe _ _ _).bind
  intro payIssuer hpaysIssuer
  refine (bookIssuer_safe _ _ _).bind fun getIssuer hgetsIssuer => safe_rejectIf_bind fun _ => ?_
  have haccepted (hdomain : (book.child "domain").present = true →
      (book.child "domain").HasString fun text => (LibXrpl.parseHex 256 text).isSome) :
      BookAccepted book ∧ E book :=
    ⟨⟨fun hp => by simpa [hp] using hboth, ⟨hpays, hpaysIssuer⟩, ⟨hgets, hgetsIssuer⟩, hdomain⟩, hE⟩
  split
  · rename_i hp
    apply safe_asString_bind (by simpa [hp] using hdomain)
    intro text hv
    refine safe_rejectIf.mono fun _ h => haccepted fun _ => ⟨text, hv, ?_⟩
    simpa [Option.isSome_iff_ne_none] using h
  · rename_i hp
    exact haccepted fun hp' => absurd hp' hp

omit [Build] in
/-- Every book of the list has been looked at, and what it carries besides. -/
theorem verifyBooks_safe {extras : FieldView → MaybeError} {E : FieldView → Prop}
    (hextras : ∀ book, Safe (extras book) fun _ => E book) (v : FieldView) :
    Safe (verifyBooks extras v) fun _ => ∀ book ∈ v.elements, BookAccepted book ∧ E book :=
  safe_rejectIf_bind fun _ => Safe.forM fun book _ => verifyBook_safe hextras v.key book

omit [Build] [LibXrpl] in
theorem bookFlag_safe {v : FieldView} (h : v.present = true → v.isBool = true) :
    Safe (bookFlag v) fun _ => True := by
  unfold bookFlag
  split
  · exact (FieldView.asBool_safe (h ‹_›)).mono fun _ _ => trivial
  · trivial

omit [Build] in
/-- The domain is read once more by the other parser, which is where the NUL matters. -/
theorem bookOf_safe (hhex : HexHasNoNul 256) {book : FieldView} (h : BookAccepted book) :
    Safe (bookOf book) fun _ => True := by
  have hissuer {side : FieldView} (hside : SideAccepted side) :
      Safe (issuerOrXrp (side.child "issuer")) fun _ => True := by
    unfold issuerOrXrp
    split
    · apply (hside.issuer ‹_›).asString_bind
      intro text _ htext
      exact (valueOrLogicError_safe htext).mono fun _ _ => trivial
    · trivial
  have hdomain : Safe (bookDomain (book.child "domain")) fun _ => True := by
    unfold bookDomain
    split
    · apply (h.domain ‹_›).asString_bind
      intro text _ htext
      obtain ⟨v, hv⟩ := Option.isSome_iff_exists.mp htext
      -- the converter reads the text as a C string, which here is all of it
      have hcString : parseHexCString 256 text = some v := by
        rw [parseHexCString, Text.cString_of_noNul (hhex text v hv), hv]
      exact ((valueOrLogicError_safe (by simp [hcString])).mono fun _ _ => trivial).map
    · trivial
  apply h.pays.currency.asString_bind
  intro _ _ hpays
  apply (valueOrLogicError_safe hpays).bind
  intro _ _
  apply h.gets.currency.asString_bind
  intro _ _ hgets
  apply (valueOrLogicError_safe hgets).bind
  intro _ _
  refine (hissuer h.pays).bind fun _ _ => (hissuer h.gets).bind fun _ _ => ?_
  exact hdomain.bind fun _ _ => trivial

/-! ## `subscribe` -/

namespace Subscribe

/-- A book, for whom, and whether to send it at once and for both sides. -/
structure OrderBook where
  book : Book
  taker : Option Bytes := none
  snapshot : Bool := false
  both : Bool := false
  deriving DecidableEq, Repr

/-- All that a client may follow. -/
structure Input where
  accounts : Option (List AccountID) := none
  streams : Option (List StreamType) := none
  accountsProposed : Option (List AccountID) := none
  books : Option (List OrderBook) := none
  mptIssuances : Option (List MPTID) := none

instance : InputAggregate Input := ⟨{}, 5⟩

/-- The check of either list of accounts. -/
def kSubscribeAccountsValidator : Item (Option (List AccountID)) :=
  customValidator verifySubscribeAccounts

/-- The checks of `snapshot` and `taker`. -/
def verifyExtras (book : FieldView) : MaybeError := do
  let snapshotView := book.child "snapshot"
  rejectIf (snapshotView.present && !snapshotView.isBool) rpcInvalidParams "snapshotNotBool"
  let takerView := book.child "taker"
  if takerView.present then do
    rejectIf (!takerView.isString) rpcBadIssuer "Issuer account malformed."
    let text ← takerView.asString
    rejectIf (accountFromStringStrict text).isNone rpcBadIssuer "Issuer account malformed."

/-- The check of the books, with what `subscribe` alone reads of them. -/
def kBooksValidator : Item (Option (List OrderBook)) := customValidator (verifyBooks verifyExtras)

/-- The taker of a validated book. -/
def bookTaker (takerView : FieldView) : Parsed (Option Bytes) :=
  if takerView.present then some <$> takerView.asString else pure none

/-- The body of the loop of `SubscribeBooksConverter`. -/
def orderBookOf (bookView : FieldView) : Parsed OrderBook := do
  let both ← bookFlag (bookView.child "both")
  let snapshot ← bookFlag (bookView.child "snapshot")
  let taker ← bookTaker (bookView.child "taker")
  let book ← bookOf bookView
  pure { book, taker, snapshot, both }

/-- The books of the list, in order. -/
def subscribeBooksConv : Converter (Option (List OrderBook)) where
  parse fieldView := do
    let result ← fieldView.elements.mapM orderBookOf
    pure (some result)

/-- Every list has its validator before its converter. -/
def kInputSpec : TypedSpec Input where
  fields := [
    field "streams" ⟨"streams", fun out v => { out with streams := v }⟩
      [kSubscribeStreamValidator] streamVecConv,
    field "accounts" ⟨"accounts", fun out v => { out with accounts := v }⟩
      [kSubscribeAccountsValidator] asAccountIdVec,
    field "accounts_proposed" ⟨"accountsProposed", fun out v => { out with accountsProposed := v }⟩
      [kSubscribeAccountsValidator] asAccountIdVec,
    field "books" ⟨"books", fun out v => { out with books := v }⟩ [kBooksValidator]
      subscribeBooksConv,
    field "mpt_issuances" ⟨"mptIssuances", fun out v => { out with mptIssuances := v }⟩
      [uint192Array] asUint192Vec,
    unboundField "user" [deprecated],
    unboundField "password" [deprecated],
    unboundField "rt_accounts" [deprecated]]
  complete := by rfl

/-- What the converter relies on of the extra members. -/
structure ExtrasAccepted (book : FieldView) : Prop where
  snapshot : (book.child "snapshot").present = true → (book.child "snapshot").isBool = true
  taker : (book.child "taker").present = true → (book.child "taker").isString = true

omit [Build] in
/-- The taker and the snapshot flag, where they are given. -/
theorem verifyExtras_safe (book : FieldView) :
    Safe (verifyExtras book) fun _ => ExtrasAccepted book := by
  apply safe_rejectIf_bind
  intro hsnapshot
  have hsnapshot (hp : (book.child "snapshot").present = true) :
      (book.child "snapshot").isBool = true := by simpa [hp] using hsnapshot
  dsimp only
  split
  · apply safe_rejectIf_bind
    intro hs
    have hs : (book.child "taker").isString = true := by simpa using hs
    exact safe_asString_bind hs fun _ _ => safe_rejectIf.mono fun _ _ => ⟨hsnapshot, fun _ => hs⟩
  · rename_i hp
    exact ⟨hsnapshot, fun hp' => absurd hp' hp⟩

omit [Build] [LibXrpl] in
/-- The taker is a text, where there is one. -/
theorem bookTaker_safe {v : FieldView} (h : v.present = true → v.isString = true) :
    Safe (bookTaker v) fun _ => True := by
  unfold bookTaker
  split
  · exact ((FieldView.asString_safe (h ‹_›)).mono fun _ _ => trivial).map
  · trivial

omit [Build] in
theorem books_neverFaults (hhex : HexHasNoNul 256) {Input : Type} {key : String}
    {member : Member Input (Option (List OrderBook))} {unguarded} :
    (field key member [kBooksValidator] subscribeBooksConv unguarded).NeverFaults := by
  refine field_neverFaults_of_meets (.cons (.requirement fun v _ =>
    safe_ifPresent fun _ => verifyBooks_safe verifyExtras_safe v) .nil) fun v hp hv => ?_
  refine (Safe.mapM (P := fun _ _ => True) fun book hbook => ?_).bind fun _ _ => trivial
  obtain ⟨haccepted, hextras⟩ := hv hp book hbook
  apply (bookFlag_safe haccepted.both).bind
  intro _ _
  apply (bookFlag_safe hextras.snapshot).bind
  intro _ _
  apply (bookTaker_safe hextras.taker).bind
  intro _ _
  exact (bookOf_safe hhex haccepted).bind fun _ _ => trivial

theorem kInputSpec_neverFaults (hhex : HexHasNoNul 256) : kInputSpec.NeverFaults := by
  simp [TypedSpec.NeverFaults, kInputSpec, streams_neverFaults, kSubscribeAccountsValidator,
    subscribeAccounts_neverFaults, books_neverFaults hhex, mptIssuances_neverFaults]

end Subscribe

/-! ## `unsubscribe` -/

namespace Unsubscribe

/-- A book, and whether the other side is meant too. -/
structure OrderBook where
  book : Book
  both : Bool := false
  deriving DecidableEq, Repr

/-- All that a client may have followed. -/
structure Input where
  accounts : Option (List AccountID) := none
  streams : Option (List StreamType) := none
  accountsProposed : Option (List AccountID) := none
  books : Option (List OrderBook) := none
  mptIssuances : Option (List MPTID) := none

instance : InputAggregate Input := ⟨{}, 5⟩

/-- The check of either list of accounts. -/
def kSubscribeAccountsValidator : Item (Option (List AccountID)) :=
  customValidator verifySubscribeAccounts

/-- The check of the books: there is nothing besides. -/
def kBooksValidator : Item (Option (List OrderBook)) :=
  customValidator (verifyBooks fun _ => pure ())

/-- The body of the loop of `UnsubscribeBooksConverter`. -/
def orderBookOf (bookView : FieldView) : Parsed OrderBook := do
  let both ← bookFlag (bookView.child "both")
  let book ← bookOf bookView
  pure { book, both }

/-- The books of the list, in order. -/
def unsubscribeBooksConv : Converter (Option (List OrderBook)) where
  parse fieldView := do
    let result ← fieldView.elements.mapM orderBookOf
    pure (some result)

/-- The fields are those of `subscribe`, but for the books. -/
def kInputSpec : TypedSpec Input where
  fields := [
    field "streams" ⟨"streams", fun out v => { out with streams := v }⟩
      [kSubscribeStreamValidator] streamVecConv,
    field "accounts" ⟨"accounts", fun out v => { out with accounts := v }⟩
      [kSubscribeAccountsValidator] asAccountIdVec,
    field "accounts_proposed" ⟨"accountsProposed", fun out v => { out with accountsProposed := v }⟩
      [kSubscribeAccountsValidator] asAccountIdVec,
    field "books" ⟨"books", fun out v => { out with books := v }⟩ [kBooksValidator]
      unsubscribeBooksConv,
    field "mpt_issuances" ⟨"mptIssuances", fun out v => { out with mptIssuances := v }⟩
      [uint192Array] asUint192Vec,
    unboundField "url" [deprecated],
    unboundField "rt_accounts" [deprecated],
    unboundField "rt_transactions" [deprecated]]
  complete := by rfl

omit [Build] in
theorem books_neverFaults (hhex : HexHasNoNul 256) {Input : Type} {key : String}
    {member : Member Input (Option (List OrderBook))} {unguarded} :
    (field key member [kBooksValidator] unsubscribeBooksConv unguarded).NeverFaults := by
  refine field_neverFaults_of_meets (.cons (.requirement fun v _ => safe_ifPresent fun _ =>
    verifyBooks_safe (E := fun _ => True) (fun _ => (Safe.pure_iff _).mpr trivial) v) .nil)
    fun v hp hv => ?_
  refine (Safe.mapM (P := fun _ _ => True) fun book hbook => ?_).bind fun _ _ => trivial
  obtain ⟨haccepted, -⟩ := hv hp book hbook
  apply (bookFlag_safe haccepted.both).bind
  intro _ _
  exact (bookOf_safe hhex haccepted).bind fun _ _ => trivial

theorem kInputSpec_neverFaults (hhex : HexHasNoNul 256) : kInputSpec.NeverFaults := by
  simp [TypedSpec.NeverFaults, kInputSpec, streams_neverFaults, kSubscribeAccountsValidator,
    subscribeAccounts_neverFaults, books_neverFaults hhex, mptIssuances_neverFaults]

end Unsubscribe

end RpcSpec.Handlers
