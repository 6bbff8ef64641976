import RpcSpec.Handlers.SwappedBooks
import RpcSpec.Handlers.TakerAssets
import RpcSpec.Dsl.Selection
set_option autoImplicit false

/-!
# Accepted order books

Validator and converter read the members of a book each for itself.  What the validator
accepts the converters turn into books whose issues are well formed, with the domain the
element names.

`orderBooks_wellFormed` says so of `book_offers`, `subscribe` and `unsubscribe`, for lists
of any length.
-/

namespace RpcSpec.Handlers

open RpcSpec.Dsl RpcSpec.Foundation XrpldError

variable [LibXrpl]

/-! ## Issues -/

/-- XRP and nothing else is issued by the account of XRP, and nothing by the account one. -/
structure WellIssued (issue : Issue) : Prop where
  xrp : Xrpl.isXRP issue.currency = true ↔ issue.account = Xrpl.xrpAccount
  issuer : issue.account ≠ Xrpl.noAccount

omit [LibXrpl] in
/-- The two comparisons of currency and issuer that every check of an issue makes. -/
theorem isXRP_iff_of_checks {currency : Currency} {account : AccountID}
    (hunneeded : (Xrpl.isXRP currency && !Xrpl.isXRP account) = false)
    (hinvalid : (!Xrpl.isXRP currency && Xrpl.isXRP account) = false) :
    Xrpl.isXRP currency = true ↔ account = Xrpl.xrpAccount := by
  have haccount : Xrpl.isXRP account = true ↔ account = Xrpl.xrpAccount := beq_iff_eq
  rw [← haccount]
  cases hcurrency : Xrpl.isXRP currency <;> cases hissuer : Xrpl.isXRP account <;>
    simp [hcurrency, hissuer] at hunneeded hinvalid ⊢

/-- The account an issuer member names, that of XRP where there is none. -/
def NamesIssuer (issuerView : FieldView) (account : AccountID) : Prop :=
  (issuerView.present = false ∧ account = Xrpl.xrpAccount) ∨
    ∃ text, issuerView.value = some (.string text) ∧ LibXrpl.toIssuer text = some account

/-- The issue that the members of a side name. -/
structure NamesIssue (side : FieldView) (issue : Issue) : Prop where
  currency : ∃ text, (side.child "currency").value = some (.string text) ∧
    LibXrpl.toCurrency text = some issue.currency
  issuer : NamesIssuer (side.child "issuer") issue.account

/-- An issuer that is let through is named and is not account one. -/
theorem givenIssuer_ok {errors : IssuerErrors} {v : FieldView} {account : AccountID}
    (h : givenIssuer errors v = .ok account) :
    NamesIssuer v account ∧ account ≠ Xrpl.noAccount := by
  unfold givenIssuer at h
  cases hpresent : v.present with
  | false =>
      rw [hpresent, if_neg Bool.false_ne_true] at h
      obtain rfl := pure_eq_ok_iff.mp h
      exact ⟨.inl ⟨hpresent, rfl⟩, by decide⟩
  | true =>
      rw [hpresent, if_pos rfl] at h
      simp only [bind_eq_ok_iff, rejectIf_eq_ok_iff, orReject_eq_ok_iff, pure_eq_ok_iff,
        FieldView.asString_eq_ok_iff, exists_const] at h
      obtain ⟨-, text, htext, _, hissuer, hone, rfl⟩ := h
      exact ⟨.inr ⟨text, htext, hissuer⟩, by simpa using hone⟩

theorem bookIssuer_ok {errors : IssuerErrors} {currency : Currency} {v : FieldView}
    {account : AccountID} (h : bookIssuer errors currency v = .ok account) :
    NamesIssuer v account ∧ WellIssued ⟨currency, account⟩ := by
  unfold bookIssuer at h
  simp only [bind_eq_ok_iff, rejectIf_eq_ok_iff, pure_eq_ok_iff, exists_const] at h
  obtain ⟨_, hgiven, hunneeded, hinvalid, rfl⟩ := h
  obtain ⟨hnames, hone⟩ := givenIssuer_ok hgiven
  exact ⟨hnames, isXRP_iff_of_checks hunneeded hinvalid, hone⟩

/-- A currency that is let through is spelled by a string. -/
theorem bookCurrency_ok {code : XrpldError} {v : FieldView} {currency : Currency}
    (h : bookCurrency code v = .ok currency) :
    ∃ text, v.value = some (.string text) ∧ LibXrpl.toCurrency text = some currency := by
  unfold bookCurrency at h
  simp only [bind_eq_ok_iff, rejectIf_eq_ok_iff, orReject_eq_ok_iff,
    FieldView.asString_eq_ok_iff, exists_const] at h
  exact h.2

/-- An accepted side names a well-formed issue. -/
theorem SidePasses.wellIssued {side : FieldView} {issue : Issue} (h : SidePasses side issue) :
    NamesIssue side issue ∧ WellIssued issue := by
  obtain ⟨hnames, hissued⟩ := bookIssuer_ok (h.issuer paysErrors)
  exact ⟨⟨bookCurrency_ok (h.currency rpcSrcCurMalformed), hnames⟩, hissued⟩

/-! ## Books -/

/-- The domain a book is given: that of its member, where there is one. -/
def NamesDomain (domainView : FieldView) (domain : Option Uint256) : Prop :=
  (domainView.present = false ∧ domain = none) ∨
    ∃ text value, domainView.value = some (.string text) ∧
      LibXrpl.parseHex 256 text = some value ∧ domain = some value

/-- The book of an element: two different well-formed issues and the domain. -/
structure WellFormedBook (element : FieldView) (book : Book) : Prop where
  pays : NamesIssue (element.child "taker_pays") book.in_
  gets : NamesIssue (element.child "taker_gets") book.out
  paysIssued : WellIssued book.in_
  getsIssued : WellIssued book.out
  differ : book.in_ ≠ book.out
  domain : NamesDomain (element.child "domain") book.domain

/-! ### Read by the converters -/

/-- What the validator read the converter reads. -/
theorem issuerOrXrp_of_names {v : FieldView} {account : AccountID} (h : NamesIssuer v account) :
    issuerOrXrp v = .ok account := by
  unfold issuerOrXrp
  obtain ⟨habsent, rfl⟩ | ⟨text, htext, hissuer⟩ := h
  · rw [habsent, if_neg Bool.false_ne_true]
    rfl
  · have hpresent : v.present = true := by simp [FieldView.present, htext]
    rw [hpresent, if_pos rfl, FieldView.asString_eq_ok_iff.mpr htext]
    change valueOrLogicError (LibXrpl.toIssuer text) = _
    rw [hissuer]
    rfl

/-- What the validator has checked of the domain, the converter reads of it. -/
theorem bookDomain_of_passes (hhex : HexHasNoNul 256) {extras : FieldView → MaybeError}
    {book : FieldView} (h : RestPasses extras book) :
    ∃ domain, bookDomain (book.child "domain") = .ok domain ∧
      NamesDomain (book.child "domain") domain := by
  unfold bookDomain
  cases hpresent : (book.child "domain").present with
  | false => exact ⟨none, rfl, .inl ⟨hpresent, rfl⟩⟩
  | true =>
      obtain ⟨text, htext, hparsed⟩ := h.domainText hpresent
      obtain ⟨value, hvalue⟩ :=
        Option.isSome_iff_exists.mp (Option.isNone_eq_false_iff.mp hparsed)
      -- the converter reads the text as a C string, which here is all of it
      have hcString : parseHexCString 256 text = some value := by
        rw [parseHexCString, Text.cString_of_noNul (hhex text value hvalue), hvalue]
      refine ⟨some value, ?_, .inr ⟨text, value, FieldView.asString_eq_ok_iff.mp htext, hvalue,
        rfl⟩⟩
      rw [if_pos rfl, htext]
      change some <$> valueOrLogicError (parseHexCString 256 text) = _
      rw [hcString]
      rfl

/-- An element the validator accepts is read as a well-formed book. -/
theorem bookOf_of_passes (hhex : HexHasNoNul 256) {extras : FieldView → MaybeError} {key : String}
    {element : FieldView} (h : verifyBook extras key element = .ok ()) :
    ∃ book, bookOf element = .ok book ∧ WellFormedBook element book := by
  obtain ⟨hrest, pays, gets, hpays, hgets, hne⟩ := verifyBook_eq_ok_iff.mp h
  obtain ⟨hpaysNames, hpaysIssued⟩ := hpays.wellIssued
  obtain ⟨hgetsNames, hgetsIssued⟩ := hgets.wellIssued
  obtain ⟨domain, hdomain, hnames⟩ := bookDomain_of_passes hhex hrest
  refine ⟨⟨pays, gets, domain⟩, ?_, hpaysNames, hgetsNames, hpaysIssued, hgetsIssued, hne, hnames⟩
  obtain ⟨paysText, hpaysText, hpayCurrency⟩ := hpaysNames.currency
  obtain ⟨getsText, hgetsText, hgetCurrency⟩ := hgetsNames.currency
  have hread {text : Bytes} {currency : Currency}
      (htext : LibXrpl.toCurrency text = some currency) :
      currencyFromValidated text = .ok currency := by
    rw [currencyFromValidated, htext]
    rfl
  unfold bookOf
  simp only [bind_eq_ok_iff, pure_eq_ok_iff]
  exact ⟨paysText, FieldView.asString_eq_ok_iff.mpr hpaysText, _, hread hpayCurrency, getsText,
    FieldView.asString_eq_ok_iff.mpr hgetsText, _, hread hgetCurrency, _,
    issuerOrXrp_of_names hpaysNames.issuer, _, issuerOrXrp_of_names hgetsNames.issuer, _, hdomain,
    rfl⟩

omit [LibXrpl] in
/-- A flag that is no boolean has been refused before. -/
theorem bookFlag_returns {v : FieldView} (h : (v.present && !v.isBool) = false) :
    ∃ flag, bookFlag v = .ok flag := by
  unfold bookFlag
  cases hpresent : v.present with
  | false => exact ⟨false, rfl⟩
  | true =>
      have hbool : v.isBool = true := by simpa [hpresent] using h
      obtain ⟨key, value⟩ := v
      rcases value with _ | (_ | flag | _ | _ | _ | _ | _ | _)
      case some.bool => exact ⟨flag, rfl⟩
      all_goals cases hbool

/-! ### Arrays of books -/

omit [LibXrpl] in
/-- Elements that a loop has accepted one by one are read one by one. -/
theorem mapM_of_forM {α β : Type} {check : α → MaybeError} {read : α → Parsed β}
    {R : α → β → Prop} (hread : ∀ a, check a = .ok () → ∃ b, read a = .ok b ∧ R a b) :
    ∀ {elements : List α}, forM elements check = .ok () →
      ∃ values, elements.mapM read = .ok values ∧ List.Forall₂ R elements values
  | [], _ => ⟨[], rfl, .nil⟩
  | a :: rest, h => by
      rw [List.forM_cons] at h
      obtain ⟨_, hfirst, hrest⟩ := bind_eq_ok_iff.mp h
      obtain ⟨b, hb, hR⟩ := hread a hfirst
      obtain ⟨values, hvalues, hall⟩ := mapM_of_forM hread hrest
      refine ⟨b :: values, ?_, .cons hR hall⟩
      rw [List.mapM_cons, hb]
      change (do let values ← rest.mapM read; pure (b :: values) : Parsed (List β)) = _
      rw [hvalues]
      rfl

/-- The validator accepts only arrays that the converter turns into well-formed books. -/
def BooksWellFormed {OrderBook : Type} (validator : Item (Option (List OrderBook)))
    (conv : Converter (Option (List OrderBook))) (bookOf : OrderBook → Book) : Prop :=
  ∀ v, v.isArray = true → validator.verify v = .ok () →
    ∃ books, conv.parse v = .ok (some books) ∧
      List.Forall₂ (fun element orderBook => WellFormedBook element (bookOf orderBook))
        v.elements books

/-- The loop of a converter of books reads what the validator lets pass. -/
theorem booksWellFormed_of_reads (hhex : HexHasNoNul 256) {OrderBook : Type}
    {extras : FieldView → MaybeError} {conv : Converter (Option (List OrderBook))}
    {orderBookOf : FieldView → Parsed OrderBook} {bookIn : OrderBook → Book}
    (hconv : ∀ v, conv.parse v = (do
      let result ← v.elements.mapM orderBookOf
      pure (some result)))
    (hread : ∀ element book, RestPasses extras element → bookOf element = .ok book →
      ∃ orderBook, orderBookOf element = .ok orderBook ∧ bookIn orderBook = book) :
    BooksWellFormed (customValidator (verifyBooks extras)) conv bookIn := by
  intro v harray haccepted
  have hpresent : v.present = true := FieldView.present_of_is (t := .array) harray
  have hverify : verifyBooks extras v = .ok () := by
    rw [customValidator, Item.verify, ifPresent, hpresent] at haccepted
    exact haccepted
  obtain ⟨_, -, hforM⟩ := bind_eq_ok_iff.mp hverify
  have helement : ∀ element, verifyBook extras v.key element = .ok () →
      ∃ orderBook, orderBookOf element = .ok orderBook ∧
        WellFormedBook element (bookIn orderBook) := by
    intro element hpasses
    obtain ⟨book, hbook, hwell⟩ := bookOf_of_passes hhex hpasses
    obtain ⟨orderBook, horderBook, rfl⟩ :=
      hread element book (verifyBook_eq_ok_iff.mp hpasses).1 hbook
    exact ⟨orderBook, horderBook, hwell⟩
  obtain ⟨books, hbooks, hall⟩ := mapM_of_forM helement hforM
  refine ⟨books, ?_, hall⟩
  rw [hconv, hbooks]
  rfl

theorem Subscribe.orderBookOf_of_passes {element : FieldView} {book : Book}
    (h : RestPasses Subscribe.verifyExtras element) (hbook : bookOf element = .ok book) :
    ∃ orderBook, Subscribe.orderBookOf element = .ok orderBook ∧ orderBook.book = book := by
  have hextras := h.extras
  unfold Subscribe.verifyExtras at hextras
  simp only [bind_eq_ok_iff, rejectIf_eq_ok_iff, exists_const] at hextras
  obtain ⟨hsnapshot, htaker⟩ := hextras
  obtain ⟨both, hboth⟩ := bookFlag_returns h.both
  obtain ⟨snapshot, hsnapshot⟩ := bookFlag_returns hsnapshot
  obtain ⟨taker, htaker⟩ :
      ∃ taker, Subscribe.bookTaker (element.child "taker") = .ok taker := by
    unfold Subscribe.bookTaker
    cases hpresent : (element.child "taker").present with
    | false => exact ⟨none, rfl⟩
    | true =>
        rw [hpresent, if_pos rfl] at htaker
        simp only [bind_eq_ok_iff, rejectIf_eq_ok_iff, exists_const] at htaker
        obtain ⟨-, text, htext, -⟩ := htaker
        refine ⟨some text, ?_⟩
        rw [if_pos rfl, htext]
        rfl
  refine ⟨⟨book, taker, snapshot, both⟩, ?_, rfl⟩
  unfold Subscribe.orderBookOf
  simp only [bind_eq_ok_iff, pure_eq_ok_iff]
  exact ⟨both, hboth, snapshot, hsnapshot, taker, htaker, book, hbook, rfl⟩

theorem Unsubscribe.orderBookOf_of_passes {element : FieldView} {book : Book}
    (h : RestPasses (fun _ => pure ()) element) (hbook : bookOf element = .ok book) :
    ∃ orderBook, Unsubscribe.orderBookOf element = .ok orderBook ∧ orderBook.book = book := by
  obtain ⟨both, hboth⟩ := bookFlag_returns h.both
  refine ⟨⟨book, both⟩, ?_, rfl⟩
  unfold Unsubscribe.orderBookOf
  simp only [bind_eq_ok_iff, pure_eq_ok_iff]
  exact ⟨both, hboth, book, hbook, rfl⟩

/-! ## The assets of an offer -/

namespace BookOffers

open TakerAssetConverter

/-- The issuer of a side of an offer is read as that of a side of a book. -/
theorem issuerXrpld_eq (isrErr : XrpldError) (key : String) (v : FieldView) :
    issuerXrpld isrErr key v = givenIssuer
      { field := key ++ ".issuer"
        code := isrErr
        notString := "Invalid field '" ++ key ++ ".issuer', not string."
        bad := "Invalid field '" ++ key ++ ".issuer', bad issuer."
        accountOne := "Invalid field '" ++ key ++ ".issuer', bad issuer account one." } v := rfl

/-- An asset that is read is an issue, and a proper one. -/
theorem parseXrpld_ok {amtErr isrErr : XrpldError} {v : FieldView} {asset : Asset}
    (h : parseXrpld amtErr isrErr v = .ok asset) :
    ∃ issue, asset = .issue issue ∧ NamesIssue v issue ∧ WellIssued issue := by
  unfold parseXrpld at h
  simp only [bind_eq_ok_iff, rejectIf_eq_ok_iff, orReject_eq_ok_iff, pure_eq_ok_iff,
    FieldView.asString_eq_ok_iff, exists_const] at h
  obtain ⟨text, htext, currency, hcurrency, account, hissuer, hunneeded, hinvalid, rfl⟩ := h
  rw [issuerXrpld_eq] at hissuer
  obtain ⟨hnames, hone⟩ := givenIssuer_ok hissuer
  exact ⟨⟨currency, account⟩, rfl, ⟨⟨text, htext, hcurrency⟩, hnames⟩,
    isXRP_iff_of_checks hunneeded hinvalid, hone⟩

variable [Build]

omit [LibXrpl] in
/-- A side names a currency or an issuance, not both. -/
theorem verifyTakerMembers_exclusive (v : FieldView) : Safe (verifyTakerMembers v) fun _ =>
    (v.child "currency").present = true → (v.child "mpt_issuance_id").present = false := by
  refine safe_rejectIf_bind fun _ => safe_rejectIf_bind fun hboth => ?_
  refine safe_rejectIf_bind fun _ => safe_rejectIf.mono fun _ _ hcurrency => ?_
  simpa [hcurrency] using hboth

/-- On xrpld an accepted side does not name both a currency and an issuance. -/
theorem takerItems_exclusive (hbuild : kIsXrpldBuild = true) (key : String)
    (amtErr isrErr : XrpldError) : ItemsCheck (takerItems key amtErr isrErr) fun v =>
      (v.child "currency").present = true → (v.child "mpt_issuance_id").present = false := by
  have hrequired : (required : Item Asset).Checks fun v => v.present = true :=
    .requirement Required.verify_safe
  have htype : (type [.object] : Item Asset).Checks fun _ => True :=
    .requirement fun _ => safe_rejectIf.mono fun _ _ => trivial
  have hvalidator : kTakerValidator.Checks fun v => v.present = true →
      (v.child "currency").present = true → (v.child "mpt_issuance_id").present = false := by
    refine .requirement fun v => safe_ifPresent fun _ => ?_
    unfold verifyTaker
    rw [if_pos hbuild]
    exact safe_rejectIf_bind fun _ => verifyTakerMembers_exclusive v
  have hsection := Item.Checks.section_ (takerFields_read key amtErr isrErr)
  refine (ItemsCheck.cons hrequired (.cons (.serverConditional (.inr rfl) (.single htype))
    (.cons hvalidator (.single hsection)))).mono ?_
  rintro v ⟨hpresent, -, hexclusive, -⟩
  exact hexclusive hpresent

/-- An asset that names a currency is the well-formed issue its members name. -/
def WellFormedAsset (side : FieldView) (asset : Asset) : Prop :=
  (side.child "currency").present = true →
    ∃ issue, asset = .issue issue ∧ NamesIssue side issue ∧ WellIssued issue

/-- The field of a side assigns a well-formed asset. -/
theorem takerField_wellFormed (hbuild : kIsXrpldBuild = true) {key : String}
    {amtErr isrErr : XrpldError} {member : Member Input Asset} {read : Input → Asset}
    (hget : ∀ out asset, read (member.assign out asset) = asset) {unguarded} {root : Json}
    {update : Input → Input}
    (h : ((field key member (takerItems key amtErr isrErr) (takerAssetConverter amtErr isrErr)
      unguarded).outcome root).result = .ok update) (out : Input) :
    WellFormedAsset (rootChild root key) (read (update out)) := by
  obtain ⟨hskips, -⟩ | ⟨v, hrun, hcases⟩ := BoundField.update_cases h
  · change skipsField (takerItems key amtErr isrErr) root = true at hskips
    rw [not_skipsField_takerItems] at hskips
    cases hskips
  have hexclusive := takerItems_exclusive hbuild key amtErr isrErr (rootChild root key)
  rw [SafeRun, hrun] at hexclusive
  obtain ⟨rfl, hexclusive⟩ := hexclusive
  obtain ⟨-, hpresent, -⟩ := takerItems_read hrun
  obtain ⟨habsent, -⟩ | ⟨-, asset, hasset, rfl⟩ := hcases
  · rw [hpresent] at habsent
    cases habsent
  intro hcurrency
  rw [hget]
  change (takerAssetConverter amtErr isrErr).parse _ = _ at hasset
  have hparse : parseXrpld amtErr isrErr (rootChild root key) = .ok asset := by
    simpa [takerAssetConverter, hexclusive hcurrency, hbuild] using hasset
  exact parseXrpld_ok hparse

/-- On xrpld the asset of a side is the one the side names. -/
theorem asset_wellFormed (hbuild : kIsXrpldBuild = true) {key : String}
    {amtErr isrErr : XrpldError} {member : Member Input Asset} {read : Input → Asset} {unguarded}
    (hmem : field key member (takerItems key amtErr isrErr) (takerAssetConverter amtErr isrErr)
      unguarded ∈ kInputSpec.fields)
    (hget : ∀ out asset, read (member.assign out asset) = asset)
    (hothers : ∀ g ∈ kInputSpec.fields, g.key = key ∨ g.Keeps read)
    {root root' : Json} {input : Input} (hrun : kInputSpec.parse root = .ok input root') :
    WellFormedAsset (rootChild root key) (read input) :=
  (TypedSpec.SetBy.of_nodup nodup_keys rfl hmem hothers).holds
    (fun _ hupdate out => takerField_wellFormed hbuild hget hupdate out) hrun

/-- Both sides of an accepted request, as they stand in the `Input`. -/
theorem assets_wellFormed (hbuild : kIsXrpldBuild = true) {root root' : Json} {input : Input}
    (hrun : kInputSpec.parse root = .ok input root') :
    WellFormedAsset (rootChild root "taker_pays") input.takerPays ∧
      WellFormedAsset (rootChild root "taker_gets") input.takerGets := by
  constructor
  · apply asset_wellFormed hbuild (List.mem_of_getElem? (i := 1) rfl) (fun _ _ => rfl) ?_ hrun
    simp [kInputSpec]
  · apply asset_wellFormed hbuild (List.mem_of_getElem? (i := 2) rfl) (fun _ _ => rfl) ?_ hrun
    simp [kInputSpec]

end BookOffers

/-! ## The three requests -/

variable [Build]

/-- What is accepted as books, or on xrpld as the two sides of an offer, has the issues its
members name, each with an issuer just where it needs one. -/
theorem orderBooks_wellFormed (hhex : HexHasNoNul 256) :
    BooksWellFormed Subscribe.kBooksValidator Subscribe.subscribeBooksConv
        Subscribe.OrderBook.book ∧
      BooksWellFormed Unsubscribe.kBooksValidator Unsubscribe.unsubscribeBooksConv
        Unsubscribe.OrderBook.book ∧
      (kIsXrpldBuild = true → ∀ root root' input,
        BookOffers.kInputSpec.parse root = .ok input root' →
          BookOffers.WellFormedAsset (rootChild root "taker_pays") input.takerPays ∧
            BookOffers.WellFormedAsset (rootChild root "taker_gets") input.takerGets) := by
  refine ⟨?_, ?_, fun hbuild root root' input hrun => BookOffers.assets_wellFormed hbuild hrun⟩
  · exact booksWellFormed_of_reads hhex (fun _ => rfl) fun _ _ => Subscribe.orderBookOf_of_passes
  · exact booksWellFormed_of_reads hhex (fun _ => rfl) fun _ _ => Unsubscribe.orderBookOf_of_passes

/-- XRP paid for the dollars of account two. -/
def xrpForDollars : Json := .object
  [("taker_pays", .object [("currency", .string (bytesOf "XRP"))]),
    ("taker_gets", .object [("currency", .string (bytesOf "USD")),
      ("issuer", .string (List.replicate 39 0x30 ++ [0x32]))])]

/-- The same book in a list, as `subscribe` takes it. -/
def xrpForDollarsBooks : FieldView := ⟨"books", some (.array [xrpForDollars])⟩

set_option maxRecDepth 4000 in
omit [Build] [LibXrpl] in
/-- A book that is accepted everywhere. -/
theorem orderBooks_wellFormed_xrpForDollars :
    (∃ books, @Converter.parse _ (@Subscribe.subscribeBooksConv hexLib) xrpForDollarsBooks =
        .ok (some books) ∧
      List.Forall₂ (fun element orderBook =>
        @WellFormedBook hexLib element orderBook.book) xrpForDollarsBooks.elements books) ∧
      ∃ input root', @TypedSpec.parse _ _ .xrpld hexLib
          (@BookOffers.kInputSpec .xrpld hexLib) xrpForDollars = .ok input root' ∧
        @BookOffers.WellFormedAsset hexLib (rootChild xrpForDollars "taker_pays")
          input.takerPays := by
  obtain ⟨hsubscribe, -, hoffers⟩ := @orderBooks_wellFormed hexLib .xrpld
    (@DocumentedHex.hexHasNoNul hexLib _ hexLib_documentedHex (by decide))
  exact ⟨hsubscribe xrpForDollarsBooks rfl rfl, _, _, rfl, (hoffers rfl xrpForDollars _ _ rfl).1⟩

end RpcSpec.Handlers
