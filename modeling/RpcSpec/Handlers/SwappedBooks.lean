import RpcSpec.Handlers.SwappedSides
set_option autoImplicit false

/-!
# The sides of the books exchanged

The checks of a book look at its two sides one after the other and report them with
errors of their own; whether a book is accepted, and as which, is the same for both.

`sides_swapAlong` is the result for the three requests and both servers: acceptance, the
`Input`, and the errors up to the sides they name.
-/

namespace RpcSpec.Handlers

open RpcSpec.Dsl RpcSpec.Foundation XrpldError

variable [Build] [LibXrpl]

/-! ## One side -/

omit [Build] in
/-- A currency is judged alike, whatever code it is refused with. -/
theorem bookCurrency_match (code code' : XrpldError) (v : FieldView) :
    Matches AnyErrors Eq (bookCurrency code v) (bookCurrency code' v) := by
  unfold bookCurrency
  refine (rejectIf_match trivial _).bind fun _ _ _ => same_bind _ fun text => ?_
  exact orReject_match trivial _

omit [Build] in
theorem givenIssuer_match (errors errors' : IssuerErrors) (v : FieldView) :
    Matches AnyErrors Eq (givenIssuer errors v) (givenIssuer errors' v) := by
  unfold givenIssuer
  split
  · refine (rejectIf_match trivial _).bind fun _ _ _ => same_bind _ fun text => ?_
    exact orReject_bind fun issuer => (rejectIf_match trivial _).bind fun _ _ _ => .ok rfl
  · exact .ok rfl

omit [Build] in
theorem bookIssuer_match (errors errors' : IssuerErrors) (currency : Currency) (v : FieldView) :
    Matches AnyErrors Eq (bookIssuer errors currency v) (bookIssuer errors' currency v) := by
  unfold bookIssuer
  refine (givenIssuer_match errors errors' v).bind ?_
  rintro issuer _ rfl
  apply (rejectIf_match trivial _).bind
  intro _ _ _
  exact (rejectIf_match trivial _).bind fun _ _ _ => .ok rfl

/-- The checks of a book let a side pass, as an issue.  Which of the two sides it is only
makes a difference to the errors. -/
structure SidePasses (side : FieldView) (issue : Issue) : Prop where
  present : side.present = true
  isObject : side.isObject = true
  currency : ∀ code, bookCurrency code (side.child "currency") = .ok issue.currency
  issuer : ∀ errors, bookIssuer errors issue.currency (side.child "issuer") = .ok issue.account

/-- What the checks of a book ask of the members that are not its sides. -/
structure RestPasses (extras : FieldView → MaybeError) (book : FieldView) : Prop where
  isObject : book.isObject = true
  both : ((book.child "both").present && !(book.child "both").isBool) = false
  extras : extras book = .ok ()
  domain : ((book.child "domain").present && !(book.child "domain").isString) = false
  domainText : (book.child "domain").present = true → ∃ text,
    (book.child "domain").asString = .ok text ∧ (LibXrpl.parseHex 256 text).isNone = false

omit [Build] in
/-- The two checks of a side, told by what they read. -/
theorem sidePasses_iff {side : FieldView} {issue : Issue} (code : XrpldError)
    (errors : IssuerErrors) : SidePasses side issue ↔
      (side.present = true ∧ side.isObject = true) ∧
        bookCurrency code (side.child "currency") = .ok issue.currency ∧
        bookIssuer errors issue.currency (side.child "issuer") = .ok issue.account := by
  constructor
  · exact fun h => ⟨⟨h.present, h.isObject⟩, h.currency code, h.issuer errors⟩
  · rintro ⟨⟨hpresent, hobject⟩, hcurrency, hissuer⟩
    exact ⟨hpresent, hobject, fun code' => (bookCurrency_match code code' _).ok_iff.mp hcurrency,
      fun errors' => (bookIssuer_match errors errors' _ _).ok_iff.mp hissuer⟩

omit [Build] in
/-- The check of the domain, told by what it reads. -/
theorem domainCheck_eq_ok_iff {v : FieldView} :
    (if v.present then do
      let text ← v.asString
      rejectIf (LibXrpl.parseHex 256 text).isNone rpcDomainMalformed
    else pure () : MaybeError) = .ok () ↔ (v.present = true → ∃ text,
      v.asString = .ok text ∧ (LibXrpl.parseHex 256 text).isNone = false) := by
  cases v.present with
  | true => simp only [if_true, bind_eq_ok_iff, rejectIf_eq_ok_iff, forall_const]
  | false => exact ⟨fun _ => nofun, fun _ => rfl⟩

omit [Build] in
/-- A book passes when its sides do and differ, and the rest does. -/
theorem verifyBook_eq_ok_iff {extras : FieldView → MaybeError} {key : String} {book : FieldView} :
    verifyBook extras key book = .ok () ↔ RestPasses extras book ∧ ∃ pays gets,
      SidePasses (book.child "taker_pays") pays ∧ SidePasses (book.child "taker_gets") gets ∧
        pays ≠ gets := by
  unfold verifyBook
  simp only [bind_eq_ok_iff, rejectIf_eq_ok_iff, exists_const, Bool.not_eq_false',
    domainCheck_eq_ok_iff]
  constructor
  · rintro ⟨hobject, hboth, _, hextras, hpays, hpaysObject, hgets, hgetsObject, payCurrency,
      hpayCurrency, getCurrency, hgetCurrency, hdomain, payIssuer, hpayIssuer, getIssuer,
      hgetIssuer, hne, hdomainText⟩
    refine ⟨⟨hobject, hboth, hextras, hdomain, hdomainText⟩, ⟨payCurrency, payIssuer⟩,
      ⟨getCurrency, getIssuer⟩, ?_, ?_, ?_⟩
    · exact (sidePasses_iff _ _).mpr ⟨⟨hpays, hpaysObject⟩, hpayCurrency, hpayIssuer⟩
    · exact (sidePasses_iff _ _).mpr ⟨⟨hgets, hgetsObject⟩, hgetCurrency, hgetIssuer⟩
    · simpa using hne
  · rintro ⟨⟨hobject, hboth, hextras, hdomain, hdomainText⟩, ⟨payCurrency, payIssuer⟩,
      ⟨getCurrency, getIssuer⟩, hpays, hgets, hne⟩
    refine ⟨hobject, hboth, (), hextras, hpays.present, hpays.isObject, hgets.present,
      hgets.isObject, payCurrency, hpays.currency _, getCurrency, hgets.currency _, hdomain,
      payIssuer, hpays.issuer _, getIssuer, hgets.issuer _, ?_, hdomainText⟩
    simpa using hne

/-! ## Two books with the sides exchanged -/

/-- The second view holds the value of the first with its sides exchanged. -/
def SwappedBook (book book' : FieldView) : Prop :=
  book'.key = book.key ∧ book'.value = book.value.map swapSides

namespace SwappedBook

variable {book book' : FieldView}

omit [Build] [LibXrpl]

/-- A book is what its swapped one swaps to. -/
theorem symm (h : SwappedBook book book') : SwappedBook book' book := by
  refine ⟨h.1.symm, ?_⟩
  rw [h.2, Option.map_map]
  have hid : swapSides ∘ swapSides = id := funext swapSides_swapSides
  rw [hid, Option.map_id_fun, id]

/-- A swapped book is an object where the book is. -/
theorem isObject (h : SwappedBook book book') : book'.isObject = book.isObject := by
  obtain ⟨key, value⟩ := book
  obtain ⟨key', value'⟩ := book'
  obtain rfl : value' = value.map swapSides := h.2
  rcases value with _ | (_ | _ | _ | _ | _ | _ | _ | _) <;> rfl

/-- What stands under a key stands under the swapped one. -/
theorem child_value (h : SwappedBook book book') (key : String) :
    (book'.child (swapKey key)).value = (book.child key).value := by
  obtain ⟨_, value⟩ := book
  obtain ⟨_, value'⟩ := book'
  obtain rfl : value' = value.map swapSides := h.2
  cases value with
  | none => rfl
  | some json => exact member?_swapSides json key

/-- What is paid here is what is got there. -/
theorem pays (h : SwappedBook book book') :
    SameValue AnyKeys (book.child "taker_gets") (book'.child "taker_pays") :=
  ⟨h.child_value "taker_gets", trivial⟩

theorem gets (h : SwappedBook book book') :
    SameValue AnyKeys (book.child "taker_pays") (book'.child "taker_gets") :=
  ⟨h.child_value "taker_pays", trivial⟩

/-- The other members are where they were. -/
theorem child (h : SwappedBook book book') {key : String} (hpays : key ≠ "taker_pays")
    (hgets : key ≠ "taker_gets") : book'.child key = book.child key := by
  have hvalue := h.child_value key
  rw [swapKey_of_ne hpays hgets] at hvalue
  exact congrArg (FieldView.mk key) hvalue

end SwappedBook

/-! ### Checked -/

omit [Build] in
/-- A side passes under one key as under the other. -/
theorem SidePasses.congr {side side' : FieldView} {issue : Issue}
    (hside : SameValue AnyKeys side side') (h : SidePasses side issue) :
    SidePasses side' issue where
  present := hside.present.trans h.present
  isObject := hside.isObject.trans h.isObject
  currency code := by rw [hside.child, h.currency]
  issuer errors := by rw [hside.child, h.issuer]

/-- The check of the extra members does not look at the sides. -/
def IgnoresSides (extras : FieldView → MaybeError) : Prop :=
  ∀ book book', SwappedBook book book' → extras book' = extras book

variable {extras : FieldView → MaybeError} {book book' : FieldView}

omit [Build] in
/-- What is asked besides does not look at the sides. -/
theorem RestPasses.congr (hextras : IgnoresSides extras) (hbook : SwappedBook book book')
    (h : RestPasses extras book) : RestPasses extras book' where
  isObject := hbook.isObject.trans h.isObject
  both := by rw [hbook.child (by decide) (by decide), h.both]
  extras := by rw [hextras book book' hbook, h.extras]
  domain := by rw [hbook.child (by decide) (by decide), h.domain]
  domainText := by
    rw [hbook.child (by decide) (by decide)]
    exact h.domainText

omit [Build] in
/-- What one book passes the swapped one passes. -/
theorem verifyBook_swappedFollows (hextras : IgnoresSides extras) (hbook : SwappedBook book book')
    (key key' : String) :
    Follows Eq (verifyBook extras key book) (verifyBook extras key' book') := by
  rintro ⟨⟩ hok
  obtain ⟨hrest, pays, gets, hpays, hgets, hne⟩ := verifyBook_eq_ok_iff.mp hok
  refine ⟨(), verifyBook_eq_ok_iff.mpr ⟨hrest.congr hextras hbook, gets, pays, ?_⟩, rfl⟩
  exact ⟨hgets.congr hbook.pays, hpays.congr hbook.gets, hne.symm⟩

omit [Build] in
/-- Both pass or neither does, with errors that may differ. -/
theorem verifyBook_match (hextras : IgnoresSides extras) (hbook : SwappedBook book book')
    (key key' : String) :
    Matches AnyErrors Eq (verifyBook extras key book) (verifyBook extras key' book') :=
  .of_follows (verifyBook_swappedFollows hextras hbook key key')
    ((verifyBook_swappedFollows hextras hbook.symm key' key).mono fun _ _ _ => trivial)

omit [Build] in
/-- The list is read up to the first book that fails, on both sides the same one. -/
theorem verifyBooks_match (hextras : IgnoresSides extras) {v v' : FieldView}
    (harray : v'.isArray = v.isArray) (hbooks : List.Forall₂ SwappedBook v.elements v'.elements) :
    Matches AnyErrors Eq (verifyBooks extras v) (verifyBooks extras v') := by
  unfold verifyBooks
  rw [harray]
  apply (rejectIf_match trivial _).bind
  intro _ _ _
  exact .forM hbooks fun book book' hbook => verifyBook_match hextras hbook v.key v'.key

/-! ### Read -/

/-- The book seen from the other side. -/
def swapIssues (book : Book) : Book := { book with in_ := book.out, out := book.in_ }

omit [Build] in
/-- The book read of the swapped one is the swapped book. -/
theorem bookOf_follows (hbook : SwappedBook book book') :
    Follows (fun b b' => b' = swapIssues b) (bookOf book) (bookOf book') := by
  intro b hok
  unfold bookOf at hok ⊢
  simp only [bind_eq_ok_iff, pure_eq_ok_iff] at hok ⊢
  obtain ⟨payText, hpayText, payCurrency, hpayCurrency, getText, hgetText, getCurrency,
    hgetCurrency, payIssuer, hpayIssuer, getIssuer, hgetIssuer, domain, hdomain, rfl⟩ := hok
  rw [hbook.pays.child, hbook.gets.child, hbook.pays.child, hbook.gets.child,
    show book'.child "domain" = book.child "domain" from hbook.child (by decide) (by decide)]
  exact ⟨_, ⟨getText, hgetText, getCurrency, hgetCurrency, payText, hpayText, payCurrency,
    hpayCurrency, getIssuer, hgetIssuer, payIssuer, hpayIssuer, domain, hdomain, rfl⟩, rfl⟩

omit [Build] in
theorem bookOf_match (hbook : SwappedBook book book') :
    Matches AnyErrors (fun b b' => b' = swapIssues b) (bookOf book) (bookOf book') :=
  .of_follows (bookOf_follows hbook)
    ((bookOf_follows hbook.symm).mono fun _ _ _ => trivial)

/-! ## The field of the books -/

section BooksField

variable {Input OrderBook : Type} {member : Member Input (Option (List OrderBook))}
  {conv : Converter (Option (List OrderBook))} {unguarded} {swap : OrderBook → OrderBook}
  {orderBookOf : FieldView → Parsed OrderBook} {R : Input → Input → Prop}

omit [Build] [LibXrpl] in
/-- The list of books is a list as before, of swapped books. -/
theorem rootChild_swapBooks (root : Json) :
    (rootChild (swapBooks root) "books").present = (rootChild root "books").present ∧
      (rootChild (swapBooks root) "books").isArray = (rootChild root "books").isArray ∧
      List.Forall₂ SwappedBook (rootChild root "books").elements
        (rootChild (swapBooks root) "books").elements := by
  simp only [rootChild, member?_swapBooks]
  rcases root.member? "books" with _ | (_ | _ | _ | _ | _ | _ | books | _)
  case some.array =>
    refine ⟨rfl, rfl, ?_⟩
    simp only [Option.map_some, FieldView.elements_array, List.map_map]
    exact List.forall₂_map_left_iff.mpr (List.forall₂_map_right_iff.mpr
      (List.forall₂_same.mpr fun json _ => ⟨rfl, rfl⟩))
  all_goals exact ⟨rfl, rfl, .nil⟩

/-- The field of the books, for a reading that swaps along. -/
theorem books_match (hextras : IgnoresSides extras)
    (hconv : ∀ v, conv.parse v = (do
      let result ← v.elements.mapM orderBookOf
      pure (some result)))
    (hbooks : ∀ book book', SwappedBook book book' →
      Matches AnyErrors (fun b b' => b' = swap b) (orderBookOf book) (orderBookOf book'))
    (hassign : ∀ out out' value, R out out' →
      R (member.assign out value) (member.assign out' (value.map (·.map swap)))) (root : Json) :
    Matches AnyErrors (KeepRelated R)
      ((field "books" member [.requirement fun v => ifPresent v (verifyBooks extras v)] conv
        unguarded).outcome root).result
      ((field "books" member [.requirement fun v => ifPresent v (verifyBooks extras v)] conv
        unguarded).outcome (swapBooks root)).result := by
  obtain ⟨hpresent, harray, helements⟩ := rootChild_swapBooks root
  rw [result_requirement, result_requirement, ifPresent, ifPresent, hpresent]
  refine Matches.bind (R := Eq) ?_ ?_
  · split
    · exact .ok rfl
    · exact verifyBooks_match hextras harray helements
  · intro _ _ _
    split
    · exact .ok fun _ _ hout => hout
    · rw [hconv, hconv]
      refine ((Matches.mapM helements hbooks).bind (S := fun value value' =>
        value' = value.map (·.map swap)) fun list list' hlist => .ok ?_).map ?_
      · have hmap : List.Forall₂ Eq (list.map swap) list' :=
          List.forall₂_map_left_iff.mpr (hlist.imp fun _ _ h => h.symm)
        rw [List.forall₂_eq_eq_eq] at hmap
        rw [← hmap]
        rfl
      · rintro value _ rfl out out' hout
        exact hassign out out' value hout

/-- A field that does not read the books and does not assign to them. -/
theorem booksIgnored_match {f : Dsl.Field Input} (hown : "books" ∉ f.ownKeys)
    (hguards : f.guardsKey "books" = false) (hrespects : f.Respects R) (root : Json) :
    Matches AnyErrors (KeepRelated R) (f.outcome root).result
      (f.outcome (swapBooks root)).result := by
  have hignores : f.Ignores ["books"] := ⟨by simp [hown], by simp [hguards]⟩
  have hoff : AgreeOff ["books"] root (swapBooks root) := fun key hkey =>
    member?_swapBooks_ne root (by simpa using hkey)
  rw [hignores.outcome_eq hoff]
  cases hresult : (f.outcome root).result with
  | ok update => exact .ok (hrespects.update hresult)
  | error failure => exact .error trivial

end BooksField

/-! ## `subscribe` and `unsubscribe` -/

namespace Subscribe

/-- The book of the element with its two issues exchanged. -/
def OrderBook.swapIssues (orderBook : OrderBook) : OrderBook :=
  { orderBook with book := Handlers.swapIssues orderBook.book }

/-- The `Input` with the two issues of every book exchanged. -/
def Input.swapBooks (input : Input) : Input :=
  { input with books := input.books.map (·.map OrderBook.swapIssues) }

omit [Build] in
/-- The taker and the flag are members of their own. -/
theorem verifyExtras_ignoresSides : IgnoresSides verifyExtras := by
  intro book book' hbook
  unfold verifyExtras
  rw [hbook.child (by decide) (by decide), hbook.child (by decide) (by decide)]

omit [Build] in
/-- The flags and the taker are read from where they were. -/
theorem orderBookOf_match (book book' : FieldView) (hbook : SwappedBook book book') :
    Matches AnyErrors (fun b b' => b' = b.swapIssues) (orderBookOf book) (orderBookOf book') := by
  have hbookOf := bookOf_match hbook
  unfold orderBookOf
  rw [hbook.child (by decide) (by decide), hbook.child (by decide) (by decide),
    hbook.child (by decide) (by decide)]
  refine same_bind _ fun both => same_bind _ fun snapshot => same_bind _ fun taker => ?_
  refine hbookOf.bind ?_
  rintro b _ rfl
  exact .ok rfl

/-- The whole request: no other field looks at the books. -/
theorem parse_swapBooks (root : Json) :
    Matches AnyErrors (fun input input' => input' = input.swapBooks)
      (answer (kInputSpec.parse root)) (answer (kInputSpec.parse (swapBooks root))) := by
  have hother {f : Dsl.Field Input} := booksIgnored_match (f := f)
    (R := fun input input' => input' = input.swapBooks)
  refine TypedSpec.parse_match rfl ?_ rfl
  intro f hf
  have hfields : f ∈ kInputSpec.fields := mem_of_mem_effectiveFields hf
  simp only [kInputSpec, List.mem_cons, List.not_mem_nil, or_false] at hfields
  rcases hfields with rfl | rfl | rfl | rfl | rfl | rfl | rfl | rfl
  case inr.inr.inr.inl =>
    exact books_match verifyExtras_ignoresSides (fun _ => rfl) orderBookOf_match
      (by rintro out _ value rfl; rfl) root
  case inr.inr.inr.inr.inr.inl | inr.inr.inr.inr.inr.inr.inl | inr.inr.inr.inr.inr.inr.inr =>
    refine hother (by simp [unboundField, Field.ownKeys, FieldSpec.key]) rfl ?_ root
    exact trivial
  all_goals
    refine hother (by simp [field, Field.ownKeys]) rfl ?_ root
    rintro out _ value rfl
    rfl

end Subscribe

namespace Unsubscribe

/-- The book of the element with its two issues exchanged. -/
def OrderBook.swapIssues (orderBook : OrderBook) : OrderBook :=
  { orderBook with book := Handlers.swapIssues orderBook.book }

/-- The `Input` with the two issues of every book exchanged. -/
def Input.swapBooks (input : Input) : Input :=
  { input with books := input.books.map (·.map OrderBook.swapIssues) }

omit [Build] in
theorem orderBookOf_match (book book' : FieldView) (hbook : SwappedBook book book') :
    Matches AnyErrors (fun b b' => b' = b.swapIssues) (orderBookOf book) (orderBookOf book') := by
  have hbookOf := bookOf_match hbook
  unfold orderBookOf
  rw [hbook.child (by decide) (by decide)]
  refine same_bind _ fun both => hbookOf.bind ?_
  rintro b _ rfl
  exact .ok rfl

/-- The whole request: no other field looks at the books. -/
theorem parse_swapBooks (root : Json) :
    Matches AnyErrors (fun input input' => input' = input.swapBooks)
      (answer (kInputSpec.parse root)) (answer (kInputSpec.parse (swapBooks root))) := by
  have hother {f : Dsl.Field Input} := booksIgnored_match (f := f)
    (R := fun input input' => input' = input.swapBooks)
  refine TypedSpec.parse_match rfl ?_ rfl
  intro f hf
  have hfields : f ∈ kInputSpec.fields := mem_of_mem_effectiveFields hf
  simp only [kInputSpec, List.mem_cons, List.not_mem_nil, or_false] at hfields
  rcases hfields with rfl | rfl | rfl | rfl | rfl | rfl | rfl | rfl
  case inr.inr.inr.inl =>
    exact books_match (fun _ _ _ => rfl) (fun _ => rfl) orderBookOf_match
      (by rintro out _ value rfl; rfl) root
  case inr.inr.inr.inr.inr.inl | inr.inr.inr.inr.inr.inr.inl | inr.inr.inr.inr.inr.inr.inr =>
    refine hother (by simp [unboundField, Field.ownKeys, FieldSpec.key]) rfl ?_ root
    exact trivial
  all_goals
    refine hother (by simp [field, Field.ownKeys]) rfl ?_ root
    rintro out _ value rfl
    rfl

end Unsubscribe

/-! ## The three requests -/

/-- The exchanged request is accepted just where the request is, and read as its `Input`
exchanged. -/
structure SwapsAlong {Input : Type} [InputAggregate Input] (spec : TypedSpec Input)
    (swapRequest : Json → Json) (swapInput : Input → Input) (root : Json) : Prop where
  accepted : Returns (answer (spec.parse (swapRequest root))) ↔ Returns (answer (spec.parse root))
  input : ∀ input, answer (spec.parse root) = .ok input →
    answer (spec.parse (swapRequest root)) = .ok (swapInput input)

/-- Answers that match one way are what swapping along says. -/
theorem SwapsAlong.of_match {Input : Type} [InputAggregate Input] {spec : TypedSpec Input}
    {swapRequest : Json → Json} {swapInput : Input → Input} {root : Json}
    (h : Matches AnyErrors (fun input input' => input' = swapInput input)
      (answer (spec.parse root)) (answer (spec.parse (swapRequest root)))) :
    SwapsAlong spec swapRequest swapInput root := by
  generalize hfirst : answer (spec.parse root) = first,
    hsecond : answer (spec.parse (swapRequest root)) = second at h
  cases h with
  | @ok input _ h =>
      subst h
      constructor
      · rw [hfirst, hsecond]
        exact ⟨fun _ => .ok _, fun _ => .ok _⟩
      · rintro input' hinput'
        obtain rfl : input = input' := by simpa using hfirst.symm.trans hinput'
        exact hsecond
  | error _ =>
      constructor
      · rw [hfirst, hsecond]
        exact ⟨fun ⟨_, h⟩ => (nomatch h), fun ⟨_, h⟩ => (nomatch h)⟩
      · rintro input' hinput'
        cases hfirst.symm.trans hinput'

/-- On both servers exchanging the two sides of a request exchanges them in what it is
read as. -/
theorem sides_swapAlong (root : Json) :
    SwapsAlong BookOffers.kInputSpec swapSides BookOffers.Input.swapAssets root ∧
      SwapsAlong Subscribe.kInputSpec swapBooks Subscribe.Input.swapBooks root ∧
      SwapsAlong Unsubscribe.kInputSpec swapBooks Unsubscribe.Input.swapBooks root :=
  ⟨.of_match (BookOffers.parse_swapSides root), .of_match (Subscribe.parse_swapBooks root),
    .of_match (Unsubscribe.parse_swapBooks root)⟩

end RpcSpec.Handlers
