import RpcSpec.Dsl.Comparison
import RpcSpec.Handlers.Subscriptions
set_option autoImplicit false

/-!
# Undoing a subscription

The parameters of a subscription are those of its cancellation: `unsubscribe` accepts what
`subscribe` accepts and reads the same subscriptions, and apart from the members only
`subscribe` knows the two refuse a request alike.

`undoneBySameParameters` states both directions for all requests and both servers, the
errors included. It goes through `Follows` and `Agree`, field by field.
-/

namespace RpcSpec.Handlers

open RpcSpec.Dsl RpcSpec.Foundation XrpldError

/-! ## The same subscriptions -/

/-- The same book, from the same side or both. -/
structure SameBook (ob : Subscribe.OrderBook) (ob' : Unsubscribe.OrderBook) : Prop where
  book : ob.book = ob'.book
  both : ob.both = ob'.both

/-- What the two handlers read of the same subscriptions. -/
structure SameSubscriptions (input : Subscribe.Input) (input' : Unsubscribe.Input) : Prop where
  streams : input.streams = input'.streams
  accounts : input.accounts = input'.accounts
  accountsProposed : input.accountsProposed = input'.accountsProposed
  books : Option.Rel (List.Forall₂ SameBook) input.books input'.books
  mptIssuances : input.mptIssuances = input'.mptIssuances

/-- No book has a member that only `subscribe` knows. -/
def PlainBooks (root : Json) : Prop :=
  ∀ book ∈ (rootChild root "books").elements,
    (book.child "snapshot").present = false ∧ (book.child "taker").present = false

variable [Build] [LibXrpl]

/-- A subscription can be undone by the parameters it was made with. -/
structure UndoneBySameParameters : Prop where
  accepted : ∀ root input root', Subscribe.kInputSpec.parse root = .ok input root' →
    ∃ input' root'', Unsubscribe.kInputSpec.parse root = .ok input' root'' ∧
      SameSubscriptions input input'
  /-- Without members that only `subscribe` knows the refusals are the same, too. -/
  sameVerdict : ∀ root, PlainBooks root → Agree SameSubscriptions
    (answer (Subscribe.kInputSpec.parse root)) (answer (Unsubscribe.kInputSpec.parse root))

/-! ## Books -/

section Books

variable {extras extras' : FieldView → MaybeError} {book v : FieldView}

omit [Build] in
/-- What passes with the one kind of extras passes with the other. -/
theorem verifyBook_follows (h : Follows Eq (extras book) (extras' book)) (key : String) :
    Follows Eq (verifyBook extras key book) (verifyBook extras' key book) := by
  have hsame {ε α : Type} (x : Except ε α) : Follows Eq x x := .refl (fun _ => rfl) x
  refine (hsame _).bind fun _ _ _ => (hsame _).bind fun _ _ _ => h.bind fun _ _ _ => ?_
  exact hsame _

omit [Build] in
theorem verifyBooks_follows (h : ∀ book ∈ v.elements, Follows Eq (extras book) (extras' book)) :
    Follows Eq (verifyBooks extras v) (verifyBooks extras' v) := by
  refine (Follows.refl (fun _ => rfl) _).bind fun _ _ _ => ?_
  exact .forM fun book hbook => verifyBook_follows (h book hbook) v.key

omit [Build] in
/-- Extras that agree on each book of the list. -/
theorem verifyBooks_congr (h : ∀ book ∈ v.elements, extras book = extras' book) :
    verifyBooks extras v = verifyBooks extras' v := by
  have hbooks : forM v.elements (verifyBook extras v.key) =
      forM v.elements (verifyBook extras' v.key) := by
    generalize v.elements = books at h ⊢
    induction books with
    | nil => rfl
    | cons book rest ih =>
        rw [List.forM_cons, List.forM_cons, ih fun other hother => h other (by simp [hother]),
          verifyBook, verifyBook, h book (by simp)]
  rw [verifyBooks, verifyBooks, hbooks]

omit [Build] in
/-- Reading the members only `subscribe` knows may fail, and leaves the book the same. -/
theorem orderBookOf_follows (book : FieldView) :
    Follows SameBook (Subscribe.orderBookOf book) (Unsubscribe.orderBookOf book) := by
  refine (Follows.refl (fun _ => rfl) _).bind fun both _ hboth => ?_
  refine .bind_left fun snapshot => .bind_left fun taker => ?_
  refine (Follows.refl (fun _ => rfl) _).bind fun found _ hfound => ?_
  exact .of_agree (.ok ⟨hfound, hboth⟩)

omit [Build] in
/-- A book that carries nothing more is read as the same book. -/
theorem orderBookOf_agree (hsnapshot : (book.child "snapshot").present = false)
    (htaker : (book.child "taker").present = false) :
    Agree SameBook (Subscribe.orderBookOf book) (Unsubscribe.orderBookOf book) := by
  refine (Agree.of_eq (fun _ => rfl) rfl).bind fun both _ hboth => ?_
  simp only [bookFlag, hsnapshot, Subscribe.bookTaker, htaker, Bool.false_eq_true, if_false,
    pure_bind]
  refine (Agree.of_eq (fun _ => rfl) rfl).bind fun found _ hfound => ?_
  exact .ok ⟨hfound, hboth⟩

omit [Build] in
/-- Where there are no extras nothing is asked of them. -/
theorem verifyExtras_absent (hsnapshot : (book.child "snapshot").present = false)
    (htaker : (book.child "taker").present = false) : Subscribe.verifyExtras book = pure () := by
  simp only [Subscribe.verifyExtras, hsnapshot, htaker, Bool.false_and, Bool.false_eq_true,
    if_false]
  rfl

end Books

/-! ## The two specs -/

omit [Build] in
/-- The books are read whatever else is there. -/
theorem kBooksValidator_unguarded :
    anyGuardsKey "books" [Subscribe.kBooksValidator] = false ∧
      anyGuardsKey "books" [Unsubscribe.kBooksValidator] = false := ⟨rfl, rfl⟩

/-- The field of the books of `subscribe`. -/
def subscribeBooks : Dsl.Field Subscribe.Input :=
  field "books" ⟨"books", fun out v => { out with books := v }⟩ [Subscribe.kBooksValidator]
    Subscribe.subscribeBooksConv kBooksValidator_unguarded.1

/-- The field of the books of `unsubscribe`. -/
def unsubscribeBooks : Dsl.Field Unsubscribe.Input :=
  field "books" ⟨"books", fun out v => { out with books := v }⟩ [Unsubscribe.kBooksValidator]
    Unsubscribe.unsubscribeBooksConv kBooksValidator_unguarded.2

/-- A field that the two specs have in common. -/
theorem common_agree {key : String} {Value : Type} {member : Member Subscribe.Input Value}
    {member' : Member Unsubscribe.Input Value} {verify : FieldView → MaybeError}
    {conv : Converter Value} {unguarded unguarded'} {root : Json}
    (hassign : ∀ value out out', SameSubscriptions out out' →
      SameSubscriptions (member.assign out value) (member'.assign out' value)) :
    Agree (KeepRelated SameSubscriptions)
      ((field key member [.requirement verify] conv unguarded).outcome root).result
      ((field key member' [.requirement verify] conv unguarded').outcome root).result := by
  refine field_agree (S := Eq) (.of_eq (fun _ => rfl) rfl) (fun _ => .of_eq (fun _ => rfl) rfl) ?_
  rintro value _ out out' rfl
  exact hassign value out out'

/-- The books `subscribe` accepts `unsubscribe` accepts as well. -/
theorem books_follow (root : Json) : Follows (KeepRelated SameSubscriptions)
    (subscribeBooks.outcome root).result (unsubscribeBooks.outcome root).result := by
  refine field_follows (S := Option.Rel (List.Forall₂ SameBook)) ?verify (fun _ => ?conv) ?assign
  case verify =>
    unfold ifPresent
    split
    · exact .refl (fun _ => rfl) _
    · exact verifyBooks_follows fun _ _ _ _ => ⟨(), rfl, rfl⟩
  case conv =>
    refine (Follows.mapM fun book _ => orderBookOf_follows book).bind fun books books' h => ?_
    exact .of_agree (.ok (.some h))
  case assign => exact fun books books' out out' hbooks h => { h with books := hbooks }

/-- Plain books are taken by both, or refused by both with one error. -/
theorem books_agree {root : Json} (hplain : PlainBooks root) :
    Agree (KeepRelated SameSubscriptions) (subscribeBooks.outcome root).result
      (unsubscribeBooks.outcome root).result := by
  refine field_agree (S := Option.Rel (List.Forall₂ SameBook)) (.of_eq (fun _ => rfl) ?verify)
    (fun _ => ?conv) ?assign
  case verify =>
    rw [verifyBooks_congr fun book hbook => verifyExtras_absent (hplain book hbook).1
      (hplain book hbook).2]
  case conv =>
    refine (Agree.mapM fun book hbook => orderBookOf_agree (hplain book hbook).1
      (hplain book hbook).2).bind fun books books' h => ?_
    exact .ok (.some h)
  case assign => exact fun books books' out out' hbooks h => { h with books := hbooks }

/-- The outcomes of the two specs, field by field, with the books left to the caller. -/
theorem outcomes_related {root : Json} {T : Parsed (Subscribe.Input → Subscribe.Input) →
      Parsed (Unsubscribe.Input → Unsubscribe.Input) → Prop}
    (hT : ∀ x y, Agree (KeepRelated SameSubscriptions) x y → T x y)
    (hbooks : T (subscribeBooks.outcome root).result (unsubscribeBooks.outcome root).result) :
    List.Forall₂ (fun o o' => T o.result o'.result) (Subscribe.kInputSpec.outcomes root)
      (Unsubscribe.kInputSpec.outcomes root) := by
  have heffective : effectiveFields Subscribe.kInputSpec.fields = Subscribe.kInputSpec.fields := rfl
  have heffective' : effectiveFields Unsubscribe.kInputSpec.fields =
      Unsubscribe.kInputSpec.fields := rfl
  have hunbound {key key' : String} : T ((unboundField key [deprecated]).outcome root).result
      ((unboundField key' [deprecated]).outcome root).result :=
    hT _ _ (.ok fun _ _ hout => hout)
  rw [TypedSpec.outcomes, TypedSpec.outcomes, heffective, heffective']
  refine .cons ?streams (.cons ?accounts (.cons ?accountsProposed (.cons hbooks
    (.cons ?mptIssuances (.cons hunbound (.cons hunbound (.cons hunbound .nil)))))))
  case streams => exact hT _ _ (common_agree fun _ _ _ h => { h with streams := rfl })
  case accounts => exact hT _ _ (common_agree fun _ _ _ h => { h with accounts := rfl })
  case accountsProposed =>
    exact hT _ _ (common_agree fun _ _ _ h => { h with accountsProposed := rfl })
  case mptIssuances => exact hT _ _ (common_agree fun _ _ _ h => { h with mptIssuances := rfl })

/-- The fields before and after the books are the same in both specs. -/
theorem undoneBySameParameters : UndoneBySameParameters := by
  have hinit : SameSubscriptions InputAggregate.init InputAggregate.init :=
    ⟨rfl, rfl, rfl, .none, rfl⟩
  refine ⟨fun root input root' hrun => ?accepted, fun root hplain => ?sameVerdict⟩
  case accepted =>
    obtain ⟨hcollect, -⟩ := (TypedSpec.parse_eq_ok_iff rfl).mp hrun
    have hfields := outcomes_related (fun _ _ => Follows.of_agree) (books_follow root)
    obtain ⟨input', hcollect', hsame⟩ := collect_follows hfields hinit input hcollect
    exact ⟨input', _, (TypedSpec.parse_eq_ok_iff rfl).mpr ⟨hcollect', rfl⟩, hsame⟩
  case sameVerdict =>
    rw [TypedSpec.answer_parse rfl, TypedSpec.answer_parse rfl]
    exact collect_agree (outcomes_related (fun _ _ h => h) (books_agree hplain)) hinit

end RpcSpec.Handlers
