import RpcSpec.Dsl.KeyTexts
import RpcSpec.Dsl.RenamedKeys
import RpcSpec.Dsl.UnreadKeys
import RpcSpec.Dsl.Comparison
import RpcSpec.Handlers.Subscriptions
import RpcSpec.Handlers.TakerAssets
set_option autoImplicit false

/-!
# The two sides of an offer exchanged

`book_offers` reads one offer, and `subscribe` and `unsubscribe` read lists of them.  A
request with the two sides exchanged is accepted just where the request is, and read as
the same with the two sides exchanged.

This module has the exchange of the sides itself, on documents and on texts, and its
consequence for `book_offers`; lists of books come in the module on swapped books.
-/

namespace RpcSpec.Handlers

open RpcSpec.Dsl RpcSpec.Foundation XrpldError

/-! ## Exchanging the sides of a document -/

/-- The key of the other side; any other key is its own. -/
def swapKey (key : String) : String :=
  if key = "taker_pays" then "taker_gets"
  else if key = "taker_gets" then "taker_pays" else key

/-- The object with the values of `taker_pays` and `taker_gets` exchanged. -/
def swapSides (json : Json) : Json := json.renameKeys swapKey

/-- The request with the sides of every element of its `books` exchanged. -/
def swapBooks (root : Json) : Json :=
  match root.member? "books" with
  | some (.array books) => root.putChild (some (.array (books.map swapSides))) "books"
  | _ => root

theorem swapKey_swapKey (key : String) : swapKey (swapKey key) = key := by
  unfold swapKey
  split_ifs <;> simp_all

theorem swapKey_injective : Function.Injective swapKey := fun key key' h => by
  rw [← swapKey_swapKey key, h, swapKey_swapKey]

theorem swapKey_of_ne {key : String} (hpays : key ≠ "taker_pays") (hgets : key ≠ "taker_gets") :
    swapKey key = key := by
  rw [swapKey, if_neg hpays, if_neg hgets]

/-- Swapping twice leaves everything where it was. -/
theorem swapSides_swapSides (json : Json) : swapSides (swapSides json) = json := by
  cases json with
  | object members =>
      simp [swapSides, Json.renameKeys, renameMembers, Function.comp_def, swapKey_swapKey]
  | _ => rfl

/-- A value is found under the swapped key. -/
theorem member?_swapSides (json : Json) (key : String) :
    (swapSides json).member? (swapKey key) = json.member? key :=
  Json.member?_renameKeys (.of_injective swapKey_injective key json)

section Members

variable (json : Json)

theorem member?_swapSides_pays :
    (swapSides json).member? "taker_pays" = json.member? "taker_gets" :=
  member?_swapSides json "taker_gets"

theorem member?_swapSides_gets :
    (swapSides json).member? "taker_gets" = json.member? "taker_pays" :=
  member?_swapSides json "taker_pays"

theorem member?_swapSides_ne {key : String} (hpays : key ≠ "taker_pays")
    (hgets : key ≠ "taker_gets") : (swapSides json).member? key = json.member? key := by
  have h := member?_swapSides json key
  rwa [swapKey_of_ne hpays hgets] at h

end Members

/-- Every book of the list is swapped, and what is no list is left alone. -/
theorem member?_swapBooks (root : Json) :
    (swapBooks root).member? "books" = (root.member? "books").map fun books =>
      match books with
      | .array books => .array (books.map swapSides)
      | json => json := by
  unfold swapBooks
  split
  · rename_i books hbooks
    rw [Json.member?_putChild_self, hbooks]
    rfl
  · rename_i hnot
    cases hbooks : root.member? "books" with
    | none => rfl
    | some json =>
        cases json with
        | array books => exact absurd hbooks (hnot books)
        | _ => rfl

/-- The rest of the request is as it was. -/
theorem member?_swapBooks_ne (root : Json) {key : String} (hne : key ≠ "books") :
    (swapBooks root).member? key = root.member? key := by
  unfold swapBooks
  split
  · exact Json.member?_putChild_ne hne _ _
  · rfl

/-! ## `book_offers` -/

/-- Any two keys. -/
abbrev AnyKeys : String → String → Prop := fun _ _ => True

/-- Any two errors. -/
abbrev AnyErrors : Failure → Failure → Prop := fun _ _ => True

section Steps

variable {β γ γ' : Type} {R : γ → γ' → Prop} {f : β → Parsed γ} {g : β → Parsed γ'}

theorem same_bind (x : Parsed β) (h : ∀ b, Matches AnyErrors R (f b) (g b)) :
    Matches AnyErrors R (x >>= f) (x >>= g) := by
  refine (Matches.refl (R := Eq) (fun _ => trivial) (fun _ => rfl) x).bind ?_
  rintro b _ rfl
  exact h b

/-- A refusal with another error is still a refusal. -/
theorem orReject_bind {decoded : Option β} {code code' : CombinedError}
    {message message' : String} (h : ∀ b, Matches AnyErrors R (f b) (g b)) :
    Matches AnyErrors R (orReject decoded code message >>= f)
      (orReject decoded code' message' >>= g) := by
  refine (orReject_match trivial decoded).bind ?_
  rintro b _ rfl
  exact h b

end Steps

namespace BookOffers

/-- The `Input` with the two assets exchanged. -/
def Input.swapAssets (input : Input) : Input :=
  { input with takerPays := input.takerGets, takerGets := input.takerPays }

variable [Build] [LibXrpl] {key key' : String} {amtErr amtErr' isrErr isrErr' : XrpldError}

omit [LibXrpl] in
/-- Only the texts of its errors name the side. -/
theorem verifyTakerMembers_match {v v' : FieldView} (hv : SameValue AnyKeys v v') :
    Matches AnyErrors Eq (verifyTakerMembers v) (verifyTakerMembers v') := by
  unfold verifyTakerMembers
  simp only [hv.child]
  apply (rejectIf_match trivial _).bind
  intro _ _ _
  apply (rejectIf_match trivial _).bind
  intro _ _ _
  apply (rejectIf_match trivial _).bind
  intro _ _ _
  exact rejectIf_match trivial _

omit [LibXrpl] in
/-- The checks of the whole object name it as little. -/
theorem verifyTaker_match {v v' : FieldView} (hv : SameValue AnyKeys v v') :
    Matches AnyErrors Eq (verifyTaker v) (verifyTaker v') := by
  have hnull : v'.isNull = v.isNull := by
    rw [FieldView.isNull, hv.value, FieldView.isNull]
  unfold verifyTaker
  rw [hnull, hv.isObject]
  split
  · exact (rejectIf_match trivial _).bind fun _ _ _ => verifyTakerMembers_match hv
  · split
    · exact .ok rfl
    · exact verifyTakerMembers_match hv

/-- Item by item, with the codes of either side. -/
theorem takerItems_alike : ItemsAlike AnyKeys AnyErrors (takerItems key amtErr isrErr)
    (takerItems key' amtErr' isrErr') := by
  have hkeyed {verify : FieldView → MaybeError} (h : KeyInTexts AnyKeys verify) :
      (Item.requirement verify : Item Asset).Alike AnyKeys AnyErrors (.requirement verify) :=
    .requirement fun v v' hv => (h v v' hv).mono (fun _ _ _ => trivial) fun _ _ h => h
  have hcustom {wrapped : Item Asset} (h : wrapped.Alike AnyKeys AnyErrors wrapped)
      {code code' : CombinedError} {message message' : String} :
      (withCustomError wrapped code message).Alike AnyKeys AnyErrors
        (withCustomError wrapped code' message') := .withCustomError h fun _ _ _ => trivial
  have hhex := hkeyed (HexStringValidator.verify_keyInTexts 192)
  refine .cons (hkeyed Required.verify_keyInTexts) (.cons ?_ (.cons ?_ (.cons ?_ .nil)))
  · exact .serverConditional (hkeyed (.of_value fun _ _ _ => rfl)).single _
  · exact .requirement fun v v' hv => ifPresent_match hv (verifyTaker_match hv)
  · refine .section_ (fun _ => trivial) (fun _ => trivial) ?_
    refine .cons ⟨rfl, ?_⟩ (.cons ⟨rfl, ?_⟩ (.cons ⟨rfl, ?_⟩ .nil))
    · exact (Item.Alike.serverConditional
        (hcustom (hkeyed CurrencyValidator.verify_keyInTexts)).single _).single
    · exact .cons (.serverConditional (hcustom hhex).single _)
        (Item.Alike.serverConditional (hcustom hhex).single _).single
    · exact (Item.Alike.serverConditional
        (hcustom (hkeyed IssuerValidator.verify_keyInTexts)).single _).single

omit [Build] in
/-- The issuer is judged alike, whatever it is reported with. -/
theorem issuerXrpld_match (issuerView : FieldView) :
    Matches AnyErrors Eq (TakerAssetConverter.issuerXrpld isrErr key issuerView)
      (TakerAssetConverter.issuerXrpld isrErr' key' issuerView) := by
  unfold TakerAssetConverter.issuerXrpld
  split
  · refine (rejectIf_match trivial _).bind fun _ _ _ => same_bind _ fun text => ?_
    exact orReject_bind fun account => (rejectIf_match trivial _).bind fun _ _ _ => .ok rfl
  · exact .ok rfl

omit [Build] in
/-- Step by step, each refusing when the other does. -/
theorem parseXrpld_match {v v' : FieldView} (hv : SameValue AnyKeys v v') :
    Matches AnyErrors Eq (TakerAssetConverter.parseXrpld amtErr isrErr v)
      (TakerAssetConverter.parseXrpld amtErr' isrErr' v') := by
  unfold TakerAssetConverter.parseXrpld
  simp only [hv.child]
  refine same_bind _ fun text => orReject_bind fun currency => ?_
  refine (issuerXrpld_match _).bind ?_
  rintro account _ rfl
  apply (rejectIf_match trivial _).bind
  intro _ _ _
  exact (rejectIf_match trivial _).bind fun _ _ _ => .ok rfl

omit [Build] in
theorem parseClio_match {v v' : FieldView} (hv : SameValue AnyKeys v v') :
    Matches AnyErrors Eq (TakerAssetConverter.parseClio isrErr v)
      (TakerAssetConverter.parseClio isrErr' v') := by
  unfold TakerAssetConverter.parseClio
  simp only [hv.child]
  refine same_bind _ fun text => orReject_bind fun currency => ?_
  split
  · split
    · exact .error trivial
    · exact .ok rfl
  · split
    · exact .ok rfl
    · exact same_bind _ fun text => orReject_bind fun issuer => .ok rfl

/-- The two converters differ in their errors alone. -/
theorem takerAssetConverter_match {v v' : FieldView} (hv : SameValue AnyKeys v v') :
    Matches AnyErrors Eq ((takerAssetConverter amtErr isrErr).parse v)
      ((takerAssetConverter amtErr' isrErr').parse v') := by
  unfold takerAssetConverter
  simp only [hv.child]
  split
  · exact same_bind _ fun text => orReject_bind fun mptId => .ok rfl
  · split
    · exact parseXrpld_match hv
    · exact parseClio_match hv

/-! ### The fields of the two assets -/

/-- The updates assign one asset, to the one member and to the other. -/
def AssignsAlike (member member' : Member Input Asset) (update update' : Input → Input) : Prop :=
  ∃ asset, update = (member.assign · asset) ∧ update' = (member'.assign · asset)

/-- One side read as it stands, and read as the other. -/
theorem taker_match {member member' : Member Input Asset} {unguarded unguarded'}
    {root root' : Json} (hvalue : root'.member? key' = root.member? key) :
    Matches AnyErrors (AssignsAlike member member')
      ((field key member (takerItems key amtErr isrErr) (takerAssetConverter amtErr isrErr)
        unguarded).outcome root).result
      ((field key' member' (takerItems key' amtErr' isrErr')
        (takerAssetConverter amtErr' isrErr') unguarded').outcome root').result := by
  have hsame : SameValue AnyKeys (rootChild root key) (rootChild root' key') := ⟨hvalue, trivial⟩
  have halike : ItemsAlike AnyKeys AnyErrors (takerItems key amtErr isrErr)
      (takerItems key' amtErr' isrErr') := takerItems_alike
  have hrun := halike.runProcessors _ _ hsame
  change Matches _ _ (BoundField.outcomeAt _ key root).result
    (BoundField.outcomeAt _ key' root').result
  simp only [BoundField.outcomeAt, not_skipsField_takerItems, Bool.false_eq_true, if_false,
    BoundField.onView]
  cases hfirst : runProcessors (takerItems key amtErr isrErr) (rootChild root key) with
  | error failure v =>
      rw [hfirst] at hrun
      generalize runProcessors _ (rootChild root' key') = r at hrun
      cases hrun
      exact .error trivial
  | ok _ v =>
      obtain ⟨rfl, hpresent, -⟩ := takerItems_read hfirst
      rw [hfirst] at hrun
      generalize runProcessors _ (rootChild root' key') = r at hrun
      cases hrun with
      | ok _ hstate =>
          simp only [hstate.present, hpresent, Bool.not_true, Bool.false_eq_true, if_false]
          refine (takerAssetConverter_match hstate).map ?_
          rintro asset _ rfl
          exact ⟨asset, rfl, rfl⟩

/-! ### The whole request -/

/-- What the taker pays. -/
def takerPaysMember : Member Input Asset :=
  ⟨"takerPays", fun out v => { out with takerPays := v }⟩

/-- What the taker gets. -/
def takerGetsMember : Member Input Asset :=
  ⟨"takerGets", fun out v => { out with takerGets := v }⟩

/-- The second `Input` has the assets of the first, exchanged. -/
def AssetsSwapped (input input' : Input) : Prop := input' = input.swapAssets

omit [Build] [LibXrpl] in
/-- To assign to another member leaves the assets swapped. -/
theorem assetsSwapped_assign {β : Type} {assign : Input → β → Input}
    (h : ∀ out value, assign out.swapAssets value = (assign out value).swapAssets) :
    ∀ out out' value, AssetsSwapped out out' →
      AssetsSwapped (assign out value) (assign out' value) := by
  rintro out _ value rfl
  exact h out value

omit [Build] [LibXrpl] in
/-- Away from the sides nothing is changed. -/
theorem agreeOff_swapSides (root : Json) :
    AgreeOff ["taker_pays", "taker_gets"] root (swapSides root) := by
  intro key hkey
  simp only [List.mem_cons, List.not_mem_nil, or_false, not_or] at hkey
  exact member?_swapSides_ne root hkey.1 hkey.2

/-- A field that reads neither side and assigns to neither asset. -/
theorem result_match {f : Dsl.Field Input}
    (hpays : "taker_pays" ∉ f.ownKeys ∧ f.guardsKey "taker_pays" = false)
    (hgets : "taker_gets" ∉ f.ownKeys ∧ f.guardsKey "taker_gets" = false)
    (hrespects : f.Respects AssetsSwapped) (root : Json) :
    Matches AnyErrors (KeepRelated AssetsSwapped) (f.outcome root).result
      (f.outcome (swapSides root)).result := by
  have hignores : f.Ignores ["taker_pays", "taker_gets"] :=
    ⟨by simp [hpays.1, hgets.1], by simp [hpays.2, hgets.2]⟩
  rw [hignores.outcome_eq (agreeOff_swapSides root)]
  cases hresult : (f.outcome root).result with
  | ok update => exact .ok (hrespects.update hresult)
  | error failure => exact .error trivial

omit [Build] [LibXrpl] in
/-- The two assets are assigned in the one order and in the other. -/
theorem collect_sides_match {pays gets pays' gets' : Outcome Input}
    {rest rest' : List (Outcome Input)}
    (hpays : Matches AnyErrors (AssignsAlike takerPaysMember takerGetsMember) pays.result
      gets'.result)
    (hgets : Matches AnyErrors (AssignsAlike takerGetsMember takerPaysMember) gets.result
      pays'.result)
    (hrest : ∀ out out', AssetsSwapped out out' →
      Matches AnyErrors AssetsSwapped (collect rest out) (collect rest' out'))
    {out out' : Input} (hout : AssetsSwapped out out') :
    Matches AnyErrors AssetsSwapped (collect (pays :: gets :: rest) out)
      (collect (pays' :: gets' :: rest') out') := by
  simp only [collect_cons]
  generalize pays.result = result, gets'.result = result' at hpays
  generalize gets.result = other, pays'.result = other' at hgets
  cases hpays with
  | error _ =>
      -- refused for the side that comes first in the one and second in the other
      cases hgets with
      | error _ => exact .error trivial
      | ok _ => exact .error trivial
  | ok hpays =>
      obtain ⟨asset, rfl, rfl⟩ := hpays
      cases hgets with
      | error _ => exact .error trivial
      | ok hgets =>
          obtain ⟨asset', rfl, rfl⟩ := hgets
          obtain rfl : out' = out.swapAssets := hout
          exact hrest _ _ rfl

/-- The fields run in another order there, and may: they touch different keys and members. -/
theorem parse_swapSides (root : Json) :
    Matches AnyErrors AssetsSwapped (answer (kInputSpec.parse root))
      (answer (kInputSpec.parse (swapSides root))) := by
  rw [TypedSpec.answer_parse rfl, TypedSpec.answer_parse rfl]
  refine collect_cons_match (result_match ?_ ?_ ?_ root) ?_ rfl
  · exact ⟨by simp [ledgerSelector, Field.ownKeys], rfl⟩
  · exact ⟨by simp [ledgerSelector, Field.ownKeys], rfl⟩
  · exact assetsSwapped_assign fun _ _ => rfl
  intro out out' hout
  refine collect_sides_match (taker_match (member?_swapSides_gets root))
    (taker_match (member?_swapSides_pays root)) (fun out out' hout => ?_) hout
  refine collect_match (.cons (result_match ?_ ?_ ?_ root) (.cons (result_match ?_ ?_ ?_ root)
    (.cons (result_match ?_ ?_ ?_ root) .nil))) hout
  case refine_3 | refine_6 | refine_9 => exact assetsSwapped_assign fun _ _ => rfl
  all_goals exact ⟨by simp [field, Field.ownKeys], rfl⟩

end BookOffers

end RpcSpec.Handlers
