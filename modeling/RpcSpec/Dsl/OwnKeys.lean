import RpcSpec.Dsl.AliasRenaming
set_option autoImplicit false

/-!
# Fields and their own keys

A guard on a key the field is itself read by rules the field out whenever it is given.
`BoundField` refuses such a guard on its key when it is built; `alias` adds a second key
and asks the guards nothing.

`servedByOwnKeys_iff` says when such a field is served under all of its keys: where none
of its guards asks for the second one.
-/

namespace RpcSpec.Dsl

open RpcSpec.Foundation FieldView

variable {Input : Type} {α : Type}

/-! ## What guards ask for -/

mutual

/-- No guard of the item but `ifAbsent` is in force for the server that is built. -/
def Item.onlyIfAbsent : Item α → Bool
  | .guard .never => false
  | .serverConditional active inners => !active || allIfAbsent inners
  | _ => true

/-- Every active guard of the list is an `ifAbsent`. -/
def allIfAbsent : List (Item α) → Bool
  | [] => true
  | item :: rest => item.onlyIfAbsent && allIfAbsent rest

end

section Items

variable {root : Json}

mutual

/-- A guard that skips asks for a key that is there. -/
theorem Item.activelyGuards_of_skips :
    ∀ item : Item α, item.onlyIfAbsent = true → item.skips root = true →
      ∃ key, item.activelyGuards key = true ∧ (rootChild root key).present = true
  | .guard (.ifAbsent guardKey), _, hskips =>
      ⟨guardKey, by simp [Item.activelyGuards],
        by simpa only [Item.skips, Guard.skips] using hskips⟩
  | .guard .never, honly, _ => by simp [Item.onlyIfAbsent] at honly
  | .serverConditional active inners, honly, hskips => by
      simp only [Item.skips, Bool.and_eq_true] at hskips
      obtain ⟨rfl, hskips⟩ := hskips
      have hinners : allIfAbsent inners = true := by simpa [Item.onlyIfAbsent] using honly
      obtain ⟨key, hguard, hpresent⟩ := anyActivelyGuards_of_skips inners hinners hskips
      exact ⟨key, by simpa [Item.activelyGuards] using hguard, hpresent⟩
  | .requirement _, _, hskips => by simp [Item.skips] at hskips
  | .modifier _, _, hskips => by simp [Item.skips] at hskips
  | .deprecated, _, hskips => by simp [Item.skips] at hskips
  | .defaultTo _, _, hskips => by simp [Item.skips] at hskips
  | .withCustomError _ _ _, _, hskips => by simp [Item.skips] at hskips
  | .ifType _ _, _, hskips => by simp [Item.skips] at hskips
  | .section_ _, _, hskips => by simp [Item.skips] at hskips

theorem anyActivelyGuards_of_skips :
    ∀ items : List (Item α), allIfAbsent items = true → skipsAny root items = true →
      ∃ key, anyActivelyGuards key items = true ∧ (rootChild root key).present = true
  | [], _, hskips => by simp [skipsAny] at hskips
  | item :: rest, honly, hskips => by
      simp only [allIfAbsent, Bool.and_eq_true] at honly
      rw [skipsAny, Bool.or_eq_true] at hskips
      rcases hskips with hitem | hrest
      · obtain ⟨key, hguard, hpresent⟩ := Item.activelyGuards_of_skips item honly.1 hitem
        exact ⟨key, by rw [anyActivelyGuards, hguard, Bool.true_or], hpresent⟩
      · obtain ⟨key, hguard, hpresent⟩ := anyActivelyGuards_of_skips rest honly.2 hrest
        exact ⟨key, by rw [anyActivelyGuards, hguard, Bool.or_true], hpresent⟩

end

/-- A field is skipped just where a key that a guard in force asks for is there. -/
theorem skipsField_iff {items : List (Item α)} (honly : allIfAbsent items = true) :
    skipsField items root = true ↔
      ∃ key, anyActivelyGuards key items = true ∧ (rootChild root key).present = true := by
  constructor
  · intro hskips
    rw [← skipsAny_eq] at hskips
    exact anyActivelyGuards_of_skips items honly hskips
  · intro hguard
    obtain ⟨key, hguard, hpresent⟩ := hguard
    exact skipsField_of_activelyGuards hpresent hguard

end Items

/-! ## Past the guards -/

namespace BoundField

/-- The field as it is, or under the `alias` as well. -/
def spelled (field : BoundField Input) : Option String → Field Input
  | none => .bound field
  | some alternateKey => .aliased alternateKey field

/-- What `parseInto` does once no guard has skipped the field: the items run on what is
under the key, and what they leave is converted. -/
def convertAt (field : BoundField Input) (key : String) (out : Input) :
    EStateM Failure Json Input := do
  let fieldView ← onRootChild key do
    runProcessors field.items
    get
  if !fieldView.present then pure (field.applyDefaults out)
  else
    let value ← (field.conv.parse fieldView : Parsed _)
    pure (field.member.assign out value)

theorem parseAt_of_not_skips {field : BoundField Input} {root : Json}
    (h : skipsField field.items root = false) (key : String) (out : Input) :
    field.parseAt key out root = field.convertAt key out root := by
  change (if skipsField field.items root then pure out else field.convertAt key out :
    EStateM Failure Json Input) root = _
  rw [h, if_neg Bool.false_ne_true]

/-- Of the keys the field is read by this one alone is there. -/
structure FoundBy (field : BoundField Input) (alternateKey : Option String) (key : String)
    (root : Json) : Prop where
  there : (rootChild root key).present = true
  alone : (key = field.key ∧
      ∀ alternate ∈ alternateKey, (rootChild root alternate).present = false) ∨
    (alternateKey = some key ∧ (rootChild root field.key).present = false)

/-- No key is there that a guard asks for, but for those the field is read by. -/
def OtherGuardsAbsent (field : BoundField Input) (alternateKey : Option String)
    (root : Json) : Prop :=
  ∀ guardKey, anyGuardsKey guardKey field.items = true →
    guardKey ∉ (field.spelled alternateKey).ownKeys → (rootChild root guardKey).present = false

variable [Build] [LibXrpl]

/-- No guard skips the field: the value under the key goes through its items and its
converter, and its checks see it. -/
structure ServedUnder (field : BoundField Input) (alternateKey : Option String) (key : String)
    (root : Json) : Prop where
  unskipped : skipsField field.items root = false
  parsed : ∀ out, (field.spelled alternateKey).parseOne out root = field.convertAt key out root
  checked : (field.spelled alternateKey).check root =
    runChecks field.items (rootChild root key)

/-- Where one of its keys is there, and no other key that a guard asks for, the field is
served. -/
def ServedByOwnKeys (field : BoundField Input) (alternateKey : Option String) : Prop :=
  ∀ root key, field.FoundBy alternateKey key root →
    field.OtherGuardsAbsent alternateKey root → field.ServedUnder alternateKey key root

variable {field : BoundField Input} {alternateKey : Option String} {key : String} {root : Json}

/-- A field that is not skipped works on the key it is found by. -/
theorem servedUnder_of_not_skips (hskips : skipsField field.items root = false)
    (hfound : field.FoundBy alternateKey key root) : field.ServedUnder alternateKey key root := by
  have hparse := parseAt_of_not_skips hskips
  obtain ⟨hthere, ⟨rfl, habsent⟩ | ⟨rfl, habsent⟩⟩ := hfound
  · cases alternateKey with
    | none =>
        refine ⟨hskips, hparse field.key, ?_⟩
        simp [spelled, Field.check, checkAt, hskips]
    | some alternate =>
        have halternate := habsent alternate rfl
        refine ⟨hskips, ?_, ?_⟩
        · intro out
          rw [spelled, Field.parseOne, parseAliased_apply, halternate,
            if_neg Bool.false_ne_true]
          exact hparse field.key out
        · simp [spelled, Field.check, checkAliased, checkAt, hskips, halternate]
  · refine ⟨hskips, ?_, ?_⟩
    · intro out
      rw [spelled, Field.parseOne, parseAliased_apply, hthere, if_pos rfl, habsent,
        if_neg Bool.false_ne_true]
      exact hparse key out
    · simp [spelled, Field.check, checkAliased, checkAt, hskips, hthere]

omit [Build] [LibXrpl] in
/-- Of its own keys the field is found by the one that is there. -/
theorem FoundBy.eq_of_present (hfound : field.FoundBy alternateKey key root) {other : String}
    (hother : other ∈ (field.spelled alternateKey).ownKeys)
    (hpresent : (rootChild root other).present = true) : other = key := by
  have hcases : other = field.key ∨ other ∈ alternateKey := by
    cases alternateKey with
    | none => exact .inl (List.mem_singleton.mp hother)
    | some alternate => simpa [spelled, Field.ownKeys, eq_comm] using hother
  obtain ⟨-, ⟨rfl, habsent⟩ | ⟨rfl, habsent⟩⟩ := hfound <;> rcases hcases with rfl | hmem
  · rfl
  · rw [habsent other hmem] at hpresent
    cases hpresent
  · rw [habsent] at hpresent
    cases hpresent
  · exact (Option.some.inj hmem).symm

/-- At a request with no key of another guard the field is served just where no guard in
force asks for the key it is found by. -/
theorem servedUnder_iff (honly : allIfAbsent field.items = true)
    (hfound : field.FoundBy alternateKey key root)
    (hothers : field.OtherGuardsAbsent alternateKey root) :
    field.ServedUnder alternateKey key root ↔ anyActivelyGuards key field.items = false := by
  constructor
  · intro hserved
    by_contra hguard
    have hskips := skipsField_of_activelyGuards hfound.there (Bool.not_eq_false _ ▸ hguard)
    rw [hserved.unskipped] at hskips
    cases hskips
  · intro hguards
    refine servedUnder_of_not_skips ?_ hfound
    by_contra hskips
    obtain ⟨guardKey, hguard, hpresent⟩ :=
      (skipsField_iff honly).mp (Bool.not_eq_false _ ▸ hskips)
    by_cases hown : guardKey ∈ (field.spelled alternateKey).ownKeys
    · rw [hfound.eq_of_present hown hpresent, hguards] at hguard
      cases hguard
    · rw [hothers guardKey (anyGuardsKey_of_activelyGuards _ hguard) hown] at hpresent
      cases hpresent

omit [Build] [LibXrpl] in
/-- The constructor leaves no guard in force on the key of the field. -/
theorem activelyGuards_key (field : BoundField Input) :
    anyActivelyGuards field.key field.items = false := by
  by_contra hguard
  have hown := anyGuardsKey_of_activelyGuards field.items (Bool.not_eq_false _ ▸ hguard)
  rw [field.unguarded] at hown
  cases hown

omit [Build] [LibXrpl] in
/-- With a guard in force on the alternate key there is a request with that key alone. -/
theorem foundBy_alternate {alternate : String}
    (hguard : anyActivelyGuards alternate field.items = true) :
    field.FoundBy (some alternate) alternate (.object [(alternate, .null)]) ∧
      field.OtherGuardsAbsent (some alternate) (.object [(alternate, .null)]) := by
  have hne : field.key ≠ alternate := by
    intro heq
    rw [← heq, activelyGuards_key] at hguard
    cases hguard
  have habsent (key : String) (hkey : key ≠ alternate) :
      (rootChild (.object [(alternate, .null)]) key).present = false := by
    have hbeq : (key == alternate) = false := beq_eq_false_iff_ne.mpr hkey
    simp only [rootChild, present, Json.member?, List.lookup_cons, hbeq, List.lookup_nil,
      Option.isSome_none]
  have hthere : (rootChild (.object [(alternate, .null)]) alternate).present = true := by
    simp only [rootChild, present, Json.member?, List.lookup_cons, beq_self_eq_true,
      Option.isSome_some]
  refine ⟨⟨hthere, .inr ⟨rfl, habsent field.key hne⟩⟩, ?_⟩
  intro guardKey _ hother
  apply habsent
  intro heq
  exact hother (by simp [spelled, Field.ownKeys, heq])

/-- A field whose guards are `ifAbsent` guards is served at a request with one of its keys
and no key of another guard just where no guard in force asks for that key.  So it is served
at every such request just where none asks for its alternate key. -/
theorem servedByOwnKeys_iff (honly : allIfAbsent field.items = true)
    (alternateKey : Option String) :
    (∀ root key, field.FoundBy alternateKey key root →
      field.OtherGuardsAbsent alternateKey root →
        (field.ServedUnder alternateKey key root ↔
          anyActivelyGuards key field.items = false)) ∧
    (field.ServedByOwnKeys alternateKey ↔
      ∀ alternate ∈ alternateKey, anyActivelyGuards alternate field.items = false) := by
  refine ⟨fun root key hfound hothers => servedUnder_iff honly hfound hothers, ?_, ?_⟩
  · intro hserved alternate halternate
    obtain rfl : alternateKey = some alternate := halternate
    by_contra hguard
    obtain ⟨hfound, hothers⟩ := foundBy_alternate (Bool.not_eq_false _ ▸ hguard)
    exact hguard ((servedUnder_iff honly hfound hothers).mp (hserved _ _ hfound hothers))
  · intro hguards root key hfound hothers
    refine (servedUnder_iff honly hfound hothers).mpr ?_
    obtain ⟨rfl, -⟩ | ⟨rfl, -⟩ := hfound.alone
    · exact activelyGuards_key field
    · exact hguards key rfl

end BoundField

namespace ToggleInput

/-- A field that a guard in a wrapper rules out by a key of another. -/
def elsewhereGuarded : BoundField ToggleInput :=
  strictField [.serverConditional true [ifAbsent "guard"]] rfl

theorem elsewhereGuarded_served :
    (∀ root key, elsewhereGuarded.FoundBy (some "alt") key root →
      elsewhereGuarded.OtherGuardsAbsent (some "alt") root →
        (@BoundField.ServedUnder _ .clio hexLib elsewhereGuarded (some "alt") key root ↔
          anyActivelyGuards key elsewhereGuarded.items = false)) ∧
    (@BoundField.ServedByOwnKeys _ .clio hexLib elsewhereGuarded (some "alt") ↔
      ∀ alternate ∈ some "alt", anyActivelyGuards alternate elsewhereGuarded.items = false) :=
  @BoundField.servedByOwnKeys_iff _ .clio hexLib elsewhereGuarded rfl (some "alt")

/-- A field whose guard asks for the key that `alias` adds. -/
def aliasGuarded : BoundField ToggleInput := strictField [ifAbsent "alt"] rfl

/-- The request gives the member under the alias alone, and it is not looked at. -/
theorem aliasGuarded_not_served :
    allIfAbsent aliasGuarded.items = true ∧
      aliasGuarded.FoundBy (some "alt") "alt" onlyAlternate ∧
      aliasGuarded.OtherGuardsAbsent (some "alt") onlyAlternate ∧
      @Field.parseOne _ .clio hexLib (aliasGuarded.spelled (some "alt")) ⟨false⟩
        onlyAlternate = .ok ⟨false⟩ onlyAlternate ∧
      ¬ @BoundField.ServedByOwnKeys _ .clio hexLib aliasGuarded (some "alt") := by
  have hfound : aliasGuarded.FoundBy (some "alt") "alt" onlyAlternate :=
    ⟨rfl, .inr ⟨rfl, rfl⟩⟩
  have hothers : aliasGuarded.OtherGuardsAbsent (some "alt") onlyAlternate := by
    intro guardKey hguard hother
    have hkey : "alt" = guardKey := by
      simpa [aliasGuarded, strictField, ifAbsent, anyGuardsKey, Item.guardsKey] using hguard
    exact absurd (by simp [BoundField.spelled, Field.ownKeys, ← hkey]) hother
  refine ⟨rfl, hfound, hothers, rfl, ?_⟩
  intro hserved
  have hskips := @BoundField.ServedUnder.unskipped _ .clio hexLib _ _ _ _
    (hserved onlyAlternate "alt" hfound hothers)
  exact absurd hskips (by simp [aliasGuarded, strictField, ifAbsent, skipsField, Item.skips,
    Guard.skips, rootChild, onlyAlternate, Json.member?, present])

end ToggleInput

end RpcSpec.Dsl
