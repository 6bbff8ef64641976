import RpcSpec.Dsl.OwnKeys
import RpcSpec.Dsl.Deprecations
import RpcSpec.Dsl.Modifiers
set_option autoImplicit false

/-!
# Server-conditional wrappers in place

A wrapper of the server that is built does to a field what its items do where they stand
in its place, and one of the other server does nothing.  Of the kinds of items a wrapper
passes on requirements, modifiers, checks and guards, but no defaults.

`Unwraps` puts a wrapper's items in its place, at the top of a field or inside a section,
and `unwrapped_iff` says that the two fields agree on every document just where no default
is lost.
-/

namespace RpcSpec.Dsl

open RpcSpec.Foundation FieldView

variable {Input : Type} {α : Type}

/-! ## Constructible wrappers -/

mutual

/-- No wrapper in the item holds both requirements and modifiers. -/
def Item.Unmixed : Item α → Prop
  | .serverConditional _ inners => NotMixed inners ∧ Unmixed inners
  | .withCustomError wrapped _ _ => wrapped.Unmixed
  | .ifType _ subItems => Unmixed subItems
  | .section_ subFields => FieldsUnmixed subFields
  | _ => True

/-- The same of every item of a list. -/
def Unmixed : List (Item α) → Prop
  | [] => True
  | item :: rest => item.Unmixed ∧ Unmixed rest

/-- The same of every item of each subfield. -/
def FieldsUnmixed : List (FieldSpec α) → Prop
  | [] => True
  | .mk _ items :: rest => Unmixed items ∧ FieldsUnmixed rest

end

/-! ## Lists of items joined -/

section Append

variable (items more : List (Item α))

/-- A joined list is unmixed when its parts are. -/
theorem unmixed_append : Unmixed (items ++ more) ↔ Unmixed items ∧ Unmixed more := by
  induction items with
  | nil => simp [Unmixed]
  | cons item rest ih => simp [Unmixed, ih, and_assoc]

theorem anyRequirement_append :
    anyRequirement (items ++ more) = (anyRequirement items || anyRequirement more) := by
  induction items with
  | nil => simp [anyRequirement]
  | cons item rest ih => simp [anyRequirement, ih, Bool.or_assoc]

theorem anyModifier_append :
    anyModifier (items ++ more) = (anyModifier items || anyModifier more) := by
  induction items with
  | nil => simp [anyModifier]
  | cons item rest ih => simp [anyModifier, ih, Bool.or_assoc]

theorem anyGuardsKey_append (key : String) :
    anyGuardsKey key (items ++ more) = (anyGuardsKey key items || anyGuardsKey key more) := by
  induction items with
  | nil => simp [anyGuardsKey]
  | cons item rest ih => simp [anyGuardsKey, ih, Bool.or_assoc]

theorem skipsAny_append (root : Json) :
    skipsAny root (items ++ more) = (skipsAny root items || skipsAny root more) := by
  induction items with
  | nil => simp [skipsAny]
  | cons item rest ih => simp [skipsAny, ih, Bool.or_assoc]

theorem firstCheck_append [Build] (fieldView : FieldView) :
    firstCheck (items ++ more) fieldView =
      (firstCheck items fieldView).or (firstCheck more fieldView) := by
  induction items with
  | nil => simp [firstCheck]
  | cons item rest ih => simp [firstCheck, ih, Option.or_assoc]

/-- The checks of a joined list are those of its parts in order. -/
theorem runChecks_append [Build] (fieldView : FieldView) :
    runChecks (items ++ more) fieldView =
      runChecks items fieldView ++ runChecks more fieldView := by
  simp only [runChecks, List.filterMap_append]

end Append

/-! ## Unwrapping -/

/-- What stands in the place of a wrapper: its items, or nothing where it is the other
server's. -/
def inPlace (active : Bool) (group : List (Item α)) : List (Item α) :=
  if active then group else []

/-- Items with the group in a wrapper, and the same items with what stands in its place; the
flag says whether the wrapper is itself nested in others. -/
inductive Unwraps (active : Bool) (group : List (Item α)) :
    Bool → List (Item α) → List (Item α) → Prop where
  | here (before after : List (Item α)) :
      Unwraps active group false (before ++ .serverConditional active group :: after)
        (before ++ (inPlace active group ++ after))
  | inside (before : List (Item α)) (outer : Bool) (after : List (Item α)) {nested : Bool}
      {inners inners' : List (Item α)} (h : Unwraps active group nested inners inners') :
      Unwraps active group true (before ++ .serverConditional outer inners :: after)
        (before ++ .serverConditional outer inners' :: after)

/-- At most one item of the group is a check in force. -/
def ChecksAtMostOnce (group : List (Item α)) : Prop :=
  group.countP (fun item => item.deprecatedCount != 0) ≤ 1

namespace Unwraps

variable {active nested : Bool} {group items items' : List (Item α)}

/-- What is asked of every item, in wrappers too, holds of no item that was not there. -/
theorem any_of_any {any : List (Item α) → Bool} (hnil : any [] = false)
    (happend : ∀ items more, any (items ++ more) = (any items || any more))
    (hwrapper : ∀ active inners rest,
      any (.serverConditional active inners :: rest) = (any inners || any rest))
    (h : Unwraps active group nested items items') (hany : any items' = true) :
    any items = true := by
  induction h with
  | here before after =>
      rw [happend, happend] at hany
      rw [happend, hwrapper]
      cases active with
      | true => exact hany
      | false =>
          rw [inPlace, if_neg Bool.false_ne_true, hnil, Bool.false_or] at hany
          simp only [Bool.or_eq_true] at hany ⊢
          exact hany.imp_right .inr
  | inside before outer after _ ih =>
      rw [happend, hwrapper] at hany ⊢
      simp only [Bool.or_eq_true] at hany ⊢
      exact hany.imp_right (Or.imp_left ih)

/-- Unwrapping adds no requirement. -/
theorem anyRequirement (h : Unwraps active group nested items items') :
    Dsl.anyRequirement items' = true → Dsl.anyRequirement items = true :=
  h.any_of_any rfl anyRequirement_append fun _ _ _ => by
    rw [Dsl.anyRequirement, Item.isRequirement]

/-- Unwrapping adds no modifier. -/
theorem anyModifier (h : Unwraps active group nested items items') :
    Dsl.anyModifier items' = true → Dsl.anyModifier items = true :=
  h.any_of_any rfl anyModifier_append fun _ _ _ => by
    rw [Dsl.anyModifier, Item.isModifier]

/-- The constructor accepts what it accepted with the wrapper. -/
theorem unguarded (h : Unwraps active group nested items items') {key : String}
    (hunguarded : anyGuardsKey key items = false) : anyGuardsKey key items' = false := by
  by_contra hguard
  have hany := h.any_of_any rfl (anyGuardsKey_append · · key)
    (fun _ _ _ => by rw [anyGuardsKey, Item.guardsKey]) (Bool.not_eq_false _ ▸ hguard)
  rw [hunguarded] at hany
  cases hany

theorem notMixed (h : Unwraps active group nested items items') (hmixed : NotMixed items) :
    NotMixed items' := by
  refine hmixed.imp ?_ ?_
  · intro hnone
    by_contra hany
    rw [h.anyRequirement (Bool.not_eq_false _ ▸ hany)] at hnone
    cases hnone
  · intro hnone
    by_contra hany
    rw [h.anyModifier (Bool.not_eq_false _ ▸ hany)] at hnone
    cases hnone

/-- The processors do the same to every value. -/
theorem runProcessors_eq (h : Unwraps active group nested items items')
    (hunmixed : Unmixed items) : runProcessors items' = runProcessors items := by
  induction h with
  | here before after =>
      simp only [unmixed_append, Unmixed, Item.Unmixed] at hunmixed
      rw [runProcessors_append before, runProcessors_append before,
        runProcessors_wrapper hunmixed.2.1.1, inPlace]
  | inside before outer after h ih =>
      simp only [unmixed_append, Unmixed, Item.Unmixed] at hunmixed
      obtain ⟨-, ⟨hmixed, hinners⟩, -⟩ := hunmixed
      rw [runProcessors_append before, runProcessors_append before, runProcessors_wrapper hmixed,
        runProcessors_wrapper (h.notMixed hmixed), runProcessors_append, runProcessors_append]
      cases outer with
      | true => rw [if_pos rfl, if_pos rfl, ih hinners]
      | false => rfl

theorem skipsAny_eq (h : Unwraps active group nested items items') (root : Json) :
    skipsAny root items' = skipsAny root items := by
  induction h with
  | here before after =>
      rw [skipsAny_append, skipsAny_append, skipsAny_append, skipsAny, Item.skips]
      cases active <;> simp [inPlace, skipsAny]
  | inside before outer after _ ih =>
      rw [skipsAny_append, skipsAny_append, skipsAny, skipsAny, Item.skips, Item.skips, ih]

/-- Unwrapping changes no guard. -/
theorem skipsField_eq (h : Unwraps active group nested items items') (root : Json) :
    skipsField items' root = skipsField items root := by
  rw [← Dsl.skipsAny_eq, ← Dsl.skipsAny_eq, h.skipsAny_eq]

section Checks

variable [Build]

/-- The first warning is the same. -/
theorem firstCheck_eq (h : Unwraps active group nested items items') (fieldView : FieldView) :
    firstCheck items' fieldView = firstCheck items fieldView := by
  induction h with
  | here before after =>
      rw [firstCheck_append, firstCheck_append, firstCheck_append, firstCheck, Item.check]
      cases active <;> simp [inPlace, firstCheck]
  | inside before outer after _ ih =>
      rw [firstCheck_append, firstCheck_append, firstCheck, firstCheck, Item.check, Item.check,
        ih]

theorem firstCheck_eq_head? (items : List (Item α)) (fieldView : FieldView) :
    firstCheck items fieldView = (runChecks items fieldView).head? := by
  induction items with
  | nil => simp [runChecks, firstCheck]
  | cons item rest ih =>
      rw [firstCheck, ih, runChecks_cons]
      cases item.check fieldView <;> rfl

/-- Only the items that are checks in force warn. -/
theorem length_runChecks_le (items : List (Item α)) (fieldView : FieldView) :
    (runChecks items fieldView).length ≤
      items.countP fun item => item.deprecatedCount != 0 := by
  rw [runChecks, List.length_filterMap_eq_countP]
  apply List.countP_mono_left
  intro item _ hwarns
  by_contra hnone
  have hcheck := item.check_eq fieldView
  rw [Bool.not_eq_true] at hnone
  rw [hcheck, hnone] at hwarns
  cases hwarns

/-- Of a group with one check at most the first warning is the only one. -/
theorem runChecks_eq_toList {group : List (Item α)} (h : ChecksAtMostOnce group)
    (fieldView : FieldView) : runChecks group fieldView = (firstCheck group fieldView).toList := by
  have hlength := (length_runChecks_le group fieldView).trans h
  rw [firstCheck_eq_head?]
  cases hchecks : runChecks group fieldView with
  | nil => rfl
  | cons warning rest =>
      rw [hchecks, List.length_cons] at hlength
      obtain rfl : rest = [] := List.length_eq_zero_iff.mp (by omega)
      rfl

/-- The warnings are the same. -/
theorem runChecks_eq (h : Unwraps active group nested items items')
    (honce : ChecksAtMostOnce group) (fieldView : FieldView) :
    runChecks items' fieldView = runChecks items fieldView := by
  cases h with
  | here before after =>
      rw [runChecks_append before, runChecks_append before, runChecks_append, runChecks_cons,
        Item.check]
      cases active with
      | true => rw [inPlace, if_pos rfl, if_pos rfl, runChecks_eq_toList honce]
      | false => rfl
  | inside before outer after h =>
      rw [runChecks_append, runChecks_append, runChecks_cons, runChecks_cons, Item.check,
        Item.check, h.firstCheck_eq]

end Checks

end Unwraps

/-! ## Defaults -/

/-- The value of a default that `applyIfDefault` sees. -/
def Item.default? : Item α → Option α
  | .defaultTo value => some value
  | _ => none

/-- The defaults of a list, in order. -/
def defaults (items : List (Item α)) : List α := items.filterMap Item.default?

namespace Unwraps

variable {active nested : Bool} {group items items' : List (Item α)}

/-- Only a group that stands among the items of the field itself brings defaults. -/
theorem defaults_eq (h : Unwraps active group nested items items')
    (hcase : active = false ∨ nested = true ∨ defaults group = []) :
    defaults items' = defaults items := by
  cases h with
  | here before after =>
      have hgroup : defaults (inPlace active group) = [] := by
        rcases hcase with rfl | hnested | hnone
        · rfl
        · cases hnested
        · cases active with
          | true => rwa [inPlace, if_pos rfl]
          | false => rfl
      simp only [defaults] at hgroup ⊢
      rw [List.filterMap_append, List.filterMap_append, List.filterMap_append, hgroup]
      rfl
  | inside before outer after h =>
      rw [defaults, defaults, List.filterMap_append, List.filterMap_append]
      rfl

end Unwraps

namespace BoundField

theorem applyDefaults_eq (field : BoundField Input) (out : Input) :
    field.applyDefaults out = (defaults field.items).foldl field.member.assign out := by
  rw [applyDefaults, defaults]
  generalize field.items = items
  induction items generalizing out with
  | nil => rfl
  | cons item rest ih => cases item <;> exact ih _

variable {active nested : Bool}

/-- The field with what stands in the place of a wrapper. -/
def unwrapped (field : BoundField Input) {group items' : List (Item field.Value)}
    (h : Unwraps active group nested field.items items') : BoundField Input :=
  { field with items := items', unguarded := h.unguarded field.unguarded }

/-- The key the field is read by; where both its keys are there it is not read. -/
def readKey? (field : BoundField Input) (alternateKey : Option String) (root : Json) :
    Option String :=
  match alternateKey with
  | none => some field.key
  | some alternate =>
      if (rootChild root alternate).present then
        if (rootChild root field.key).present then none else some alternate
      else some field.key

/-- Read by the key the field comes to its defaults, and they are not those of the other. -/
structure DefaultsDiffer (field field' : BoundField Input) (key : String) (out : Input)
    (root : Json) : Prop where
  unskipped : skipsField field.items root = false
  passes : ∃ view, runProcessors field.items (rootChild root key) = .ok () view ∧
    view.present = false
  differ : field'.applyDefaults out ≠ field.applyDefaults out

/-- The field comes to defaults that are not those of the other. -/
def LosesDefault (field field' : BoundField Input) (alternateKey : Option String)
    (out : Input) (root : Json) : Prop :=
  ∃ key ∈ field.readKey? alternateKey root, field.DefaultsDiffer field' key out root

variable {field : BoundField Input} {group items' : List (Item field.Value)}
  {h : Unwraps active group nested field.items items'}

/-- Unwrapping changes a parse exactly where the defaults differ. -/
theorem parseAt_unwrapped_iff (hunmixed : Unmixed field.items) (key : String) (out : Input)
    (root : Json) : (field.unwrapped h).parseAt key out root = field.parseAt key out root ↔
      ¬ field.DefaultsDiffer (field.unwrapped h) key out root := by
  have hrun : runProcessors (field.unwrapped h).items = runProcessors field.items :=
    h.runProcessors_eq hunmixed
  have hskip : skipsField (field.unwrapped h).items root = skipsField field.items root :=
    h.skipsField_eq root
  rw [parseAt_eq, parseAt_eq, outcomeAt, outcomeAt, onView, onView, hrun, hskip]
  cases hskips : skipsField field.items root with
  | true =>
      apply iff_of_true rfl
      intro hlost
      rw [hlost.unskipped] at hskips
      cases hskips
  | false =>
      cases hitems : runProcessors field.items (rootChild root key) with
      | error failure view =>
          apply iff_of_true rfl
          intro hlost
          obtain ⟨view', hpasses, -⟩ := hlost.passes
          rw [hitems] at hpasses
          cases hpasses
      | ok _ view =>
          cases hpresent : view.present with
          | true =>
              refine iff_of_true ?_ ?_
              · simp only [hpresent]
                rfl
              · intro hlost
                obtain ⟨view', hpasses, habsent⟩ := hlost.passes
                rw [hitems] at hpasses
                cases hpasses
                rw [hpresent] at habsent
                cases habsent
          | false =>
              have hreached : field.DefaultsDiffer (field.unwrapped h) key out root ↔
                  (field.unwrapped h).applyDefaults out ≠ field.applyDefaults out :=
                ⟨fun hlost => hlost.differ, fun hdiffer => ⟨hskips, ⟨view, hitems, hpresent⟩,
                  hdiffer⟩⟩
              rw [hreached, not_not]
              simp only [hpresent, Outcome.run]
              constructor
              · intro heq
                exact (EStateM.Result.ok.inj heq).1
              · intro heq
                exact congrArg (EStateM.Result.ok · _) heq

end BoundField

/-! ## Fields and specs -/

/-- At the request the field does what the other does: it parses to the same result, leaves
the same document and gives the same warnings. -/
structure Field.AgreesAt [Build] [LibXrpl] (field field' : Field Input) (out : Input)
    (root : Json) : Prop where
  parse : field'.parseOne out root = field.parseOne out root
  check : field'.check root = field.check root

namespace BoundField

variable {active nested : Bool} {field : BoundField Input}
  {group items' : List (Item field.Value)} {h : Unwraps active group nested field.items items'}

variable [Build] [LibXrpl]

theorem parseOne_spelled (field : BoundField Input) (alternateKey : Option String)
    (out : Input) (root : Json) : (field.spelled alternateKey).parseOne out root =
      (field.readKey? alternateKey root).elim (.error tooManyFields root)
        (field.parseAt · out root) := by
  cases alternateKey with
  | none => rfl
  | some alternate =>
      rw [spelled, Field.parseOne, parseAliased_apply, readKey?]
      cases (rootChild root alternate).present with
      | false => rfl
      | true => cases (rootChild root field.key).present <;> rfl

/-- The same for a field under any of its spellings. -/
theorem parseOne_unwrapped_iff (hunmixed : Unmixed field.items) (alternateKey : Option String)
    (out : Input) (root : Json) :
    ((field.unwrapped h).spelled alternateKey).parseOne out root =
        (field.spelled alternateKey).parseOne out root ↔
      ¬ field.LosesDefault (field.unwrapped h) alternateKey out root := by
  have hkey : (field.unwrapped h).readKey? alternateKey root = field.readKey? alternateKey root :=
    rfl
  rw [parseOne_spelled, parseOne_spelled, hkey, LosesDefault]
  cases field.readKey? alternateKey root with
  | none => exact iff_of_true rfl (by simp)
  | some key => simpa using parseAt_unwrapped_iff (h := h) hunmixed key out root

omit [LibXrpl] in
/-- Unwrapping leaves the warnings as they were. -/
theorem check_unwrapped (honce : ChecksAtMostOnce group) (alternateKey : Option String)
    (root : Json) : ((field.unwrapped h).spelled alternateKey).check root =
      (field.spelled alternateKey).check root := by
  have hcheckAt (key : String) :
      (field.unwrapped h).checkAt key root = field.checkAt key root := by
    rw [checkAt, checkAt]
    change (if skipsField items' root then [] else runChecks items' (rootChild root key)) = _
    rw [h.skipsField_eq, h.runChecks_eq honce]
  cases alternateKey with
  | none => exact hcheckAt field.key
  | some alternate => exact hcheckAt _

theorem agreesAt_unwrapped_iff (hunmixed : Unmixed field.items) (honce : ChecksAtMostOnce group)
    (alternateKey : Option String) (out : Input) (root : Json) :
    (field.spelled alternateKey).AgreesAt ((field.unwrapped h).spelled alternateKey) out root ↔
      ¬ field.LosesDefault (field.unwrapped h) alternateKey out root := by
  rw [← parseOne_unwrapped_iff hunmixed]
  constructor
  · intro hagrees
    exact hagrees.parse
  · intro hparse
    exact ⟨hparse, check_unwrapped honce alternateKey root⟩

omit [Build] [LibXrpl] in
/-- The other server's wrapper, one nested in others and one without defaults of its own
lose nothing. -/
theorem not_losesDefault (hcase : active = false ∨ nested = true ∨ defaults group = [])
    (alternateKey : Option String) (out : Input) (root : Json) :
    ¬ field.LosesDefault (field.unwrapped h) alternateKey out root := by
  intro hloses
  obtain ⟨key, -, hdiffer⟩ := hloses
  apply hdiffer.differ
  have hdefaults : defaults (field.unwrapped h).items = defaults field.items :=
    h.defaults_eq hcase
  rw [applyDefaults_eq, applyDefaults_eq, hdefaults]
  rfl

end BoundField

namespace TypedSpec

variable [InputAggregate Input] [Build] [LibXrpl]

/-- The specs do the same at every request. -/
structure Agrees (spec spec' : TypedSpec Input) : Prop where
  parse : spec'.parse = spec.parse
  check : spec'.check = spec.check

/-- The fields do the same wherever they are dispatched. -/
def SameDispatched (field field' : Field Input) : Prop :=
  field.key = field'.key ∧ ∀ out root, field.AgreesAt field' out root

theorem agrees_of_forall₂ {spec spec' : TypedSpec Input}
    (h : List.Forall₂ SameDispatched (effectiveFields spec.fields)
      (effectiveFields spec'.fields)) : spec.Agrees spec' where
  parse := by
    rw [parse, parse]
    generalize effectiveFields spec.fields = fields at h ⊢
    generalize effectiveFields spec'.fields = fields' at h ⊢
    generalize (InputAggregate.init : Input) = out
    induction h generalizing out with
    | nil => rfl
    | cons hsame _ ih =>
        rw [List.foldlM_cons, List.foldlM_cons]
        have hstep := funext fun root => (hsame.2 out root).parse
        rw [hstep]
        exact bind_congr ih
  check := by
    funext root
    rw [check, check]
    generalize effectiveFields spec.fields = fields at h ⊢
    generalize effectiveFields spec'.fields = fields' at h ⊢
    induction h with
    | nil => rfl
    | cons hsame _ ih =>
        rw [List.flatMap_cons, List.flatMap_cons, (hsame.2 InputAggregate.init root).check, ih]

/-- A field may be replaced by one that does the same, and where a later field has its key by
any with that key. -/
theorem agrees_of_replaced {before after : List (Field Input)} {field field' : Field Input}
    (hkey : field.key = field'.key)
    (hagrees : (∀ other ∈ after, other.key ≠ field.key) → ∀ out root,
      field.AgreesAt field' out root) (complete complete') :
    (⟨before ++ field :: after, complete⟩ : TypedSpec Input).Agrees
      ⟨before ++ field' :: after, complete'⟩ := by
  by_cases hlater : field.key ∈ after.map Field.key
  · have heffective : effectiveFields (before ++ field' :: after) =
        effectiveFields (before ++ field :: after) := by
      rw [effectiveFields_eq_lastWins, effectiveFields_eq_lastWins]
      exact lastWins_overridden hkey.symm hlater
    refine ⟨?_, ?_⟩
    · rw [parse, parse, heffective]
    · funext root
      rw [check, check, heffective]
  · have hsame : ∀ out root, field.AgreesAt field' out root :=
      hagrees fun other hother heq => hlater (List.mem_map.mpr ⟨other, hother, heq⟩)
    refine agrees_of_forall₂ ?_
    rw [effectiveFields_eq_lastWins, effectiveFields_eq_lastWins]
    refine forall₂_lastWins (fun f g hfg => hfg.1) ?_
    have hrefl : ∀ fields : List (Field Input), List.Forall₂ SameDispatched fields fields :=
      fun fields => List.forall₂_same.mpr fun f _ => ⟨rfl, fun _ _ => ⟨rfl, rfl⟩⟩
    exact List.rel_append (hrefl before) (.cons ⟨hkey, hsame⟩ (hrefl after))

end TypedSpec

section Unwrapped

variable [InputAggregate Input] [Build] [LibXrpl]

/-- A field does at a request what it does with a wrapper written out just where it loses no
default.  It loses none for a wrapper of the other server, for one nested in others and for
a group that holds no default; and a spec does what it does with the wrapper written out where
its field loses none, or is overridden. -/
theorem unwrapped_iff (field : BoundField Input) {active nested : Bool}
    {group items' : List (Item field.Value)}
    (h : Unwraps active group nested field.items items') (hunmixed : Unmixed field.items)
    (honce : ChecksAtMostOnce group) (alternateKey : Option String) :
    (∀ out root, (field.spelled alternateKey).AgreesAt
        ((field.unwrapped h).spelled alternateKey) out root ↔
      ¬ field.LosesDefault (field.unwrapped h) alternateKey out root) ∧
    (active = false ∨ nested = true ∨ defaults group = [] → ∀ out root,
      ¬ field.LosesDefault (field.unwrapped h) alternateKey out root) ∧
    ∀ before after complete complete', ((∀ other ∈ after, Field.key other ≠ field.key) →
        ∀ out root, ¬ field.LosesDefault (field.unwrapped h) alternateKey out root) →
      (⟨before ++ field.spelled alternateKey :: after, complete⟩ : TypedSpec Input).Agrees
        ⟨before ++ (field.unwrapped h).spelled alternateKey :: after, complete'⟩ := by
  have hagrees := BoundField.agreesAt_unwrapped_iff (h := h) hunmixed honce alternateKey
  have hkey (field : BoundField Input) : (field.spelled alternateKey).key = field.key := by
    cases alternateKey <;> rfl
  refine ⟨hagrees, fun hcase => BoundField.not_losesDefault hcase alternateKey, ?_⟩
  intro before after complete complete' hloses
  refine TypedSpec.agrees_of_replaced ?_ ?_ complete complete'
  · rw [hkey, hkey]
    rfl
  · intro hlast out root
    rw [hkey] at hlast
    exact (hagrees out root).mpr (hloses hlast out root)

end Unwrapped

namespace ToggleInput

/-- A requirement and a default. -/
def typedDefault : List (Item JsonBool) := [type [.bool], defaultTo true]

/-- The two in a wrapper of the server that is built. -/
def wrappedField : BoundField ToggleInput :=
  strictField [.serverConditional true typedDefault] rfl

theorem wrappedField_unwraps :
    Unwraps true typedDefault false wrappedField.items typedDefault := .here [] []

theorem wrappedField_unmixed : Unmixed wrappedField.items := by
  have hmixed : NotMixed typedDefault := .inr rfl
  have hgroup : Unmixed typedDefault := by
    simp [typedDefault, type, defaultTo, Unmixed, Item.Unmixed]
  exact ⟨⟨hmixed, hgroup⟩, trivial⟩

theorem typedDefault_checksAtMostOnce : ChecksAtMostOnce typedDefault := Nat.zero_le 1

/-- The same two in a wrapper of the other server, nested in one of the server that is
built. -/
def nestedField : BoundField ToggleInput :=
  strictField [.serverConditional true [.serverConditional false typedDefault]] rfl

theorem nestedField_unwraps : Unwraps false typedDefault true nestedField.items
    [.serverConditional true []] := .inside [] true [] (.here [] [])

theorem nestedField_unmixed : Unmixed nestedField.items :=
  ⟨⟨.inr rfl, ⟨.inr rfl, wrappedField_unmixed.1.2⟩, trivial⟩, trivial⟩

theorem wrappers_unwrapped :
    (@Field.AgreesAt _ .clio hexLib (wrappedField.spelled none)
        ((wrappedField.unwrapped wrappedField_unwraps).spelled none) ⟨false⟩ (.object []) ↔
      ¬ wrappedField.LosesDefault (wrappedField.unwrapped wrappedField_unwraps) none ⟨false⟩
        (.object [])) ∧
    ∀ out root, @Field.AgreesAt _ .clio hexLib (nestedField.spelled (some "alt"))
      ((nestedField.unwrapped nestedField_unwraps).spelled (some "alt")) out root := by
  obtain ⟨hwrapped, -, -⟩ := @unwrapped_iff _ _ .clio hexLib wrappedField _ _ _ _
    wrappedField_unwraps wrappedField_unmixed typedDefault_checksAtMostOnce none
  obtain ⟨hnested, hkeeps, -⟩ := @unwrapped_iff _ _ .clio hexLib nestedField _ _ _ _
    nestedField_unwraps nestedField_unmixed typedDefault_checksAtMostOnce (some "alt")
  refine ⟨hwrapped ⟨false⟩ (.object []), ?_⟩
  intro out root
  exact (hnested out root).mpr (hkeeps (.inl rfl) out root)

/-- Without the member the wrapped default is not assigned. -/
theorem wrappedField_loses_default :
    Unmixed wrappedField.items ∧ ChecksAtMostOnce typedDefault ∧
      @Field.parseOne _ .clio hexLib (.bound wrappedField) ⟨false⟩ (.object []) =
        .ok ⟨false⟩ (.object []) ∧
      @Field.parseOne _ .clio hexLib (.bound (wrappedField.unwrapped wrappedField_unwraps))
        ⟨false⟩ (.object []) = .ok ⟨true⟩ (.object []) ∧
      ¬ @Field.AgreesAt _ .clio hexLib (.bound wrappedField)
        (.bound (wrappedField.unwrapped wrappedField_unwraps)) ⟨false⟩ (.object []) := by
  have hwrapped : @Field.parseOne _ .clio hexLib (.bound wrappedField) ⟨false⟩ (.object []) =
      .ok ⟨false⟩ (.object []) := rfl
  have hinPlace : @Field.parseOne _ .clio hexLib
      (.bound (wrappedField.unwrapped wrappedField_unwraps)) ⟨false⟩ (.object []) =
        .ok ⟨true⟩ (.object []) := rfl
  refine ⟨wrappedField_unmixed, typedDefault_checksAtMostOnce, hwrapped, hinPlace, ?_⟩
  intro hagrees
  have hparse := @Field.AgreesAt.parse _ .clio hexLib _ _ _ _ hagrees
  rw [hwrapped, hinPlace] at hparse
  cases hparse

end ToggleInput

end RpcSpec.Dsl
