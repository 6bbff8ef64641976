import RpcSpec.Dsl.Frame
import RpcSpec.Dsl.Overrides
import Mathlib.Data.List.Pairwise
set_option autoImplicit false

/-!
# What a field reads and writes

A field of a spec asks for the presence of some keys, reads the values under its own
keys and writes at most under the one it was found by.  In a spec whose fields keep
out of each other's keys every field therefore sees the request as it was given, and
the parse is the outcomes of the fields at that request, one after another.

`Field.outcome` is what a field makes of a document, and `Apart` says that two fields keep
out of each other's keys. `parse_eq_runOutcomes` and `parse_eq_ok_iff` are the results:
the parse of independent fields is their outcomes at the request, one after another.
-/

namespace RpcSpec.Dsl

open RpcSpec.Foundation FieldView

variable {Input : Type}

/-! ## The outcome of a field -/

/-- What a field comes to at a request: the key it works on, the value it leaves there,
and what it does to the `Input`. -/
structure Outcome (Input : Type) where
  target : String
  value : Option Json
  result : Parsed (Input → Input)

/-- Write the value back, then return or fail. -/
def Outcome.run (outcome : Outcome Input) (out : Input) : EStateM Failure Json Input :=
  fun root =>
    match outcome.result with
    | .ok update => .ok (update out) (root.putChild outcome.value outcome.target)
    | .error failure => .error failure (root.putChild outcome.value outcome.target)

/-- Nothing is written where the value left is the one that was there. -/
theorem Outcome.run_unchanged (key : String) (result : Parsed (Input → Input)) (out : Input)
    (root : Json) : Outcome.run ⟨key, root.member? key, result⟩ out root =
      match result with
      | .ok update => .ok (update out) root
      | .error failure => .error failure root := by
  simp only [Outcome.run, Json.putChild_member?]

namespace BoundField

/-- What the field makes of the view it is found by. -/
def onView (field : BoundField Input) (v : FieldView) : Parsed (Input → Input) :=
  match runProcessors field.items v with
  | .ok _ v' =>
      if !v'.present then pure field.applyDefaults
      else (fun value out => field.member.assign out value) <$> field.conv.parse v'
  | .error failure _ => throw failure

/-- The outcome of the field looked up under a key. -/
def outcomeAt (field : BoundField Input) (key : String) (root : Json) : Outcome Input where
  target := key
  value :=
    if skipsField field.items root then root.member? key
    else (endState (runProcessors field.items) (rootChild root key)).value
  result := if skipsField field.items root then pure id else field.onView (rootChild root key)

theorem parseAt_eq (field : BoundField Input) (key : String) (out : Input) (root : Json) :
    field.parseAt key out root = (field.outcomeAt key root).run out root := by
  unfold parseAt outcomeAt
  change (if skipsField field.items root then (pure out : EStateM Failure Json Input)
    else _) root = _
  cases skipsField field.items root with
  | true =>
      simp only [if_true, Outcome.run_unchanged]
      rfl
  | false =>
      change EStateM.bind (onRootChild key (do runProcessors field.items; get)) _ root = _
      simp only [Bool.false_eq_true, if_false]
      rw [EStateM.bind, onRootChild_get, Outcome.run, onView, endState]
      cases runProcessors field.items (rootChild root key) with
      | error failure v => rfl
      | ok _ v =>
          dsimp only
          cases v.present with
          | false => rfl
          | true =>
              change EStateM.bind (monadLift (field.conv.parse v)) _ _ = _
              unfold EStateM.bind
              cases field.conv.parse v <;> rfl

end BoundField

/-! ## Requests a field cannot tell apart -/

section Congruence

/-- The same keys are there. -/
def SamePresence (root root' : Json) : Prop :=
  ∀ key, (root'.member? key).isSome = (root.member? key).isSome

theorem SamePresence.refl (root : Json) : SamePresence root root := fun _ => rfl

theorem SamePresence.trans {root root' root'' : Json} (h : SamePresence root root')
    (h' : SamePresence root' root'') : SamePresence root root'' :=
  fun key => (h' key).trans (h key)

theorem SamePresence.symm {root root' : Json} (h : SamePresence root root') :
    SamePresence root' root := fun key => (h key).symm

/-- A value is only written where one is. -/
theorem samePresence_putChild (root : Json) (value : Option Json) (key : String) :
    SamePresence root (root.putChild value key) := by
  intro other
  by_cases hother : other = key
  · subst hother
    cases root with
    | object members =>
        cases value with
        | none => rfl
        | some json =>
            cases hlookup : members.lookup other with
            | none => simp [Json.member?, Json.putChild, putMember_of_lookup_eq_none hlookup]
            | some old => simp [Json.member?, Json.putChild, hlookup, lookup_putMember_same hlookup]
    | _ => rfl
  · rw [Json.member?_putChild_ne hother]

variable {α : Type} {root root' : Json}

theorem present_congr (h : SamePresence root root') (key : String) :
    (rootChild root' key).present = (rootChild root key).present := h key

/-- The keys the guards ask for are there in both or in neither. -/
def SameGuarded (items : List (Item α)) (root root' : Json) : Prop :=
  ∀ key, anyGuardsKey key items = true →
    (rootChild root' key).present = (rootChild root key).present

theorem SamePresence.guarded (h : SamePresence root root') (items : List (Item α)) :
    SameGuarded items root root' := fun key _ => h key

theorem SameGuarded.head {item : Item α} {rest : List (Item α)}
    (h : SameGuarded (item :: rest) root root') {key : String} (hkey : item.guardsKey key = true) :
    (rootChild root' key).present = (rootChild root key).present :=
  h key (by rw [anyGuardsKey, hkey, Bool.true_or])

theorem SameGuarded.tail {item : Item α} {rest : List (Item α)}
    (h : SameGuarded (item :: rest) root root') : SameGuarded rest root root' :=
  fun key hkey => h key (by rw [anyGuardsKey, hkey, Bool.or_true])

mutual

theorem Item.skips_congr : ∀ item : Item α,
    (∀ key, item.guardsKey key = true →
      (rootChild root' key).present = (rootChild root key).present) →
    item.skips root' = item.skips root
  | .guard (.ifAbsent guardKey), h => by
      simp only [Item.skips, Guard.skips, h guardKey (by simp [Item.guardsKey])]
  | .guard .never, _ => by simp only [Item.skips, Guard.skips]
  | .serverConditional active inners, h => by
      simp only [Item.guardsKey] at h
      simp only [Item.skips, skipsAny_congr inners h]
  | .requirement _, _ => by simp only [Item.skips]
  | .modifier _, _ => by simp only [Item.skips]
  | .deprecated, _ => by simp only [Item.skips]
  | .defaultTo _, _ => by simp only [Item.skips]
  | .withCustomError _ _ _, _ => by simp only [Item.skips]
  | .ifType _ _, _ => by simp only [Item.skips]
  | .section_ _, _ => by simp only [Item.skips]

theorem skipsAny_congr : ∀ items : List (Item α), SameGuarded items root root' →
    skipsAny root' items = skipsAny root items
  | [], _ => by simp only [skipsAny]
  | item :: rest, h => by
      simp only [skipsAny, Item.skips_congr item fun _ => h.head, skipsAny_congr rest h.tail]

end

/-- Whether a field is skipped depends on which of the keys of its guards are there. -/
theorem skipsField_congr {items : List (Item α)} (h : SameGuarded items root root') :
    skipsField items root' = skipsField items root := by
  induction items with
  | nil => rfl
  | cons item rest ih =>
      have hitem := Item.skips_congr item fun _ => h.head
      have hrest := ih h.tail
      simp only [skipsField, List.any_cons] at hrest ⊢
      rw [hitem, hrest]

theorem rootChild_congr {key : String} (h : root'.member? key = root.member? key) :
    rootChild root' key = rootChild root key := by
  rw [rootChild, rootChild, h]

theorem outcomeAt_congr {field : BoundField Input} (h : SameGuarded field.items root root')
    {key : String} (hkey : root'.member? key = root.member? key) :
    field.outcomeAt key root' = field.outcomeAt key root := by
  simp only [BoundField.outcomeAt, skipsField_congr h, rootChild_congr hkey, hkey]

end Congruence

variable [Build] [LibXrpl]

/-- The outcome of a field with a second key. -/
def outcomeAliased (alternateKey : String) (field : BoundField Input) (root : Json) :
    Outcome Input :=
  if (rootChild root alternateKey).present then
    if (rootChild root field.key).present then
      ⟨alternateKey, root.member? alternateKey,
        throw (unexpected XrpldError.rpcInvalidParams "Too many fields provided.")⟩
    else field.outcomeAt alternateKey root
  else field.outcomeAt field.key root

omit [Build] [LibXrpl] in
theorem parseAliased_eq (alternateKey : String) (field : BoundField Input) (out : Input)
    (root : Json) : parseAliased alternateKey field out root =
      (outcomeAliased alternateKey field root).run out root := by
  change (if (rootChild root alternateKey).present then
    if (rootChild root field.key).present then
      throw (unexpected XrpldError.rpcInvalidParams "Too many fields provided.")
    else field.parseAt alternateKey out
    else field.parseAt field.key out : EStateM Failure Json Input) root = _
  unfold outcomeAliased
  cases (rootChild root alternateKey).present with
  | false => exact field.parseAt_eq field.key out root
  | true =>
      cases (rootChild root field.key).present with
      | false => exact field.parseAt_eq alternateKey out root
      | true =>
          rw [if_pos rfl, if_pos rfl, if_pos rfl, if_pos rfl, Outcome.run_unchanged]
          rfl

/-- The outcome of the selection of a ledger. -/
def outcomeSelector (member : Member Input LedgerSpecifier) (root : Json) : Outcome Input where
  target := "ledger_index"
  value := root.member? "ledger_index"
  result := (fun ledger out =>
    match ledger with
    | some ledger => member.assign out ledger
    | none => out) <$> selectLedger root

/-- The outcome of a field bound to no member. -/
def outcomeUnbound (field : FieldSpec Unit) (root : Json) : Outcome Input where
  target := field.key
  value := (endState (runProcessors field.items) (rootChild root field.key)).value
  result :=
    match runProcessors field.items (rootChild root field.key) with
    | .ok _ _ => pure id
    | .error failure _ => throw failure

namespace Field

/-- The outcome of a field at a request. -/
def outcome : Field Input → Json → Outcome Input
  | .bound field, root => field.outcomeAt field.key root
  | .aliased alternateKey field, root => outcomeAliased alternateKey field root
  | .ledgerSelector member, root => outcomeSelector member root
  | .unbound field, root => outcomeUnbound field root

theorem parseOne_eq (field : Field Input) (out : Input) (root : Json) :
    field.parseOne out root = (field.outcome root).run out root := by
  cases field with
  | bound field => exact field.parseAt_eq field.key out root
  | aliased alternateKey field => exact parseAliased_eq alternateKey field out root
  | ledgerSelector member =>
      change EStateM.bind (monadLift (selectLedger root)) _ root = _
      rw [outcome, outcomeSelector, Outcome.run_unchanged, EStateM.bind]
      rcases selectLedger root with failure | (_ | ledger) <;> rfl
  | unbound field =>
      change EStateM.bind field.process _ root = _
      rw [outcome, outcomeUnbound, Outcome.run, EStateM.bind, FieldSpec.process, zoom, endState]
      cases runProcessors field.items (rootChild root field.key) <;> rfl

/-! ## What it reads and writes -/

/-- The keys whose values the field reads. -/
def ownKeys : Field Input → List String
  | .bound field => [field.key]
  | .aliased alternateKey field => [field.key, alternateKey]
  | .ledgerSelector _ => ["ledger", "ledger_hash", "ledger_index"]
  | .unbound field => [field.key]

/-- The paths, from the value of the field, of the fields that carry a modifier. -/
def modifierPaths : Field Input → List Path
  | .bound field => itemsPaths field.items
  | .aliased _ field => itemsPaths field.items
  | .ledgerSelector _ => []
  | .unbound field => itemsPaths field.items

/-- Some item of the field may rewrite its value. -/
def rewrites (field : Field Input) : Bool := !field.modifierPaths.isEmpty

omit [Build] [LibXrpl] in
theorem modifierPaths_of_not_rewrites {field : Field Input} (h : field.rewrites = false) :
    field.modifierPaths = [] := by
  simpa [rewrites] using h

omit [Build] [LibXrpl] in
theorem value_outcomeAt_of_noPaths {field : BoundField Input} (h : itemsPaths field.items = [])
    (key : String) (root : Json) : (field.outcomeAt key root).value = root.member? key := by
  simp only [BoundField.outcomeAt, runProcessors_readOnly h]
  split <;> rfl

theorem target_mem_ownKeys (field : Field Input) (root : Json) :
    (field.outcome root).target ∈ field.ownKeys := by
  cases field with
  | bound field => exact List.mem_singleton_self _
  | aliased alternateKey field =>
      simp only [outcome, outcomeAliased, ownKeys]
      split
      · split <;> simp [BoundField.outcomeAt]
      · simp [BoundField.outcomeAt]
  | ledgerSelector member => simp [outcome, outcomeSelector, ownKeys]
  | unbound field => exact List.mem_singleton_self _

theorem value_of_noPaths {field : Field Input} (h : field.modifierPaths = []) (root : Json) :
    (field.outcome root).value = root.member? (field.outcome root).target := by
  cases field with
  | bound field => exact value_outcomeAt_of_noPaths h field.key root
  | aliased alternateKey field =>
      simp only [outcome, outcomeAliased]
      split
      · split
        · rfl
        · exact value_outcomeAt_of_noPaths h alternateKey root
      · exact value_outcomeAt_of_noPaths h field.key root
  | ledgerSelector member => rfl
  | unbound field =>
      simp only [outcome, outcomeUnbound, runProcessors_readOnly h]
      rfl

end Field

section Congruence

variable {root root' : Json}

/-- The keys the guards of the field ask for are there in both or in neither. -/
def Field.SameGuarded : Field Input → Json → Json → Prop
  | .bound field, root, root' => Dsl.SameGuarded field.items root root'
  | .aliased _ field, root, root' => Dsl.SameGuarded field.items root root'
  | .ledgerSelector _, _, _ => True
  | .unbound _, _, _ => True

omit [Build] [LibXrpl] in
theorem SamePresence.fieldGuarded (h : SamePresence root root') (field : Field Input) :
    field.SameGuarded root root' := by
  cases field with
  | bound field => exact h.guarded field.items
  | aliased alternateKey field => exact h.guarded field.items
  | ledgerSelector member => trivial
  | unbound field => trivial

/-- The outcome depends on which of the guards' keys are there and on the values of the
field's own. -/
theorem Field.outcome_congr {field : Field Input} (h : field.SameGuarded root root')
    (hown : ∀ key ∈ field.ownKeys, root'.member? key = root.member? key) :
    field.outcome root' = field.outcome root := by
  cases field with
  | bound field => exact outcomeAt_congr h (hown _ (List.mem_singleton_self _))
  | aliased alternateKey field =>
      have hkey := hown field.key (by simp [ownKeys])
      have halternate := hown alternateKey (by simp [ownKeys])
      simp only [outcome, outcomeAliased, rootChild_congr hkey, rootChild_congr halternate,
        halternate, outcomeAt_congr h halternate, outcomeAt_congr h hkey]
  | ledgerSelector member =>
      have hledger := rootChild_congr (hown "ledger" (by simp [ownKeys]))
      have hhash := rootChild_congr (hown "ledger_hash" (by simp [ownKeys]))
      have hindex := hown "ledger_index" (by simp [ownKeys])
      simp only [outcome, outcomeSelector, selectLedger, xrpldLedgerFromRequest, hledger, hhash,
        rootChild_congr hindex, hindex]
  | unbound field =>
      simp only [outcome, outcomeUnbound, rootChild_congr (hown _ (List.mem_singleton_self _))]

end Congruence

/-! ## Fields that keep out of each other's keys -/

/-- What one of the two may write the other does not read. -/
def Apart (f g : Field Input) : Prop :=
  f.rewrites = true ∨ g.rewrites = true → ∀ key ∈ f.ownKeys, key ∉ g.ownKeys

/-- Fields of a spec are apart from each other, unless one overrides the other. -/
def independent (fields : List (Field Input)) : Bool :=
  fields.all fun f => !f.rewrites || fields.all fun g =>
    f.key == g.key || f.ownKeys.all fun key => !g.ownKeys.contains key

section Independent

omit [Build] [LibXrpl]

instance : Std.Symm (@Apart Input) :=
  ⟨fun _ _ h hrewrites key hg hf => h hrewrites.symm key hf hg⟩

theorem apart_of_independent {fields : List (Field Input)} (h : independent fields = true)
    {f g : Field Input} (hf : f ∈ fields) (hg : g ∈ fields) (hne : f.key ≠ g.key) :
    Apart f g := by
  have hone {f g : Field Input} (hf : f ∈ fields) (hg : g ∈ fields) (hne : f.key ≠ g.key)
      (hrewrites : f.rewrites = true) : ∀ key ∈ f.ownKeys, key ∉ g.ownKeys := by
    have hall := List.all_eq_true.mp h f hf
    rw [hrewrites, Bool.not_true, Bool.false_or] at hall
    have hkeys := List.all_eq_true.mp hall g hg
    rw [beq_eq_false_iff_ne.mpr hne, Bool.false_or] at hkeys
    intro key hkey
    simpa using List.all_eq_true.mp hkeys key hkey
  rintro (hrewrites | hrewrites)
  · exact hone hf hg hne hrewrites
  · exact fun key hkey hkey' => hone hg hf hne.symm hrewrites key hkey' hkey

theorem pairwise_apart {fields : List (Field Input)} (h : independent fields = true) :
    (effectiveFields fields).Pairwise Apart := by
  have hkeys : ((lastWins Field.key fields).map Field.key).Nodup := nodup_map_key_lastWins fields
  rw [← effectiveFields_eq_lastWins, List.Nodup, List.pairwise_map] at hkeys
  refine hkeys.imp_of_mem fun hf hg hne => ?_
  exact apart_of_independent h (mem_of_mem_effectiveFields hf) (mem_of_mem_effectiveFields hg) hne

end Independent

/-! ## Runs -/

/-- The outcomes one after another, up to the first failure. -/
def runOutcomes (outcomes : List (Outcome Input)) (out : Input) : EStateM Failure Json Input :=
  outcomes.foldlM (fun out outcome => outcome.run out) out

/-- What they make of the `Input`. -/
def collect (outcomes : List (Outcome Input)) (out : Input) : Parsed Input :=
  outcomes.foldlM (fun out outcome => (· out) <$> outcome.result) out

/-- The request with all of their values written to it. -/
def written (outcomes : List (Outcome Input)) (root : Json) : Json :=
  outcomes.foldl (fun root outcome => root.putChild outcome.value outcome.target) root

omit [Build] [LibXrpl] in
theorem collect_cons (outcome : Outcome Input) (rest : List (Outcome Input)) (out : Input) :
    collect (outcome :: rest) out =
      match outcome.result with
      | .ok update => collect rest (update out)
      | .error failure => .error failure := by
  rw [collect, List.foldlM_cons]
  cases outcome.result <;> rfl

omit [Build] [LibXrpl] in
theorem runOutcomes_cons (outcome : Outcome Input) (rest : List (Outcome Input)) (out : Input)
    (root : Json) : runOutcomes (outcome :: rest) out root =
      match outcome.result with
      | .ok update => runOutcomes rest (update out) (root.putChild outcome.value outcome.target)
      | .error failure => .error failure (root.putChild outcome.value outcome.target) := by
  rw [runOutcomes, List.foldlM_cons]
  change EStateM.bind (outcome.run out) _ root = _
  rw [EStateM.bind, Outcome.run]
  cases outcome.result <;> rfl

omit [Build] [LibXrpl] in
theorem answer_runOutcomes (outcomes : List (Outcome Input)) (out : Input) (root : Json) :
    answer (runOutcomes outcomes out root) = collect outcomes out := by
  induction outcomes generalizing out root with
  | nil => rfl
  | cons outcome rest ih =>
      rw [runOutcomes_cons, collect_cons]
      cases outcome.result with
      | ok update => exact ih _ _
      | error failure => rfl

omit [Build] [LibXrpl] in
theorem runOutcomes_eq_ok_iff {outcomes : List (Outcome Input)} {out input : Input}
    {root root' : Json} : runOutcomes outcomes out root = .ok input root' ↔
      collect outcomes out = .ok input ∧ root' = written outcomes root := by
  induction outcomes generalizing out root with
  | nil =>
      constructor
      · rintro ⟨⟩
        exact ⟨rfl, rfl⟩
      · rintro ⟨⟨⟩, rfl⟩
        rfl
  | cons outcome rest ih =>
      rw [runOutcomes_cons, collect_cons]
      cases outcome.result with
      | ok update => exact ih
      | error failure => simp

section Written

omit [Build] [LibXrpl] in
theorem samePresence_written (outcomes : List (Outcome Input)) (root : Json) :
    SamePresence root (written outcomes root) := by
  induction outcomes generalizing root with
  | nil => exact .refl root
  | cons outcome rest ih => exact (samePresence_putChild root _ _).trans (ih _)

variable {fields : List (Field Input)} {given root : Json} {key : String}

/-- Fields of which none owns the key leave what stands under it. -/
theorem member?_written_of_not_own (hkey : ∀ f ∈ fields, key ∉ f.ownKeys) :
    (written (fields.map (·.outcome given)) root).member? key = root.member? key := by
  induction fields generalizing root with
  | nil => rfl
  | cons f rest ih =>
      refine (ih fun g hg => hkey g (by simp [hg])).trans (Json.member?_putChild_ne ?_ _ _)
      rintro rfl
      exact hkey f (by simp) (f.target_mem_ownKeys given)

/-- So do fields of which only those own the key that have no modifier. -/
theorem member?_written_of_readOnly (hkey : ∀ f ∈ fields, f.rewrites = true → key ∉ f.ownKeys)
    (hroot : root.member? key = given.member? key) :
    (written (fields.map (·.outcome given)) root).member? key = given.member? key := by
  induction fields generalizing root with
  | nil => exact hroot
  | cons f rest ih =>
      refine ih (fun g hg => hkey g (by simp [hg])) ?_
      change (root.putChild (f.outcome given).value (f.outcome given).target).member? key = _
      by_cases hne : key = (f.outcome given).target
      · have hread : f.rewrites = false := by
          refine Bool.eq_false_iff.mpr fun hrewrites => hkey f (by simp) hrewrites ?_
          rw [hne]
          exact f.target_mem_ownKeys given
        rw [Field.value_of_noPaths (Field.modifierPaths_of_not_rewrites hread), ← hne, ← hroot,
          Json.putChild_member?]
      · exact (Json.member?_putChild_ne hne _ _).trans hroot

/-- Of fields that are apart only the owner of a key writes there. -/
theorem member?_written (hapart : fields.Pairwise Apart) {g : Field Input} (hg : g ∈ fields)
    (hkey : key ∈ g.ownKeys) : (written (fields.map (·.outcome root)) root).member? key =
      (root.putChild (g.outcome root).value (g.outcome root).target).member? key := by
  cases hrewrites : g.rewrites with
  | false =>
      rw [Field.value_of_noPaths (Field.modifierPaths_of_not_rewrites hrewrites),
        Json.putChild_member?]
      refine member?_written_of_readOnly (fun f hf hrewrites' hkey' => ?_) rfl
      have hne : f ≠ g := by
        rintro rfl
        rw [hrewrites] at hrewrites'
        cases hrewrites'
      exact hapart.forall hf hg hne (.inl hrewrites') key hkey' hkey
  | true =>
      obtain ⟨before, after, rfl⟩ := List.append_of_mem hg
      rw [List.pairwise_append, List.pairwise_cons] at hapart
      obtain ⟨-, ⟨hafter, -⟩, hbefore⟩ := hapart
      have hbefore' {other : String} (hother : other ∈ g.ownKeys) :
          (written (before.map (·.outcome root)) root).member? other = root.member? other :=
        member?_written_of_not_own fun f hf hown =>
          hbefore f hf g (by simp) (.inr hrewrites) other hown hother
      rw [written, List.map_append, List.foldl_append]
      refine (member?_written_of_not_own fun f hf hown =>
        hafter f hf (.inl hrewrites) key hkey hown).trans ?_
      change ((written (before.map (·.outcome root)) root).putChild _ _).member? key = _
      by_cases hne : key = (g.outcome root).target
      · rw [hne, Json.member?_putChild_self, Json.member?_putChild_self,
          hbefore' (g.target_mem_ownKeys root)]
      · rw [Json.member?_putChild_ne hne, Json.member?_putChild_ne hne, hbefore' hkey]

end Written

/-- Fields that are apart all see the request as it was given. -/
theorem foldlM_parseOne_eq {fields : List (Field Input)} (hapart : fields.Pairwise Apart)
    {given root : Json} (hsame : SamePresence given root)
    (hown : ∀ f ∈ fields, ∀ key ∈ f.ownKeys, root.member? key = given.member? key) (out : Input) :
    fields.foldlM (fun out field => field.parseOne out) out root =
      runOutcomes (fields.map (·.outcome given)) out root := by
  induction hapart generalizing root out with
  | nil => rfl
  | @cons f rest hf _ ih =>
      have houtcome := Field.outcome_congr (hsame.fieldGuarded f) (hown f (by simp))
      rw [List.foldlM_cons, List.map_cons, runOutcomes_cons]
      change EStateM.bind (f.parseOne out) _ root = _
      rw [EStateM.bind, f.parseOne_eq, houtcome, Outcome.run]
      cases (f.outcome given).result with
      | error failure => rfl
      | ok update =>
          refine ih (hsame.trans (samePresence_putChild _ _ _)) ?_ _
          intro g hg key hkey
          rw [← hown g (by simp [hg]) key hkey]
          cases hrewrites : f.rewrites with
          | false =>
              -- nothing is written that was not there
              have hpaths := Field.modifierPaths_of_not_rewrites hrewrites
              rw [Field.value_of_noPaths hpaths, ← hown f (by simp) _ (f.target_mem_ownKeys given),
                Json.putChild_member?]
          | true =>
              refine Json.member?_putChild_ne ?_ _ _
              rintro rfl
              exact hf g hg (.inl hrewrites) _ (f.target_mem_ownKeys given) hkey

namespace TypedSpec

variable [InputAggregate Input]

/-- The outcomes of the fields that are dispatched. -/
def outcomes (spec : TypedSpec Input) (root : Json) : List (Outcome Input) :=
  (effectiveFields spec.fields).map (·.outcome root)

/-- The spec parses a request by the outcomes of its fields at that request. -/
theorem parse_eq_runOutcomes {spec : TypedSpec Input} (h : independent spec.fields = true)
    (root : Json) : spec.parse root = runOutcomes (spec.outcomes root) InputAggregate.init root :=
  foldlM_parseOne_eq (pairwise_apart h) (.refl root) (fun _ _ _ _ => rfl) _

theorem answer_parse {spec : TypedSpec Input} (h : independent spec.fields = true) (root : Json) :
    answer (spec.parse root) = collect (spec.outcomes root) InputAggregate.init := by
  rw [parse_eq_runOutcomes h, answer_runOutcomes]

theorem parse_eq_ok_iff {spec : TypedSpec Input} (h : independent spec.fields = true)
    {root root' : Json} {input : Input} : spec.parse root = .ok input root' ↔
      collect (spec.outcomes root) InputAggregate.init = .ok input ∧
        root' = written (spec.outcomes root) root := by
  rw [parse_eq_runOutcomes h, runOutcomes_eq_ok_iff]

end TypedSpec

end RpcSpec.Dsl
