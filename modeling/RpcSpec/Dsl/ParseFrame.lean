import RpcSpec.Dsl.Locality
set_option autoImplicit false

/-!
# What a parse leaves of the request

A parse writes where a field that is not skipped carries a modifier, and there it only
puts scalars in the place of leaves.  It does so whether it returns or fails.

`TypedSpec.leavesFrame` is the result, stated with `LeavesFrame`: outside the paths of the
modifiers the document is what it was, its shape is kept, and a document that is no object
is not touched at all.
-/

namespace RpcSpec.Dsl

open RpcSpec.Foundation FieldView

variable {Input : Type}

/-! ## Where a field may write -/

namespace Field

/-- Whether a guard skips the field. -/
def skipped : Field Input → Json → Bool
  | .bound field, root => skipsField field.items root
  | .aliased _ field, root => skipsField field.items root
  | .ledgerSelector _, _ => false
  | .unbound _, _ => false

/-- The paths at or below which the field may write. -/
def writePaths (field : Field Input) (root : Json) : List Path :=
  if field.skipped root then []
  else field.ownKeys.flatMap fun key => field.modifierPaths.map (.key key :: ·)

/-- The modifiers of the field put scalars in the place of leaves. -/
def ModifiersFrame : Field Input → Prop
  | .bound field => AllModifiers Frames field.items
  | .aliased _ field => AllModifiers Frames field.items
  | .ledgerSelector _ => True
  | .unbound field => AllModifiers Frames field.items

theorem modifiersFrame_of_noPaths {field : Field Input} (h : field.modifierPaths = []) :
    field.ModifiersFrame := by
  cases field with
  | bound field => exact allModifiers_of_noPaths h
  | aliased alternateKey field => exact allModifiers_of_noPaths h
  | ledgerSelector member => trivial
  | unbound field => exact allModifiers_of_noPaths h

theorem mem_writePaths {field : Field Input} {root : Json} {path : Path} :
    path ∈ field.writePaths root ↔ field.skipped root = false ∧
      ∃ key ∈ field.ownKeys, ∃ q ∈ field.modifierPaths, path = .key key :: q := by
  unfold writePaths
  cases field.skipped root with
  | true => simp
  | false => simp [eq_comm]

theorem coversPaths_modifierPaths (field : Field Input) {root : Json}
    (hskipped : field.skipped root = false) {key : String} (hkey : key ∈ field.ownKeys) :
    CoversPaths (descend (.key key) (field.writePaths root)) field.modifierPaths :=
  .of_subset fun q hq =>
    mem_descend.mpr (.inr (mem_writePaths.mpr ⟨hskipped, key, hkey, q, hq, rfl⟩))

end Field

/-! ## Presence is kept -/

theorem RewrittenWithin.samePresence {allowed : List Path} {root root' : Json}
    (h : RewrittenWithin allowed root root') : SamePresence root root' :=
  fun key => (h.member? key).isSome

section Presence

variable {root root' : Json}

theorem Field.writePaths_congr (h : SamePresence root root') (field : Field Input) :
    field.writePaths root' = field.writePaths root := by
  have hskipped : field.skipped root' = field.skipped root := by
    cases field with
    | bound field => exact skipsField_congr (h.guarded field.items)
    | aliased alternateKey field => exact skipsField_congr (h.guarded field.items)
    | ledgerSelector member => rfl
    | unbound field => rfl
  rw [writePaths, writePaths, hskipped]

end Presence

section Checks

variable {α : Type} [Build] {root root' : Json} {v v' : FieldView}

mutual

/-- A check only asks whether the field is there. -/
theorem Item.check_congr (h : SameField v v') :
    ∀ item : Item α, item.check v' = item.check v
  | .deprecated => by simp only [Item.check, h.1, h.2]
  | .serverConditional active inners => by simp only [Item.check, firstCheck_congr h inners]
  | .requirement _ => by simp only [Item.check]
  | .modifier _ => by simp only [Item.check]
  | .guard _ => by simp only [Item.check]
  | .defaultTo _ => by simp only [Item.check]
  | .withCustomError _ _ _ => by simp only [Item.check]
  | .ifType _ _ => by simp only [Item.check]
  | .section_ _ => by simp only [Item.check]

theorem firstCheck_congr (h : SameField v v') :
    ∀ items : List (Item α), firstCheck items v' = firstCheck items v
  | [] => by simp only [firstCheck]
  | item :: rest => by
      simp only [firstCheck, Item.check_congr h item, firstCheck_congr h rest]

end

theorem runChecks_congr (h : SameField v v') (items : List (Item α)) :
    runChecks items v' = runChecks items v := by
  simp only [runChecks, Item.check_congr h]

theorem checkAt_congr {field : BoundField Input} (h : SameGuarded field.items root root')
    {key : String} (hkey : (rootChild root' key).present = (rootChild root key).present) :
    field.checkAt key root' = field.checkAt key root := by
  have hchild : SameField (rootChild root key) (rootChild root' key) := ⟨rfl, hkey⟩
  simp only [BoundField.checkAt, skipsField_congr h, runChecks_congr hchild]

/-- The warnings depend on which of the guards' and of the field's own keys are there. -/
theorem Field.check_congr {field : Field Input} (h : field.SameGuarded root root')
    (hown : ∀ key ∈ field.ownKeys,
      (rootChild root' key).present = (rootChild root key).present) :
    field.check root' = field.check root := by
  cases field with
  | bound field => exact checkAt_congr h (hown _ (List.mem_singleton_self _))
  | aliased alternateKey field =>
      have hkey := hown field.key (by simp [ownKeys])
      have halternate := hown alternateKey (by simp [ownKeys])
      simp only [Field.check, checkAliased, halternate]
      split
      · exact checkAt_congr h halternate
      · exact checkAt_congr h hkey
  | ledgerSelector member => rfl
  | unbound field =>
      have hchild : SameField (rootChild root field.key) (rootChild root' field.key) :=
        ⟨rfl, hown _ (List.mem_singleton_self _)⟩
      exact runChecks_congr hchild field.items

end Checks

/-! ## One field -/

theorem outcomeAt_within {field : BoundField Input} (h : AllModifiers Frames field.items)
    {allowed : List Path} {key : String} {root : Json}
    (hcovers : skipsField field.items root = false →
      CoversPaths (descend (.key key) allowed) (itemsPaths field.items)) :
    PartsWithin (descend (.key key) allowed) (root.member? key)
      (field.outcomeAt key root).value := by
  unfold BoundField.outcomeAt
  cases hskipped : skipsField field.items root with
  | true => exact .refl _ _
  | false => exact (runProcessors_moves h (rootChild root key)).2.mono (hcovers hskipped)

variable [Build] [LibXrpl]

namespace Field

/-- The value left under the key is the one that was there, rewritten. -/
theorem outcome_within {field : Field Input} (h : field.ModifiersFrame) (root : Json) :
    PartsWithin (descend (.key (field.outcome root).target) (field.writePaths root))
      (root.member? (field.outcome root).target) (field.outcome root).value := by
  cases field with
  | bound field =>
      exact outcomeAt_within h fun hskipped =>
        coversPaths_modifierPaths (.bound field) hskipped (List.mem_singleton_self _)
  | aliased alternateKey field =>
      have hat {key : String} (hkey : key ∈ ownKeys (.aliased alternateKey field)) :
          PartsWithin (descend (.key key) (writePaths (.aliased alternateKey field) root))
            (root.member? key) (field.outcomeAt key root).value :=
        outcomeAt_within h fun hskipped =>
          coversPaths_modifierPaths (.aliased alternateKey field) hskipped hkey
      have halternate := hat (show alternateKey ∈ _ by simp [ownKeys])
      have hkey := hat (show field.key ∈ _ by simp [ownKeys])
      simp only [outcome, outcomeAliased]
      split
      · split
        · exact .refl _ _
        · exact halternate
      · exact hkey
  | ledgerSelector member => exact .refl _ _
  | unbound field =>
      exact (runProcessors_moves h (rootChild root field.key)).2.mono
        (coversPaths_modifierPaths (.unbound field) rfl (List.mem_singleton_self _))

theorem parseOne_rewrites {field : Field Input} (h : field.ModifiersFrame) (out : Input)
    (root : Json) :
    RewrittenWithin (field.writePaths root) root (endState (field.parseOne out) root) := by
  have hput := RewrittenWithin.putChild (field.outcome_within h root)
  rw [endState, parseOne_eq, Outcome.run]
  cases (field.outcome root).result <;> exact hput

end Field

/-! ## A whole parse -/

namespace TypedSpec

variable [InputAggregate Input] {spec : TypedSpec Input}

/-- The paths at or below which a parse of the request may write. -/
def writePaths (spec : TypedSpec Input) (root : Json) : List Path :=
  (effectiveFields spec.fields).flatMap (·.writePaths root)

omit [LibXrpl] in
theorem check_congr {root root' : Json} (h : SamePresence root root') :
    spec.check root' = spec.check root := by
  have hfield (f : Field Input) := f.check_congr (h.fieldGuarded f) fun key _ => h key
  simp only [check, hfield]

theorem parse_rewrites (hframes : ∀ f ∈ spec.fields, f.ModifiersFrame) :
    Moves (fun root root' => RewrittenWithin (spec.writePaths root) root root') spec.parse := by
  unfold parse
  refine .foldlM (fun root => .same root) (fun root root' root'' h h' => ?_)
    (fun out f hf root => ?_) _
  · refine RewrittenWithin.trans h ?_
    have hpaths : spec.writePaths root' = spec.writePaths root := by
      simp only [writePaths, Field.writePaths_congr h.samePresence]
    rwa [hpaths] at h'
  · refine (f.parseOne_rewrites (hframes f (mem_of_mem_effectiveFields hf)) out root).mono ?_
    exact .of_subset fun path hpath => List.mem_flatMap.mpr ⟨f, hf, hpath⟩

/-! ### What that means for the request -/

/-- What a parse leaves of a request, whether it returns or fails. -/
structure LeavesFrame (spec : TypedSpec Input) (root : Json) : Prop where
  /-- At every level the same keys in the same order, and arrays of the same length. -/
  shape : (endState spec.parse root).shape = root.shape
  /-- What stands under a key to which no field is bound. -/
  unbound : ∀ key, (∀ f ∈ effectiveFields spec.fields, f.memberName?.isSome = true →
    key ∉ f.ownKeys) → (endState spec.parse root).member? key = root.member? key
  /-- What stands under the keys of a field that is skipped. -/
  skipped : ∀ f ∈ effectiveFields spec.fields, f.skipped root = true → ∀ key ∈ f.ownKeys,
    (endState spec.parse root).member? key = root.member? key
  /-- A leaf that has changed belongs to a field with a modifier, and is a scalar. -/
  leaves : ∀ path leaf, root.at? path = some leaf → leaf.isLeaf = true →
    (endState spec.parse root).at? path ≠ some leaf →
      (∃ f ∈ effectiveFields spec.fields, f.skipped root = false ∧ ∃ key ∈ f.ownKeys,
        ∃ q ∈ f.modifierPaths, .key key :: q <+: path) ∧
      ∃ leaf', (endState spec.parse root).at? path = some leaf' ∧ leaf'.isScalar = true
  check : spec.check (endState spec.parse root) = spec.check root
  /-- A request that is no object stays as it is, and counts as the empty object. -/
  notObject : (∀ members, root ≠ .object members) → endState spec.parse root = root ∧
    answer (spec.parse root) = answer (spec.parse (.object [])) ∧
    spec.check root = spec.check (.object [])

omit [Build] [LibXrpl] in
theorem mem_writePaths {root : Json} {path : Path} : path ∈ spec.writePaths root ↔
    ∃ f ∈ effectiveFields spec.fields, f.skipped root = false ∧ ∃ key ∈ f.ownKeys,
      ∃ q ∈ f.modifierPaths, path = .key key :: q := by
  simp only [writePaths, List.mem_flatMap, Field.mem_writePaths]

/-- A key below which nothing may be written. -/
theorem member?_endState (hframes : ∀ f ∈ spec.fields, f.ModifiersFrame) {root : Json}
    {key : String} (hkey : ∀ f ∈ effectiveFields spec.fields, f.skipped root = false →
      f.rewrites = true → key ∉ f.ownKeys) :
    (endState spec.parse root).member? key = root.member? key := by
  have hnone : descend (.key key) (spec.writePaths root) = [] := by
    apply List.eq_nil_iff_forall_not_mem.mpr
    intro path hpath
    rcases mem_descend.mp hpath with ⟨-, hnil⟩ | hcons
    · obtain ⟨_, _, _, _, _, _, _, heq⟩ := mem_writePaths.mp hnil
      cases heq
    · obtain ⟨f, hf, hskipped, key', hkey', q, hq, heq⟩ := mem_writePaths.mp hcons
      obtain ⟨⟨⟩, -⟩ := List.cons.inj heq
      refine hkey f hf hskipped ?_ hkey'
      rw [Field.rewrites, Bool.not_eq_true', List.isEmpty_eq_false_iff]
      exact List.ne_nil_of_mem hq
  have hpart := (parse_rewrites hframes root).member? key
  rw [hnone] at hpart
  exact hpart.eq

omit [Build] [LibXrpl] in
theorem samePresence_of_not_object {root : Json} (h : ∀ members, root ≠ .object members) :
    SamePresence (.object []) root ∧ ∀ key, root.member? key = none := by
  have hnone : ∀ key, root.member? key = none := by
    intro key
    cases root <;> first | rfl | exact absurd rfl (h _)
  exact ⟨fun key => by rw [hnone key]; rfl, hnone⟩

/-- Nothing is written to a request that is no object. -/
theorem endState_parse_of_not_object {root : Json} (h : ∀ members, root ≠ .object members) :
    endState spec.parse root = root := by
  have hmoves : Moves (fun root root' : Json =>
      (∀ members, root ≠ .object members) → root' = root) spec.parse := by
    unfold parse
    refine .foldlM (fun _ _ => rfl) (fun s s' s'' hstep hrest hs => ?_) (fun out f _ root => ?_) _
    · obtain rfl := hstep hs
      exact hrest hs
    · intro hroot
      have hput (value : Option Json) (key : String) : root.putChild value key = root := by
        cases root <;> first | rfl | exact absurd rfl (hroot _)
      rw [endState, f.parseOne_eq, Outcome.run]
      cases (f.outcome root).result <;> exact hput _ _
  exact hmoves root h

/-- Fields bound to no member carry no modifier. -/
def onlyBoundRewrite (fields : List (Field Input)) : Bool :=
  fields.all fun f => f.memberName?.isSome || !f.rewrites

theorem leavesFrame (hframes : ∀ f ∈ spec.fields, f.ModifiersFrame)
    (hindependent : independent spec.fields = true)
    (hbound : onlyBoundRewrite spec.fields = true) (root : Json) : spec.LeavesFrame root := by
  have hrun := parse_rewrites hframes root
  refine ⟨hrun.shape, fun key hkey => ?_, fun f hf hskipped key hkey => ?_,
    fun path leaf hleaf hisLeaf hne => ?_, check_congr hrun.samePresence, fun hroot => ?_⟩
  · refine member?_endState hframes fun f hf _ hrewrites => hkey f hf ?_
    have hall := List.all_eq_true.mp hbound f (mem_of_mem_effectiveFields hf)
    rwa [hrewrites, Bool.not_true, Bool.or_false] at hall
  · refine member?_endState hframes fun g hg hnot hrewrites hkey' => ?_
    have hne : g ≠ f := by
      rintro rfl
      rw [hskipped] at hnot
      cases hnot
    have hapart := (pairwise_apart hindependent).forall hg hf hne
    exact hapart (.inl hrewrites) key hkey' hkey
  · have hpart := hrun.at? path
    rw [hleaf] at hpart
    generalize (endState spec.parse root).at? path = part at hpart hne
    cases hpart with
    | @some _ leaf' hpart =>
        obtain ⟨hallowed, hscalar⟩ := hpart.of_leaf hisLeaf fun heq => hne (by rw [heq])
        obtain ⟨q, hq, hprefix⟩ := nil_mem_descendAll.mp hallowed
        obtain ⟨f, hf, hskipped, key, hkey, q, hmodifier, rfl⟩ := mem_writePaths.mp hq
        exact ⟨⟨f, hf, hskipped, key, hkey, q, hmodifier, hprefix⟩, leaf', rfl, hscalar⟩
  · obtain ⟨hsame, hnone⟩ := samePresence_of_not_object hroot
    have houtcomes : spec.outcomes root = spec.outcomes (.object []) :=
      List.map_congr_left fun f _ =>
        Field.outcome_congr (hsame.fieldGuarded f) fun key _ => hnone key
    refine ⟨?_, ?_, check_congr hsame⟩
    · exact endState_parse_of_not_object hroot
    · rw [answer_parse hindependent, answer_parse hindependent, houtcomes]

end TypedSpec

end RpcSpec.Dsl
