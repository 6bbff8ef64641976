import RpcSpec.Dsl.UnreadKeys
import RpcSpec.Dsl.Completeness
import RpcSpec.Dsl.HexText
set_option autoImplicit false

/-!
# Fields ruled out by a guard

While the key of a guard is there, its field does not count: neither what stands under
the field's own keys nor whether anything does makes a difference.  The exception is a
field with two spellings, which is refused where both are there before its guards are
asked.

`indistinguishable_iff` says exactly when two such requests are told apart: just one of
them gives both spellings, and nothing before the field refuses it anyway.
-/

namespace RpcSpec.Dsl

open RpcSpec.Foundation FieldView

variable {Input : Type} {α : Type}

/-! ## Guards in force -/

mutual

/-- The item is a guard on the key, in force for the server that is built. -/
def Item.activelyGuards (key : String) : Item α → Bool
  | .guard (.ifAbsent guardKey) => guardKey == key
  | .serverConditional active inners => active && anyActivelyGuards key inners
  | _ => false

/-- Some item of the list skips the field while `key` is present. -/
def anyActivelyGuards (key : String) : List (Item α) → Bool
  | [] => false
  | item :: rest => item.activelyGuards key || anyActivelyGuards key rest

end

section Items

variable {key : String} {root : Json}

mutual

/-- Where the key is there the guard skips. -/
theorem Item.skips_of_activelyGuards (hkey : (rootChild root key).present = true) :
    ∀ item : Item α, item.activelyGuards key = true → item.skips root = true
  | .guard (.ifAbsent guardKey), h => by
      obtain rfl : guardKey = key := by simpa [Item.activelyGuards] using h
      simpa only [Item.skips, Guard.skips] using hkey
  | .guard .never, h => by simp [Item.activelyGuards] at h
  | .serverConditional active inners, h => by
      simp only [Item.activelyGuards, Bool.and_eq_true] at h
      simp only [Item.skips, h.1, skipsAny_of_activelyGuards hkey inners h.2, Bool.and_self]
  | .requirement _, h => by simp [Item.activelyGuards] at h
  | .modifier _, h => by simp [Item.activelyGuards] at h
  | .deprecated, h => by simp [Item.activelyGuards] at h
  | .defaultTo _, h => by simp [Item.activelyGuards] at h
  | .withCustomError _ _ _, h => by simp [Item.activelyGuards] at h
  | .ifType _ _, h => by simp [Item.activelyGuards] at h
  | .section_ _, h => by simp [Item.activelyGuards] at h

/-- An active guard skips the field while its key is present. -/
theorem skipsAny_of_activelyGuards (hkey : (rootChild root key).present = true) :
    ∀ items : List (Item α), anyActivelyGuards key items = true →
      skipsAny root items = true
  | [], h => by simp [anyActivelyGuards] at h
  | item :: rest, h => by
      simp only [anyActivelyGuards, Bool.or_eq_true] at h
      rw [skipsAny, Bool.or_eq_true]
      exact h.imp (Item.skips_of_activelyGuards hkey item)
        (skipsAny_of_activelyGuards hkey rest)

end

mutual

/-- A guard in force is a guard. -/
theorem Item.guardsKey_of_activelyGuards :
    ∀ item : Item α, item.activelyGuards key = true → item.guardsKey key = true
  | .guard (.ifAbsent guardKey), h => by simpa [Item.activelyGuards, Item.guardsKey] using h
  | .guard .never, h => by simp [Item.activelyGuards] at h
  | .serverConditional active inners, h => by
      simp only [Item.activelyGuards, Bool.and_eq_true] at h
      simpa only [Item.guardsKey] using anyGuardsKey_of_activelyGuards inners h.2
  | .requirement _, h => by simp [Item.activelyGuards] at h
  | .modifier _, h => by simp [Item.activelyGuards] at h
  | .deprecated, h => by simp [Item.activelyGuards] at h
  | .defaultTo _, h => by simp [Item.activelyGuards] at h
  | .withCustomError _ _ _, h => by simp [Item.activelyGuards] at h
  | .ifType _ _, h => by simp [Item.activelyGuards] at h
  | .section_ _, h => by simp [Item.activelyGuards] at h

theorem anyGuardsKey_of_activelyGuards :
    ∀ items : List (Item α), anyActivelyGuards key items = true →
      anyGuardsKey key items = true
  | [], h => by simp [anyActivelyGuards] at h
  | item :: rest, h => by
      simp only [anyActivelyGuards, Bool.or_eq_true] at h
      rw [anyGuardsKey, Bool.or_eq_true]
      exact h.imp (Item.guardsKey_of_activelyGuards item)
        (anyGuardsKey_of_activelyGuards rest)

end

/-- Both readings of the guards of a list agree. -/
theorem skipsAny_eq (items : List (Item α)) : skipsAny root items = skipsField items root := by
  induction items with
  | nil => simp [skipsAny, skipsField]
  | cons item rest ih => rw [skipsAny, skipsField, List.any_cons, ih, skipsField]

theorem skipsField_of_activelyGuards {items : List (Item α)}
    (hkey : (rootChild root key).present = true) (h : anyActivelyGuards key items = true) :
    skipsField items root = true := by
  have hany := skipsAny_of_activelyGuards hkey items h
  rwa [skipsAny_eq] at hany

end Items

/-! ## A field that is ruled out -/

/-- What `AliasedField::parseInto` fails with where both spellings are there. -/
def tooManyFields : Failure :=
  unexpected XrpldError.rpcInvalidParams "Too many fields provided."

/-- `AliasedField::parseInto` at a request. -/
theorem parseAliased_apply (alternateKey : String) (field : BoundField Input) (out : Input)
    (root : Json) : parseAliased alternateKey field out root =
      if (rootChild root alternateKey).present then
        if (rootChild root field.key).present then .error tooManyFields root
        else field.parseAt alternateKey out root
      else field.parseAt field.key out root := by
  change (if (rootChild root alternateKey).present then
    if (rootChild root field.key).present then throw tooManyFields
    else field.parseAt alternateKey out
    else field.parseAt field.key out : EStateM Failure Json Input) root = _
  cases (rootChild root alternateKey).present with
  | false => rfl
  | true => cases (rootChild root field.key).present <;> rfl

namespace Field

/-- A guard on the key, in force, stands among the items of the bound field. -/
def activelyGuards (key : String) : Field Input → Bool
  | .bound field => anyActivelyGuards key field.items
  | .aliased _ field => anyActivelyGuards key field.items
  | .ledgerSelector _ => false
  | .unbound _ => false

/-- Both spellings of the field are there. -/
def twiceSpelled (root : Json) : Field Input → Bool
  | .aliased alternateKey field =>
      (rootChild root alternateKey).present && (rootChild root field.key).present
  | .bound _ => false
  | .ledgerSelector _ => false
  | .unbound _ => false

theorem key_mem_ownKeys (field : Field Input) : field.key ∈ field.ownKeys := by
  cases field <;> simp [key, ownKeys]

/-- Presence alone decides whether a field is spelled twice. -/
theorem twiceSpelled_congr {root root' : Json} (h : SamePresence root root')
    (field : Field Input) : field.twiceSpelled root' = field.twiceSpelled root := by
  cases field with
  | aliased alternateKey field =>
      simp only [twiceSpelled, present_congr h]
  | bound field => rfl
  | ledgerSelector member => rfl
  | unbound field => rfl

theorem guardsKey_of_activelyGuards {key : String} {field : Field Input}
    (h : field.activelyGuards key = true) : field.guardsKey key = true := by
  cases field with
  | bound field => exact anyGuardsKey_of_activelyGuards field.items h
  | aliased alternateKey field => exact anyGuardsKey_of_activelyGuards field.items h
  | ledgerSelector member => cases h
  | unbound field => cases h

variable {guardKey : String} {field : Field Input} {root : Json}

/-- A skipped field returns what it was given. -/
theorem parseAt_of_skips {field : BoundField Input} (h : skipsField field.items root = true)
    (key : String) (out : Input) : field.parseAt key out root = .ok out root := by
  change (if skipsField field.items root then pure out else _ : EStateM Failure Json Input) root
    = _
  rw [h]
  rfl

/-- A field ruled out returns the `Input` as it is, unless it is spelled twice. -/
theorem parseOne_of_activelyGuards [Build] [LibXrpl]
    (hguard : field.activelyGuards guardKey = true)
    (hpresent : (rootChild root guardKey).present = true) (out : Input) :
    field.parseOne out root =
      if field.twiceSpelled root then .error tooManyFields root else .ok out root := by
  cases field with
  | bound field =>
      exact parseAt_of_skips (skipsField_of_activelyGuards hpresent hguard) field.key out
  | aliased alternateKey field =>
      have hskips := skipsField_of_activelyGuards hpresent hguard
      rw [parseOne, parseAliased_apply]
      cases halternate : (rootChild root alternateKey).present with
      | false => simp [twiceSpelled, halternate, parseAt_of_skips hskips]
      | true =>
          cases hkey : (rootChild root field.key).present with
          | false => simp [twiceSpelled, hkey, parseAt_of_skips hskips]
          | true => simp [twiceSpelled, halternate, hkey]
  | ledgerSelector member => cases hguard
  | unbound field => cases hguard

/-- A field that is spelled twice is refused before anything else is done. -/
theorem parseOne_of_twiceSpelled [Build] [LibXrpl] (h : field.twiceSpelled root = true)
    (out : Input) : field.parseOne out root = .error tooManyFields root := by
  cases field with
  | aliased alternateKey field =>
      simp only [twiceSpelled, Bool.and_eq_true] at h
      rw [parseOne, parseAliased_apply, if_pos h.1, if_pos h.2]
  | bound field => cases h
  | ledgerSelector member => cases h
  | unbound field => cases h

/-- A guarded field warns of nothing while its guard's key is present. -/
theorem check_of_activelyGuards [Build] (hguard : field.activelyGuards guardKey = true)
    (hpresent : (rootChild root guardKey).present = true) : field.check root = [] := by
  cases field with
  | bound field =>
      simp [check, BoundField.checkAt, skipsField_of_activelyGuards hpresent hguard]
  | aliased alternateKey field =>
      simp [check, checkAliased, BoundField.checkAt,
        skipsField_of_activelyGuards hpresent hguard]
  | ledgerSelector member => cases hguard
  | unbound field => cases hguard

end Field

/-! ## Runs past it -/

section Runs

/-- The keys stay there, and while the guard's key is what stands under the others stays. -/
def KeepsBehind (guardKey : String) (keys : List String) (root root' : Json) : Prop :=
  SamePresence root root' ∧
    ((rootChild root guardKey).present = true → KeepsUnder keys root root')

theorem KeepsBehind.refl (guardKey : String) (keys : List String) (root : Json) :
    KeepsBehind guardKey keys root root := ⟨.refl root, fun _ => .refl keys root⟩

theorem KeepsBehind.trans {guardKey : String} {keys : List String} (root root' root'' : Json)
    (h : KeepsBehind guardKey keys root root') (h' : KeepsBehind guardKey keys root' root'') :
    KeepsBehind guardKey keys root root'' := by
  refine ⟨h.1.trans h'.1, fun hpresent => .trans root root' root'' (h.2 hpresent) (h'.2 ?_)⟩
  rwa [present_congr h.1]

variable [Build] [LibXrpl]

/-- The fields in turn, up to the first that fails. -/
def parseFields (fields : List (Field Input)) (out : Input) : EStateM Failure Json Input :=
  fields.foldlM (fun out field => field.parseOne out) out

theorem samePresence_parseOne (field : Field Input) (out : Input) :
    Moves SamePresence (field.parseOne out) := by
  intro root
  have hput := samePresence_putChild root (field.outcome root).value (field.outcome root).target
  simp only [endState, field.parseOne_eq, Outcome.run]
  cases (field.outcome root).result <;> exact hput

theorem samePresence_parseFields (fields : List (Field Input)) (out : Input) :
    Moves SamePresence (parseFields fields out) :=
  .foldlM .refl (fun _ _ _ => .trans) (fun out field _ => samePresence_parseOne field out) out

/-- A step of a field ruled out keeps everything. -/
theorem keepsBehind_of_activelyGuards {guardKey : String} {field : Field Input}
    (hguard : field.activelyGuards guardKey = true) (keys : List String) (out : Input) :
    Moves (KeepsBehind guardKey keys) (field.parseOne out) := by
  refine fun root => ⟨samePresence_parseOne field out root, fun hpresent => ?_⟩
  have hstep := Field.parseOne_of_activelyGuards hguard hpresent out
  have hstate : endState (field.parseOne out) root = root := by
    rw [endState, hstep]
    cases field.twiceSpelled root <;> rfl
  rw [hstate]
  exact .refl keys root

/-- A run with a field in its midst that fails, whatever the fields before it do. -/
theorem answer_parseFields_failing {field : Field Input} {before after : List (Field Input)}
    {failure : Failure} {root : Json} (h : ∀ out state, SamePresence root state →
      field.parseOne out state = .error failure state) (out : Input) :
    answer (parseFields (before ++ field :: after) out root) =
      answer (parseFields before out root) >>= fun _ => .error failure := by
  have hmoves := samePresence_parseFields before out root
  simp only [parseFields, List.foldlM_append, List.foldlM_cons] at hmoves ⊢
  change answer (EStateM.bind _ (fun out => EStateM.bind _ _) root) = _
  unfold EStateM.bind
  cases hrun : before.foldlM (fun out field => field.parseOne out) out root with
  | error _ _ => rfl
  | ok out' state =>
      rw [endState_of_ok hrun] at hmoves
      simp only [h out' state hmoves]
      rfl

/-- A run with a field ruled out in its midst: where the field is spelled twice it fails
once it gets there, else it runs as if the field were not in it. -/
theorem answer_parseFields_guarded {guardKey : String} {field : Field Input}
    (hguard : field.activelyGuards guardKey = true) (before after : List (Field Input))
    (out : Input) {root : Json} (hpresent : (rootChild root guardKey).present = true) :
    answer (parseFields (before ++ field :: after) out root) =
      if field.twiceSpelled root then
        answer (parseFields before out root) >>= fun _ => .error tooManyFields
      else answer (parseFields (before ++ after) out root) := by
  have hmoves := samePresence_parseFields before out root
  simp only [parseFields, List.foldlM_append, List.foldlM_cons] at hmoves ⊢
  change answer (EStateM.bind _ (fun out => EStateM.bind _ _) root) =
    if field.twiceSpelled root then _ else answer (EStateM.bind _ _ root)
  unfold EStateM.bind
  cases hrun : before.foldlM (fun out field => field.parseOne out) out root with
  | error failure state => cases field.twiceSpelled root <;> rfl
  | ok out' state =>
      rw [endState_of_ok hrun] at hmoves
      have hguarded : (rootChild state guardKey).present = true := by
        rwa [present_congr hmoves]
      simp only [Field.parseOne_of_activelyGuards hguard hguarded,
        Field.twiceSpelled_congr hmoves]
      cases field.twiceSpelled root <;> rfl

end Runs

/-! ## Irrelevance -/

namespace TypedSpec

variable [InputAggregate Input] [Build] [LibXrpl]

/-- Two requests the spec does not tell apart, and what stands under the keys stays. -/
structure Indistinguishable (spec : TypedSpec Input) (keys : List String) (root root' : Json) :
    Prop where
  result : answer (spec.parse root') = answer (spec.parse root)
  warnings : spec.check root' = spec.check root
  kept : KeepsUnder keys root (endState spec.parse root)
  kept' : KeepsUnder keys root' (endState spec.parse root')

/-- A bound field of the spec with a guard in force, whose keys no other field that is
dispatched and no guard reads. -/
structure GuardedAlone (spec : TypedSpec Input) (field : Field Input) (guardKey : String) :
    Prop where
  mem : field ∈ spec.fields
  guard : field.activelyGuards guardKey = true
  own : ∀ f ∈ effectiveFields spec.fields,
    f = field ∨ ∀ key ∈ field.ownKeys, key ∉ f.ownKeys
  guards : ∀ f ∈ effectiveFields spec.fields,
    ∀ key ∈ field.ownKeys, f.guardsKey key = false

/-- Whatever the field does the request is refused alike: by a field before it, or by
another with the error of a field spelled twice. -/
def RefusedAnyway (spec : TypedSpec Input) (field : Field Input) (root : Json) : Prop :=
  ∃ before after, effectiveFields spec.fields = before ++ field :: after ∧
    ((∃ failure, answer (parseFields before InputAggregate.init root) = .error failure) ∨
      answer (parseFields (before ++ after) InputAggregate.init root) = .error tooManyFields)

section Guarded

variable {spec : TypedSpec Input} {field : Field Input} {guardKey : String}

namespace GuardedAlone

omit [Build] [LibXrpl] in
/-- The field is not overridden: a later field with its key would read that key. -/
theorem mem_effectiveFields (h : spec.GuardedAlone field guardKey) :
    field ∈ effectiveFields spec.fields := by
  have hkey : field.key ∈ (effectiveFields spec.fields).map Field.key := by
    rw [effectiveFields_eq_lastWins, mem_map_key_lastWins]
    exact List.mem_map_of_mem h.mem
  obtain ⟨f, hf, hfkey⟩ := List.mem_map.mp hkey
  rcases h.own f hf with rfl | hapart
  · exact hf
  · exact absurd (hfkey ▸ f.key_mem_ownKeys) (hapart _ field.key_mem_ownKeys)

omit [Build] [LibXrpl] in
theorem guardKey_not_mem (h : spec.GuardedAlone field guardKey) :
    guardKey ∉ field.ownKeys := by
  intro hmem
  have hasks := Field.guardsKey_of_activelyGuards h.guard
  rw [h.guards field h.mem_effectiveFields guardKey hmem] at hasks
  cases hasks

omit [Build] [LibXrpl] in
/-- The other fields that are dispatched ignore its keys. -/
theorem ignores (h : spec.GuardedAlone field guardKey) {before after : List (Field Input)}
    (heq : effectiveFields spec.fields = before ++ field :: after) :
    ∀ f ∈ before ++ after, f.Ignores field.ownKeys := by
  intro f hf
  have hmem : f ∈ effectiveFields spec.fields := by
    rw [heq]
    rcases List.mem_append.mp hf with hf | hf <;> simp [hf]
  have hne : f ≠ field := by
    rintro rfl
    have hnodup : ((effectiveFields spec.fields).map Field.key).Nodup := by
      rw [effectiveFields_eq_lastWins]
      exact nodup_map_key_lastWins _
    exact (List.nodup_middle.mp (heq ▸ hnodup.of_map)).notMem hf
  exact ⟨(h.own f hmem).resolve_left hne, h.guards f hmem⟩

omit [LibXrpl] in
/-- The warnings do not depend on what stands under the guarded field's keys. -/
theorem check_eq (h : spec.GuardedAlone field guardKey) {root root' : Json}
    (hpresent : (rootChild root guardKey).present = true)
    (hpresent' : (rootChild root' guardKey).present = true)
    (hoff : AgreeOff field.ownKeys root root') : spec.check root' = spec.check root := by
  obtain ⟨before, after, heq⟩ := List.append_of_mem h.mem_effectiveFields
  have hothers := h.ignores heq
  have hbefore (f : Field Input) (hf : f ∈ before) : f.check root' = f.check root :=
    (hothers f (by simp [hf])).check_eq hoff
  have hafter (f : Field Input) (hf : f ∈ after) : f.check root' = f.check root :=
    (hothers f (by simp [hf])).check_eq hoff
  simp only [check, heq, List.flatMap_append, List.flatMap_cons,
    Field.check_of_activelyGuards h.guard hpresent,
    Field.check_of_activelyGuards h.guard hpresent',
    List.flatMap_congr hbefore, List.flatMap_congr hafter]

/-- The members of the guarded field stay as they were sent. -/
theorem kept (h : spec.GuardedAlone field guardKey) {root : Json}
    (hpresent : (rootChild root guardKey).present = true) :
    KeepsUnder field.ownKeys root (endState spec.parse root) := by
  obtain ⟨before, after, heq⟩ := List.append_of_mem h.mem_effectiveFields
  have hrun : Moves (KeepsBehind guardKey field.ownKeys) spec.parse := by
    unfold parse
    refine .foldlM (.refl guardKey field.ownKeys) .trans ?_ _
    intro out f hf
    rw [heq, List.mem_append, List.mem_cons] at hf
    have hother (hf : f ∈ before ++ after) : Moves (KeepsBehind guardKey field.ownKeys)
        (f.parseOne out) := fun root =>
      ⟨samePresence_parseOne f out root, fun _ => (h.ignores heq f hf).keeps out root⟩
    rcases hf with hf | rfl | hf
    · exact hother (List.mem_append_left after hf)
    · exact keepsBehind_of_activelyGuards h.guard _ out
    · exact hother (List.mem_append_right before hf)
  exact (hrun root).2 hpresent

end GuardedAlone

omit [InputAggregate Input] in
/-- Where the fields before fail, so do they with those after. -/
theorem answer_parseFields_append_of_error {before : List (Field Input)} {out : Input}
    {root : Json} {failure : Failure}
    (h : answer (parseFields before out root) = .error failure) (after : List (Field Input)) :
    answer (parseFields (before ++ after) out root) = .error failure := by
  simp only [parseFields, List.foldlM_append] at h ⊢
  change answer (EStateM.bind _ _ root) = _
  unfold EStateM.bind
  cases hrun : before.foldlM (fun out field => field.parseOne out) out root with
  | ok out' state =>
      rw [hrun] at h
      cases h
  | error failure' state =>
      rw [hrun] at h
      exact h

omit [InputAggregate Input] [Build] [LibXrpl] in
/-- One of two ways to fail that both come after `x`, or not. -/
theorem failsLater_eq_iff {α β : Type} {x : Except Failure α} {y : Except Failure β}
    (hxy : ∀ failure, x = .error failure → y = .error failure) (late : Failure)
    (twice twice' : Bool) :
    (if twice' then x >>= fun _ => .error late else y) =
        (if twice then x >>= fun _ => .error late else y) ↔
      twice' = twice ∨ (∃ failure, x = .error failure) ∨ y = .error late := by
  cases x with
  | error failure =>
      rw [hxy failure rfl]
      have hbind : ((Except.error failure : Except Failure α) >>= fun _ =>
          (Except.error late : Except Failure β)) = .error failure := rfl
      simp [hbind]
  | ok a =>
      have hbind : ((Except.ok a : Except Failure α) >>= fun _ =>
          (Except.error late : Except Failure β)) = .error late := rfl
      rw [hbind]
      cases twice <;> cases twice' <;> simp [eq_comm]

namespace GuardedAlone

theorem result_eq_iff (h : spec.GuardedAlone field guardKey) {before after : List (Field Input)}
    (heq : effectiveFields spec.fields = before ++ field :: after) {root root' : Json}
    (hpresent : (rootChild root guardKey).present = true)
    (hpresent' : (rootChild root' guardKey).present = true)
    (hoff : AgreeOff field.ownKeys root root') :
    answer (spec.parse root') = answer (spec.parse root) ↔
      field.twiceSpelled root' = field.twiceSpelled root ∨
        (∃ failure, answer (parseFields before InputAggregate.init root) = .error failure) ∨
        answer (parseFields (before ++ after) InputAggregate.init root) =
          .error tooManyFields := by
  have hothers := h.ignores heq
  have halike (fields : List (Field Input))
      (hfields : ∀ f ∈ fields, f.Ignores field.ownKeys) :
      answer (parseFields fields InputAggregate.init root') =
        answer (parseFields fields InputAggregate.init root) :=
    have hlock : Lockstep (AgreeOff field.ownKeys) (parseFields fields InputAggregate.init) :=
      .foldlM (fun out f hf => (hfields f hf).lockstep out) _
    (hlock root root' hoff).1.symm
  have hanswer {root : Json} (hpresent : (rootChild root guardKey).present = true) :
      answer (spec.parse root) = if field.twiceSpelled root then
        answer (parseFields before InputAggregate.init root) >>= fun _ => .error tooManyFields
      else answer (parseFields (before ++ after) InputAggregate.init root) := by
    rw [← answer_parseFields_guarded h.guard before after _ hpresent, parse, heq]
    rfl
  rw [hanswer hpresent, hanswer hpresent', halike _ hothers,
    halike before fun f hf => hothers f (List.mem_append_left after hf)]
  exact failsLater_eq_iff (fun failure hfailure =>
    answer_parseFields_append_of_error hfailure after) tooManyFields _ _

end GuardedAlone

/-- While the guard's key is there the field is irrelevant just where the two requests
spell it alike or are refused anyway. -/
theorem indistinguishable_iff (h : spec.GuardedAlone field guardKey) {root root' : Json}
    (hpresent : (rootChild root guardKey).present = true)
    (hoff : AgreeOff field.ownKeys root root') :
    spec.Indistinguishable field.ownKeys root root' ↔
      field.twiceSpelled root' = field.twiceSpelled root ∨ spec.RefusedAnyway field root := by
  have hpresent' : (rootChild root' guardKey).present = true := by
    rwa [rootChild_congr (hoff guardKey h.guardKey_not_mem)]
  obtain ⟨before, after, heq⟩ := List.append_of_mem h.mem_effectiveFields
  constructor
  · intro hsame
    have hresult := (h.result_eq_iff heq hpresent hpresent' hoff).mp hsame.result
    exact hresult.imp_right fun hrefused => ⟨before, after, heq, hrefused⟩
  · intro hcase
    refine ⟨?_, h.check_eq hpresent hpresent' hoff, h.kept hpresent, h.kept hpresent'⟩
    rcases hcase with htwice | ⟨before, after, heq, hrefused⟩
    · exact (h.result_eq_iff heq hpresent hpresent' hoff).mpr (.inl htwice)
    · exact (h.result_eq_iff heq hpresent hpresent' hoff).mpr (.inr hrefused)

end Guarded

end TypedSpec

namespace ToggleInput

/-- A field with two spellings behind a guard. -/
def kAliasedSpec : TypedSpec ToggleInput :=
  ⟨[alias_ "alt" "strict" strictMember [ifAbsent "guard"] jsonBool], by rfl⟩

/-- A field with two spellings and a guard. -/
def aliasedField : Field ToggleInput :=
  alias_ "alt" "strict" strictMember [ifAbsent "guard"] jsonBool

theorem kAliasedSpec_guardedAlone : kAliasedSpec.GuardedAlone aliasedField "guard" where
  mem := List.mem_singleton_self _
  guard := by simp [aliasedField, alias_, ifAbsent, Field.activelyGuards, anyActivelyGuards,
    Item.activelyGuards]
  own := by
    intro f hf
    exact .inl (List.mem_singleton.mp hf)
  guards := by
    intro f hf
    obtain rfl : f = aliasedField := List.mem_singleton.mp hf
    simp [aliasedField, alias_, ifAbsent, Field.ownKeys, Field.guardsKey, anyGuardsKey,
      Item.guardsKey]

/-- The request that holds the guard's key alone. -/
def onlyGuard : Json := .object [("guard", .bool true)]

/-- The request that holds the guard's key and both spellings. -/
def bothSpellings : Json :=
  .object [("guard", .bool true), ("alt", .bool true), ("strict", .bool true)]

theorem agreeOff_bothSpellings : AgreeOff aliasedField.ownKeys onlyGuard bothSpellings := by
  intro key hkey
  simp only [aliasedField, alias_, Field.ownKeys, List.mem_cons, List.not_mem_nil, or_false,
    not_or] at hkey
  have hstrict : (key == "strict") = false := beq_eq_false_iff_ne.mpr hkey.1
  have halternate : (key == "alt") = false := beq_eq_false_iff_ne.mpr hkey.2
  simp only [onlyGuard, bothSpellings, Json.member?, List.lookup_cons, List.lookup_nil, hstrict,
    halternate]

theorem onlyGuard_indistinguishable_iff :
    @TypedSpec.Indistinguishable _ _ .clio hexLib kAliasedSpec aliasedField.ownKeys onlyGuard
        bothSpellings ↔
      aliasedField.twiceSpelled bothSpellings = aliasedField.twiceSpelled onlyGuard ∨
        @TypedSpec.RefusedAnyway _ _ .clio hexLib kAliasedSpec aliasedField onlyGuard :=
  @TypedSpec.indistinguishable_iff _ _ .clio hexLib _ _ _ kAliasedSpec_guardedAlone _ _ rfl
    agreeOff_bothSpellings

/-- The guard is there, yet what stands under the keys of its field decides the answer. -/
theorem bothSpellings_distinguished :
    kAliasedSpec.GuardedAlone aliasedField "guard" ∧
      (rootChild onlyGuard "guard").present = true ∧
      (rootChild bothSpellings "guard").present = true ∧
      AgreeOff aliasedField.ownKeys onlyGuard bothSpellings ∧
      ¬ @TypedSpec.Indistinguishable _ _ .clio hexLib kAliasedSpec aliasedField.ownKeys
        onlyGuard bothSpellings := by
  refine ⟨kAliasedSpec_guardedAlone, rfl, rfl, agreeOff_bothSpellings, ?_⟩
  intro hsame
  have hboth : answer (@TypedSpec.parse _ _ .clio hexLib kAliasedSpec bothSpellings) =
      .error tooManyFields := rfl
  have honly : answer (@TypedSpec.parse _ _ .clio hexLib kAliasedSpec onlyGuard) =
      .ok ⟨false⟩ := rfl
  have hresult := @TypedSpec.Indistinguishable.result _ _ .clio hexLib _ _ _ _ hsame
  rw [hboth, honly] at hresult
  cases hresult

end ToggleInput

end RpcSpec.Dsl
