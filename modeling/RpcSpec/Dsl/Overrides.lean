import RpcSpec.Dsl.TypedSpec
import RpcSpec.Foundation.LastWins
set_option autoImplicit false

/-!
# Overriding (`forEachEffectiveField` and the walks over it)

Every walk over the fields of a spec follows the plan of `buildOverridePlan`: an
array of flags and an array of indices.  What it comes to is `lastWins` of the
fields by their keys, walked from left to right.

`overridesInPlace` says it of the walks of the source, which parse, check and dump a typed
spec or an untyped one, and of `extend`. `effectiveFields_eq_lastWins` is the lemma all
others use.
-/

namespace RpcSpec.Dsl

open RpcSpec.Foundation

universe u

/-! ## The walk -/

section Walk

variable {F : Type u} (key : F → String) {m : Type → Type} [Monad m]

/-- The loop of `forEachEffectiveField` over the positions: a dispatched field says
whether to go on. -/
def dispatchLoop {n : Nat} (plan : OverridePlan n) (dispatch : Fin n → m Bool) :
    List (Fin n) → m Unit
  | [] => pure ()
  | i :: rest => do
      if plan.shouldRun i then
        if ← dispatch (plan.effectiveIdx i) then dispatchLoop plan dispatch rest
      else dispatchLoop plan dispatch rest

/-- `forEachEffectiveField(fields, visit, …)`. -/
def forEachEffectiveField (fields : List F) (visit : F → m Bool) : m Unit :=
  let keys := fields.map key
  dispatchLoop (buildOverridePlan keys)
    (fun i => visit (fields.get (i.cast (List.length_map key)))) (List.finRange keys.length)

/-- The same walk over a list in which every field is effective. -/
def visitInTurn (visit : F → m Bool) : List F → m Unit
  | [] => pure ()
  | field :: rest => do
      if ← visit field then visitInTurn visit rest

end Walk

/-! ## The plan -/

/-- The last of the positions of which `p` holds, if there is one. -/
theorem foldl_last {α : Type} (p : α → Bool) (positions : List α) (start : α) :
    let last := positions.foldl (fun last j => if p j then j else last) start
    (last = start ∧ ∀ j ∈ positions, p j = false) ∨
      ∃ before after, positions = before ++ last :: after ∧ p last = true ∧
        ∀ j ∈ after, p j = false := by
  induction positions using List.reverseRecOn with
  | nil => exact .inl ⟨rfl, by simp⟩
  | append_singleton positions j ih =>
      simp only [List.foldl_append, List.foldl_cons, List.foldl_nil]
      cases hj : p j with
      | true => exact .inr ⟨positions, [], by simp, by simpa using hj, by simp⟩
      | false =>
          rcases ih with ⟨hstart, hnone⟩ | ⟨before, after, heq, hlast, hafter⟩
          · refine .inl ⟨by simpa using hstart, ?_⟩
            intro j' hj'
            rcases List.mem_append.mp hj' with hj' | hj'
            · exact hnone j' hj'
            · rwa [List.mem_singleton.mp hj']
          · refine .inr ⟨before, after ++ [j], ?_, by simpa using hlast, ?_⟩
            · simpa using congrArg (· ++ [j]) heq
            · intro j' hj'
              rcases List.mem_append.mp hj' with hj' | hj'
              · exact hafter j' hj'
              · rwa [List.mem_singleton.mp hj']

/-- The effective index is that of the last occurrence of the key. -/
theorem effectiveIdx_last (keys : List String) (i : Fin keys.length) :
    keys.get ((buildOverridePlan keys).effectiveIdx i) = keys.get i ∧
      ∀ j, (buildOverridePlan keys).effectiveIdx i < j → keys.get j ≠ keys.get i := by
  have hlast := foldl_last (fun j => i < j && keys.get j == keys.get i)
    (List.finRange keys.length) i
  have hidx : (buildOverridePlan keys).effectiveIdx i = (List.finRange keys.length).foldl
    (fun last j => if i < j && keys.get j == keys.get i then j else last) i := rfl
  rw [hidx]
  rcases hlast with ⟨hstart, hnone⟩ | ⟨before, after, heq, hp, hafter⟩
  · rw [hstart]
    refine ⟨rfl, ?_⟩
    intro j hj hkey
    have hcond := hnone j (List.mem_finRange j)
    simp only [hj, decide_true, Bool.true_and, beq_eq_false_iff_ne] at hcond
    exact hcond hkey
  · generalize (List.finRange keys.length).foldl
      (fun last j => if i < j && keys.get j == keys.get i then j else last) i = last
      at heq hp hafter
    simp only [Bool.and_eq_true, decide_eq_true_eq, beq_iff_eq] at hp
    refine ⟨hp.2, ?_⟩
    intro j hj hkey
    -- the positions are sorted, so `j` stands behind the last one
    have hsorted := List.pairwise_lt_finRange keys.length
    rw [heq, List.pairwise_append] at hsorted
    have hmem : j ∈ before ++ last :: after := heq ▸ List.mem_finRange j
    rcases List.mem_append.mp hmem with hj' | hj'
    · exact absurd (hsorted.2.2 j hj' last (by simp)) (not_lt.mpr hj.le)
    · rcases List.mem_cons.mp hj' with rfl | hj'
      · exact absurd hj (lt_irrefl _)
      · have hcond := hafter j hj'
        simp only [hp.1.trans hj, decide_true, Bool.true_and, beq_eq_false_iff_ne] at hcond
        exact hcond hkey

section

variable {F : Type u} {key : F → String}

/-- The field at the effective index is the last with its key. -/
theorem get_effectiveIdx (fields : List F) (i : Fin (fields.map key).length) :
    lastWith key fields ((fields.map key).get i) = some (fields.get
      (((buildOverridePlan (fields.map key)).effectiveIdx i).cast (List.length_map key))) := by
  obtain ⟨hkey, hlast⟩ := effectiveIdx_last (fields.map key) i
  generalize (buildOverridePlan (fields.map key)).effectiveIdx i = r at hkey hlast ⊢
  refine lastWith_eq_some_iff.mpr
    ⟨fields.take r.val, fields.drop (r.val + 1), ?_, by simpa using hkey, fun hmem => ?_⟩
  · simp
  · obtain ⟨f, hf, hkey'⟩ := List.mem_map.mp hmem
    obtain ⟨j, hj, rfl⟩ := List.mem_drop_iff_getElem.mp hf
    have hlt : r.val + 1 + j < (fields.map key).length := by simpa [Nat.add_comm] using hj
    exact hlast ⟨r.val + 1 + j, hlt⟩ (Fin.lt_def.mpr (by simp; omega)) (by simpa using hkey')

/-- The fields at the effective indices of the positions that run, in order. -/
theorem filterMap_plan (fields : List F) :
    ((List.finRange (fields.map key).length).filterMap fun i =>
      if (buildOverridePlan (fields.map key)).shouldRun i then
        some (fields.get (((buildOverridePlan (fields.map key)).effectiveIdx i).cast
          (List.length_map key)))
      else none) = lastWins key fields := by
  have hrange : (List.range (fields.map key).length) =
      (List.finRange (fields.map key).length).map Fin.val := List.map_coe_finRange_eq_range.symm
  rw [lastWins, firstKeys, ← filterMap_firstPositions, hrange, List.filterMap_map]
  apply List.filterMap_congr
  intro i _
  have hget : (fields.map key)[i.val]? = some ((fields.map key).get i) :=
    List.getElem?_eq_getElem i.isLt
  rw [Function.comp_apply, hget, Option.bind_some, get_effectiveIdx]
  have hrun : (buildOverridePlan (fields.map key)).shouldRun i =
      !decide ((fields.map key).get i ∈ (fields.map key).take i) := by
    simp [buildOverridePlan]
  rw [hrun]
  by_cases h : (fields.map key).get i ∈ (fields.map key).take i
  · rw [if_pos h, decide_eq_true h, Bool.not_true, if_neg Bool.false_ne_true]
  · rw [if_neg h, decide_eq_false h, Bool.not_false, if_pos rfl]

/-! ## The walk comes to the last fields in turn -/

variable {m : Type → Type} [Monad m]

theorem dispatchLoop_eq_visitInTurn {n : Nat} (plan : OverridePlan n) (fieldAt : Fin n → F)
    (visit : F → m Bool) (positions : List (Fin n)) :
    dispatchLoop plan (fun i => visit (fieldAt i)) positions =
      visitInTurn visit (positions.filterMap fun i =>
        if plan.shouldRun i then some (fieldAt (plan.effectiveIdx i)) else none) := by
  induction positions with
  | nil => rfl
  | cons i rest ih =>
      rw [dispatchLoop, List.filterMap_cons]
      cases hrun : plan.shouldRun i with
      | false => simpa using ih
      | true => simp [visitInTurn, ih]

/-- `forEachEffectiveField` visits the last field of each key, where the key occurs
first, up to the first visit that says to stop. -/
theorem forEachEffectiveField_eq (fields : List F) (visit : F → m Bool) :
    forEachEffectiveField key fields visit = visitInTurn visit (lastWins key fields) := by
  rw [← filterMap_plan]
  exact dispatchLoop_eq_visitInTurn _ (fun i => fields.get (i.cast (List.length_map key))) visit _

end

/-! ## The walks of the specs -/

/-- What the visitors of `impl::process` and `parseImpl` capture by reference. -/
structure WalkState (Out : Type) where
  root : Json
  out : Out
  result : MaybeError

/-- What these walks return in the end, with the document they leave. -/
def WalkState.outcome {Out : Type} (s : WalkState Out) : EStateM.Result Failure Json Out :=
  match s.result with
  | .ok () => .ok s.out s.root
  | .error failure => .error failure s.root

section Walks

variable {F : Type u} (key : F → String) {Out : Type}

/-- A visitor that stops where a field fails. -/
def visitUntilFailure (step : Out → F → EStateM Failure Json Out) (field : F) :
    StateM (WalkState Out) Bool := fun s =>
  match step s.out field s.root with
  | .ok out root => (true, { root, out, result := .ok () })
  | .error failure root => (false, { s with root, result := .error failure })

/-- Runs the fields that count, and stops at the first failure. -/
def walkUntilFailure (fields : List F) (step : Out → F → EStateM Failure Json Out)
    (start : Out) : EStateM Failure Json Out := fun root =>
  let (_, s) := (forEachEffectiveField key fields (visitUntilFailure step)).run
    { root, out := start, result := .ok () }
  s.outcome

/-- A walk whose visitor always goes on. -/
def accumulate (fields : List F) (step : Out → F → Out) (start : Out) : Out :=
  ((forEachEffectiveField key fields fun field => do
    modify (step · field)
    pure true : StateM Out Unit).run start).2

variable {key}

theorem accumulate_eq_foldl (fields : List F) (step : Out → F → Out) (start : Out) :
    accumulate key fields step start = (lastWins key fields).foldl step start := by
  rw [accumulate, forEachEffectiveField_eq]
  generalize lastWins key fields = visited
  induction visited generalizing start with
  | nil => rfl
  | cons field rest ih => exact ih (step start field)

/-- A walk that gathers what each field gives. -/
theorem accumulate_append {Entry : Type} (fields : List F) (gather : F → List Entry) :
    accumulate key fields (fun out field => out ++ gather field) [] =
      (lastWins key fields).flatMap gather := by
  rw [accumulate_eq_foldl]
  generalize lastWins key fields = visited
  have hfold : ∀ out, visited.foldl (fun out field => out ++ gather field) out =
      out ++ visited.flatMap gather := by
    intro out
    induction visited generalizing out with
    | nil => simp
    | cons field rest ih => simp [ih]
  simpa using hfold []

theorem run_visitInTurn_cons {σ : Type} (visit : F → StateM σ Bool) (field : F)
    (rest : List F) (s : σ) : (visitInTurn visit (field :: rest)).run s =
      if ((visit field).run s).1 then (visitInTurn visit rest).run ((visit field).run s).2
      else ((), ((visit field).run s).2) := by
  change StateT.run (m := Id) (visit field >>= fun go => if go then visitInTurn visit rest else
    pure ()) s = _
  rw [StateT.run_bind]
  change StateT.run (m := Id) (if ((visit field).run s).1 then _ else _) _ = _
  split <;> rfl

/-- The fields in order, up to the first that fails. -/
theorem outcome_visitInTurn (step : Out → F → EStateM Failure Json Out) (visited : List F)
    (root : Json) (out : Out) :
    ((visitInTurn (visitUntilFailure step) visited).run { root, out, result := .ok () }).2.outcome =
      visited.foldlM step out root := by
  induction visited generalizing root out with
  | nil => rfl
  | cons field rest ih =>
      have hvisit : (visitUntilFailure step field).run { root, out, result := .ok () } =
          match step out field root with
          | .ok out root => (true, { root, out, result := .ok () })
          | .error failure root => (false, { root, out, result := .error failure }) := rfl
      rw [List.foldlM_cons, run_visitInTurn_cons, hvisit]
      change _ = EStateM.bind (step out field) _ root
      cases hrun : step out field root with
      | ok out' root' => simpa [EStateM.bind, hrun] using ih root' out'
      | error failure root' => simp [EStateM.bind, hrun, WalkState.outcome]

theorem walkUntilFailure_eq_foldlM (fields : List F)
    (step : Out → F → EStateM Failure Json Out) (start : Out) :
    walkUntilFailure key fields step start = (lastWins key fields).foldlM step start := by
  funext root
  rw [walkUntilFailure, forEachEffectiveField_eq]
  exact outcome_visitInTurn step _ root start

end Walks

section Specs

variable {Input : Type} [InputAggregate Input] [Build] [LibXrpl]

/-- `TypedSpec::parseImpl`. -/
def parseImpl (fields : List (Field Input)) : EStateM Failure Json Input :=
  walkUntilFailure Field.key fields (fun out field => field.parseOne out) InputAggregate.init

/-- `TypedSpec::checkImpl`. -/
def checkImpl (fields : List (Field Input)) (root : Json) : Warnings :=
  accumulate Field.key fields (fun out field => out ++ field.check root) []

/-- `TypedSpec::dumpImpl`, whatever `dumpOne` writes for a field. -/
def dumpImpl {Writer : Type} (dumpOne : Writer → Field Input → Writer)
    (fields : List (Field Input)) (writer : Writer) : Writer :=
  accumulate Field.key fields dumpOne writer

/-- `RpcSpec`: fields bound to no member. -/
structure UntypedSpec where
  fields : List (FieldSpec Unit)

namespace UntypedSpec

/-- `impl::process`. -/
def process (spec : UntypedSpec) : EStateM Failure Json Unit :=
  walkUntilFailure FieldSpec.key spec.fields (fun _ field => field.process) ()

/-- `impl::check`. -/
def check (spec : UntypedSpec) (root : Json) : Warnings :=
  accumulate FieldSpec.key spec.fields (fun out field => out ++ field.check root) []

/-- `dumpRpcSpec`, whatever `dumpFieldSpec` writes for a field. -/
def dump {Writer : Type} (dumpFieldSpec : Writer → FieldSpec Unit → Writer)
    (spec : UntypedSpec) (writer : Writer) : Writer :=
  accumulate FieldSpec.key spec.fields dumpFieldSpec writer

/-- `extend`. -/
def extend (base : UntypedSpec) (extra : List (FieldSpec Unit)) : UntypedSpec :=
  ⟨base.fields ++ extra⟩

end UntypedSpec

omit [InputAggregate Input] [Build] [LibXrpl] in
theorem effectiveFields_eq_lastWins (fields : List (Field Input)) :
    effectiveFields fields = lastWins Field.key fields := by
  rw [← filterMap_plan, effectiveFields]
  apply List.filterMap_congr
  intro i _
  have hlt := (((buildOverridePlan (fields.map Field.key)).effectiveIdx i).cast
    (List.length_map Field.key)).isLt
  split
  · exact List.getElem?_eq_getElem hlt
  · rfl

omit [InputAggregate Input] [Build] [LibXrpl] in
/-- Where the keys differ no field replaces another. -/
theorem effectiveFields_of_nodup {fields : List (Field Input)}
    (hkeys : (fields.map Field.key).Nodup) : effectiveFields fields = fields := by
  rw [effectiveFields_eq_lastWins, lastWins_of_nodup hkeys]

omit [InputAggregate Input] [Build] [LibXrpl] in
theorem mem_effectiveFields_of_nodup {fields : List (Field Input)}
    (hkeys : (fields.map Field.key).Nodup) {f : Field Input} (hmem : f ∈ fields) :
    f ∈ effectiveFields fields := by
  rwa [effectiveFields_of_nodup hkeys]

omit [InputAggregate Input] [Build] [LibXrpl] in
/-- A field stays where none with its key is added. -/
theorem mem_effectiveFields_append {fields extra : List (Field Input)} {f : Field Input}
    (hmem : f ∈ effectiveFields fields) (hkey : f.key ∉ extra.map Field.key) :
    f ∈ effectiveFields (fields ++ extra) := by
  rw [effectiveFields_eq_lastWins, mem_lastWins] at hmem ⊢
  obtain ⟨before, after, rfl, hafter⟩ := hmem
  refine ⟨before, after ++ extra, by simp, ?_⟩
  rw [List.map_append, List.mem_append, not_or]
  exact ⟨hafter, hkey⟩

omit [InputAggregate Input] [Build] [LibXrpl] in
/-- Of the fields that are dispatched no two have one key. -/
theorem eq_of_mem_effectiveFields {fields : List (Field Input)} {f g : Field Input}
    (hf : f ∈ effectiveFields fields) (hg : g ∈ effectiveFields fields) (hkey : g.key = f.key) :
    g = f := by
  rw [effectiveFields_eq_lastWins] at hf hg
  exact List.inj_on_of_nodup_map (nodup_map_key_lastWins fields) hg hf hkey

theorem parse_eq_parseImpl (spec : TypedSpec Input) : spec.parse = parseImpl spec.fields := by
  rw [TypedSpec.parse, effectiveFields_eq_lastWins, parseImpl, walkUntilFailure_eq_foldlM]

omit [LibXrpl] in
theorem check_eq_checkImpl (spec : TypedSpec Input) : spec.check = checkImpl spec.fields := by
  funext root
  rw [TypedSpec.check, effectiveFields_eq_lastWins, checkImpl, accumulate_append]

/-! ## Replacement in place -/

/-- No walk tells the two lists of fields apart. -/
structure SameTyped (fields fields' : List (Field Input)) : Prop where
  parse : parseImpl fields = parseImpl fields'
  check : checkImpl fields = checkImpl fields'
  dump : ∀ {Writer : Type} (dumpOne : Writer → Field Input → Writer),
    dumpImpl dumpOne fields = dumpImpl dumpOne fields'

/-- No walk tells the two specs apart. -/
structure SameUntyped (spec spec' : UntypedSpec) : Prop where
  process : spec.process = spec'.process
  check : spec.check = spec'.check
  dump : ∀ {Writer : Type} (dumpFieldSpec : Writer → FieldSpec Unit → Writer),
    spec.dump dumpFieldSpec = spec'.dump dumpFieldSpec

theorem SameTyped.of_lastWins {fields fields' : List (Field Input)}
    (h : lastWins Field.key fields = lastWins Field.key fields') : SameTyped fields fields' where
  parse := by rw [parseImpl, parseImpl, walkUntilFailure_eq_foldlM, walkUntilFailure_eq_foldlM, h]
  check := by
    funext root
    rw [checkImpl, checkImpl, accumulate_eq_foldl, accumulate_eq_foldl, h]
  dump dumpOne := by
    funext writer
    rw [dumpImpl, dumpImpl, accumulate_eq_foldl, accumulate_eq_foldl, h]

omit [LibXrpl] in
theorem SameUntyped.of_lastWins {spec spec' : UntypedSpec}
    (h : lastWins FieldSpec.key spec.fields = lastWins FieldSpec.key spec'.fields) :
    SameUntyped spec spec' where
  process := by
    rw [UntypedSpec.process, UntypedSpec.process, walkUntilFailure_eq_foldlM,
      walkUntilFailure_eq_foldlM, h]
  check := by
    funext root
    rw [UntypedSpec.check, UntypedSpec.check, accumulate_eq_foldl, accumulate_eq_foldl, h]
  dump dumpFieldSpec := by
    funext writer
    rw [UntypedSpec.dump, UntypedSpec.dump, accumulate_eq_foldl, accumulate_eq_foldl, h]

/-- Overriding is replacement in place.  `lastWins` is the normal form of a list of
fields, and `putKey` replaces the field with a key, or adds one at the end. -/
structure OverridesInPlace (Input : Type) [InputAggregate Input] [Build] [LibXrpl] : Prop where
  /-- The walk visits the fields of the normal form, up to the first visit that stops. -/
  visits : ∀ {F : Type u} (key : F → String) {m : Type → Type} [Monad m] (fields : List F)
    (visit : F → m Bool),
    forEachEffectiveField key fields visit = visitInTurn visit (lastWins key fields)
  parses : ∀ spec : TypedSpec Input, spec.parse = parseImpl spec.fields
  checks : ∀ spec : TypedSpec Input, spec.check = checkImpl spec.fields
  typed : ∀ fields : List (Field Input), SameTyped fields (lastWins Field.key fields)
  untyped : ∀ spec : UntypedSpec, SameUntyped spec ⟨lastWins FieldSpec.key spec.fields⟩
  extendTyped : ∀ (base : TypedSpec Input) (extra : Field Input) complete,
    SameTyped (extend base [extra] complete).fields
      (putKey Field.key (lastWins Field.key base.fields) extra)
  extendUntyped : ∀ (base : UntypedSpec) (extra : FieldSpec Unit),
    SameUntyped (base.extend [extra])
      ⟨putKey FieldSpec.key (lastWins FieldSpec.key base.fields) extra⟩
  extendTypedTwice : ∀ (base : TypedSpec Input) (extra more : List (Field Input))
    complete complete' complete'',
    extend (extend base extra complete) more complete' = extend base (extra ++ more) complete''
  extendUntypedTwice : ∀ (base : UntypedSpec) (extra more : List (FieldSpec Unit)),
    (base.extend extra).extend more = base.extend (extra ++ more)
  /-- The error is that of the first field that fails, and no later one is run. -/
  parseError : ∀ (fields : List (Field Input)) (root root' : Json) (failure : Failure),
    parseImpl fields root = .error failure root' ↔ ∃ before field after out root₁,
      lastWins Field.key fields = before ++ field :: after ∧
      before.foldlM (fun out field => field.parseOne out) InputAggregate.init root = .ok out root₁ ∧
      field.parseOne out root₁ = .error failure root'
  processError : ∀ (spec : UntypedSpec) (root root' : Json) (failure : Failure),
    spec.process root = .error failure root' ↔ ∃ before field after root₁,
      lastWins FieldSpec.key spec.fields = before ++ field :: after ∧
      before.foldlM (fun _ field => field.process) () root = .ok () root₁ ∧
      field.process root₁ = .error failure root'

theorem overridesInPlace : OverridesInPlace.{u} Input where
  visits _ _ _ fields visit := forEachEffectiveField_eq fields visit
  parses := parse_eq_parseImpl
  checks := check_eq_checkImpl
  typed fields := .of_lastWins (lastWins_lastWins fields).symm
  untyped spec := .of_lastWins (lastWins_lastWins spec.fields).symm
  extendTyped base extra _ := .of_lastWins (by
    rw [← lastWins_concat, lastWins_lastWins]
    rfl)
  extendUntyped base extra := .of_lastWins (by
    rw [← lastWins_concat, lastWins_lastWins]
    rfl)
  extendTypedTwice base extra more _ _ _ := by simp [extend]
  extendUntypedTwice base extra more := by simp [UntypedSpec.extend]
  parseError fields root root' failure := by
    rw [parseImpl, walkUntilFailure_eq_foldlM, foldlM_eq_error_iff]
  processError spec root root' failure := by
    rw [UntypedSpec.process, walkUntilFailure_eq_foldlM, foldlM_eq_error_iff]
    constructor
    · rintro ⟨before, field, after, _, root₁, h⟩
      exact ⟨before, field, after, root₁, h⟩
    · rintro ⟨before, field, after, root₁, h⟩
      exact ⟨before, field, after, (), root₁, h⟩

end Specs

end RpcSpec.Dsl
