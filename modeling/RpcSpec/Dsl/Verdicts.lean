import RpcSpec.Dsl.Clamping
import RpcSpec.Dsl.Selection
set_option autoImplicit false

/-!
# One field among others that pass

What a spec makes of the value under one key, where every other field accepts the request:
whether the request is accepted, and what the parse reads the value as.

`Decides` says both of one field in terms of its value; `TypedSpec.decides_of_field` gets
it from the items and the converter, and `TypedSpec.parse_error_of_field` gives the error
where the value is refused.
-/

namespace RpcSpec.Dsl

open RpcSpec.Foundation FieldView

variable {Input Value : Type}

/-! ## What items leave of a view -/

/-- The view an item leaves, if it accepts the one it is given. -/
def Item.leaves (item : Item Value) (v : FieldView) : Option FieldView :=
  leftState (callIfProcessor item) v

/-- The view the items leave, if they accept the one they are given. -/
def leaves (items : List (Item Value)) (v : FieldView) : Option FieldView :=
  leftState (runProcessors items) v

section Leaves

variable {v : FieldView}

theorem leaves_nil : leaves ([] : List (Item Value)) v = some v := by
  rw [leaves, runProcessors_nil]
  rfl

theorem leaves_cons (item : Item Value) (rest : List (Item Value)) :
    leaves (item :: rest) v = (item.leaves v).bind (leaves rest) := by
  rw [leaves, runProcessors_cons]
  exact leftState_seq _ _ _

theorem leaves_singleton (item : Item Value) : leaves [item] v = item.leaves v := by
  rw [leaves_cons]
  cases item.leaves v with
  | none => rfl
  | some v' => exact leaves_nil

theorem leaves_append (items rest : List (Item Value)) :
    leaves (items ++ rest) v = (leaves items v).bind (leaves rest) := by
  rw [leaves, runProcessors_append]
  exact leftState_seq _ _ _

theorem leaves_requirement (verify : FieldView → MaybeError) :
    (Item.requirement verify : Item Value).leaves v = (verify v).toOption.map fun _ => v := by
  have hverify : (Item.requirement verify : Item Value).verify v = verify v := by
    rw [Item.verify]
  rw [Item.leaves, callIfProcessor_of_requirement (by rw [Item.isRequirement]), ← hverify]
  exact leftState_monadLift _ v

/-- A check that rejects at most. -/
theorem leaves_requirement_rejectIf {verify : FieldView → MaybeError} {bad : Bool}
    {code : CombinedError} {message : String} (h : verify v = rejectIf bad code message) :
    (Item.requirement verify : Item Value).leaves v = if bad then none else some v := by
  rw [leaves_requirement, h]
  cases bad <;> rfl

theorem leaves_withCustomError (item : Item Value) (code : CombinedError) (message : String) :
    (withCustomError item code message).leaves v = item.leaves v := by
  rw [Item.leaves, withCustomError, callIfProcessor_withCustomError, leftState_mapFailure]
  rfl

theorem leaves_serverConditional {active : Bool} {inners : List (Item Value)}
    (hmixed : NotMixed inners) : (Item.serverConditional active inners).leaves v =
      if active then leaves inners v else some v := by
  cases active with
  | true =>
      rw [Item.leaves, callIfProcessor_active hmixed]
      rfl
  | false =>
      rw [Item.leaves, callIfProcessor_inactive]
      rfl

theorem leaves_defaultTo (value : Value) : (defaultTo value).leaves v = some v := by
  rw [Item.leaves, defaultTo, callIfProcessor_of_neither (by simp [Item.isRequirement])
    (by simp [Item.isModifier])]
  rfl

/-- A modifier writes what it computes, or leaves the value. -/
theorem leaves_rewriteBy (newValue : FieldView → Parsed (Option Json)) (json : Json)
    (key : String) : (Item.modifier (rewriteBy newValue) : Item Value).leaves ⟨key, some json⟩ =
      (newValue ⟨key, some json⟩).toOption.map fun value => ⟨key, some (value.getD json)⟩ := by
  change leftState (rewriteBy newValue) _ = _
  rw [leftState, rewriteBy_run]
  rcases newValue ⟨key, some json⟩ with failure | (_ | new) <;> rfl

end Leaves

/-! ### Elements -/

section Elements

variable {x : EStateM Failure FieldView Unit} {key : String} {rest rest' : List Json}

/-- The first turn of a loop over the elements. -/
theorem leftState_forM_onElement_cons (done : List Json) (json : Json) :
    leftState (forM (List.range' done.length (json :: rest).length) fun idx => onElement idx x)
        ⟨key, some (.array (done ++ json :: rest))⟩ =
      (leftState x ⟨key, some json⟩).bind fun left =>
        leftState (forM (List.range' (done.length + 1) rest.length) fun idx => onElement idx x)
          ⟨key, some (.array (done ++ left.value.getD json :: rest))⟩ := by
  have helement : element ⟨key, some (.array (done ++ json :: rest))⟩ done.length =
      ⟨key, some json⟩ := by
    simp [element]
  rw [List.length_cons, List.range'_succ, List.forM_cons, leftState_seq, onElement,
    leftState_zoom, helement, Option.bind_map]
  refine congrArg _ (funext fun left => congrArg (leftState _) ?_)
  cases hvalue : left.value <;> simp [putElement, Json.putElement, hvalue]

/-- A loop over the elements leaves of each what a turn leaves of it. -/
theorem leftState_forM_onElement (done : List Json)
    (hx : ∀ json v', leftState x ⟨key, some json⟩ = some v' → ∃ json', v' = ⟨key, some json'⟩)
    {v' : FieldView}
    (h : leftState (forM (List.range' done.length rest.length) fun idx => onElement idx x)
      ⟨key, some (.array (done ++ rest))⟩ = some v') :
    ∃ rest', v' = ⟨key, some (.array (done ++ rest'))⟩ ∧ List.Forall₂ (fun json json' =>
      leftState x ⟨key, some json⟩ = some ⟨key, some json'⟩) rest rest' := by
  induction rest generalizing done with
  | nil => exact ⟨[], (Option.some.inj h).symm, .nil⟩
  | cons json rest ih =>
      rw [leftState_forM_onElement_cons] at h
      obtain ⟨left, hleft, hloop⟩ := Option.bind_eq_some_iff.mp h
      obtain ⟨json', rfl⟩ := hx json left hleft
      have hlength : (done ++ [json']).length = done.length + 1 := by simp
      rw [← hlength, Option.getD_some, List.append_cons done json' rest] at hloop
      obtain ⟨rest', rfl, hall⟩ := ih _ hloop
      exact ⟨json' :: rest', by simp, .cons hleft hall⟩

/-- Where every turn returns the loop does. -/
theorem leftState_forM_onElement_of_forall (done : List Json)
    (h : List.Forall₂ (fun json json' =>
      leftState x ⟨key, some json⟩ = some ⟨key, some json'⟩) rest rest') :
    leftState (forM (List.range' done.length rest.length) fun idx => onElement idx x)
      ⟨key, some (.array (done ++ rest))⟩ = some ⟨key, some (.array (done ++ rest'))⟩ := by
  induction h generalizing done with
  | nil => rfl
  | @cons json json' rest rest' hleft _ ih =>
      have hlength : (done ++ [json']).length = done.length + 1 := by simp
      rw [leftState_forM_onElement_cons, hleft, Option.bind_some, ← hlength, Option.getD_some,
        List.append_cons done json' rest, ih, ← List.append_cons]

end Elements

/-! ### Numbers -/

section Numbers

variable {key : String} {json : Json}

theorem numericValue_uint32 (key : String) (json : Json) :
    numericValue UInt32 ⟨key, some json⟩ = .ok json.uint32? := by
  change (if !true || !FieldView.isUint32 ⟨key, some json⟩ then pure none
    else some <$> FieldView.asUint32 ⟨key, some json⟩) = _
  obtain ⟨n, hn, huint, has⟩ | ⟨hnone, huint⟩ := uint32_cases key json
  · rw [huint, has, hn]
    rfl
  · rw [huint, hnone]
    rfl

theorem leaves_type_uint32 : (type [.uint32] : Item Value).leaves ⟨key, some json⟩ =
    json.uint32?.map fun _ => ⟨key, some json⟩ := by
  rw [type, leaves_requirement, TypeIs.verify]
  change (rejectIf (true && !(FieldView.isUint32 ⟨key, some json⟩ || false)) _).toOption.map _ = _
  obtain ⟨n, hn, huint, -⟩ | ⟨hnone, huint⟩ := uint32_cases key json
  · rw [huint, hn]
    rfl
  · rw [huint, hnone]
    rfl

theorem leaves_min (lo : UInt32) : (min lo : Item Value).leaves ⟨key, some json⟩ =
    if json.uint32?.any (· < lo) then none else some ⟨key, some json⟩ := by
  rw [min, leaves_requirement, Min.verify, numericValue_uint32]
  change (rejectIf (json.uint32?.any (· < lo)) _).toOption.map _ = _
  cases json.uint32?.any (· < lo) <;> rfl

theorem leaves_between (lo hi : UInt32) : (between lo hi : Item Value).leaves ⟨key, some json⟩ =
    if json.uint32?.any (fun n => n < lo || hi < n) then none else some ⟨key, some json⟩ := by
  rw [between, leaves_requirement, Between.verify, numericValue_uint32]
  change (rejectIf (json.uint32?.any fun n => n < lo || hi < n) _).toOption.map _ = _
  cases json.uint32?.any (fun n => n < lo || hi < n) <;> rfl

theorem leaves_clamp (lo hi : UInt32) : (clamp lo hi : Item Value).leaves ⟨key, some json⟩ =
    some ⟨key, some (json.uint32?.elim json fun n => .ofUint32 (stdClamp n lo hi))⟩ := by
  rw [clamp, Clamp.modify, leaves_rewriteBy, numericValue_uint32]
  cases json.uint32? <;> rfl

theorem leaves_nullAs (value : Json) : (nullAs value : Item Value).leaves ⟨key, some json⟩ =
    some ⟨key, some (if FieldView.isNull ⟨key, some json⟩ then value else json)⟩ := by
  rw [nullAs, leaves_rewriteBy]
  cases FieldView.isNull ⟨key, some json⟩ <;> rfl

theorem leaves_type_int64 : (type [.int64] : Item Value).leaves ⟨key, some json⟩ =
    json.int64?.map fun _ => ⟨key, some json⟩ := by
  rw [type, leaves_requirement, TypeIs.verify]
  change (rejectIf (true && !(FieldView.isInt64 ⟨key, some json⟩ || false)) _).toOption.map _ = _
  obtain ⟨n, hn, hlt, hint, -⟩ | ⟨hnone, hint⟩ := int64_cases key json
  · rw [hint, Json.int64?_eq_some hn hlt]
    rfl
  · rw [hint, hnone]
    rfl

theorem leaves_clampAs (target : IntegralType) {n : Int} (h : json.integer? = some n)
    (hn : n < 2 ^ 63) : (clampAs target : Item Value).leaves ⟨key, some json⟩ =
      some ⟨key, some (ClampAs.clamped target (Int64.ofInt n))⟩ := by
  change leftState (ClampAs.modify target) _ = _
  rw [leftState, ClampAs.modify_of_integer h hn]

end Numbers

/-! ## What a field makes of its value -/

theorem toOption_eq_some_iff {ε α : Type} {x : Except ε α} {a : α} :
    x.toOption = some a ↔ x = .ok a := by
  cases x <;> simp [Except.toOption]

/-- What the converter reads of the view the items leave: nothing where no value is left, and
it must accept one that is. -/
def resolve (items : List (Item Value)) (conv : Converter Value) (v : FieldView) :
    Option (Option Value) :=
  (leaves items v).bind fun v' =>
    if v'.present then some <$> (conv.parse v').toOption else some none

section Fields

variable [Build] [LibXrpl] {key : String} {member : Member Input Value}
  {items : List (Item Value)} {conv : Converter Value} {unguarded}

/-- A field that is not skipped applies its defaults or assigns what is read. -/
theorem field_result (key : String) (member : Member Input Value) (conv : Converter Value)
    (unguarded) (hskips : ∀ root, skipsField items root = false) (root : Json) :
    ((field key member items conv unguarded).outcome root).result.toOption =
      (resolve items conv ⟨key, root.member? key⟩).map fun value? => value?.elim
        (BoundField.applyDefaults ⟨key, member, items, conv, unguarded⟩)
        fun value out => member.assign out value := by
  change (BoundField.outcomeAt _ key root).result.toOption = _
  simp only [BoundField.outcomeAt, hskips, Bool.false_eq_true, if_false, BoundField.onView,
    resolve, leaves, leftState, rootChild]
  cases runProcessors items ⟨key, root.member? key⟩ with
  | error failure v => rfl
  | ok _ v =>
      cases hpresent : v.present with
      | false => simp [hpresent, Except.toOption, Pure.pure, Except.pure]
      | true =>
          simp only [hpresent, Bool.not_true, Bool.false_eq_true, if_false, if_true,
            Option.bind_some]
          cases conv.parse v <;> rfl

/-- Where the items let the value pass, the field fails as the converter does. -/
theorem field_error (hskips : ∀ root, skipsField items root = false) {root json : Json}
    (hleaves : leaves items ⟨key, root.member? key⟩ = some ⟨key, some json⟩) {failure : Failure}
    (hconv : conv.parse ⟨key, some json⟩ = .error failure) :
    ((field key member items conv unguarded).outcome root).result = .error failure := by
  change (BoundField.outcomeAt _ key root).result = _
  simp only [BoundField.outcomeAt, hskips, Bool.false_eq_true, if_false, BoundField.onView,
    rootChild]
  cases hrun : runProcessors items ⟨key, root.member? key⟩ with
  | error failure v =>
      rw [leaves, leftState, hrun] at hleaves
      cases hleaves
  | ok _ v =>
      rw [leaves, leftState, hrun] at hleaves
      obtain rfl := Option.some.inj hleaves
      simp only [FieldView.present, Option.isSome_some, Bool.not_true, Bool.false_eq_true, if_false,
        hconv]
      rfl

/-- The field accepts the request. -/
def Field.Passes (f : Field Input) (root : Json) : Prop :=
  ∀ out, ∃ input root', f.parseOne out root = .ok input root'

theorem Field.passes_iff [InputAggregate Input] {f : Field Input} {root : Json} :
    f.Passes root ↔ ∃ update, (f.outcome root).result = .ok update := by
  simp only [Passes, f.parseOne_eq, Outcome.run]
  constructor
  · intro h
    obtain ⟨input, root', hrun⟩ := h InputAggregate.init
    cases hresult : (f.outcome root).result with
    | error failure =>
        rw [hresult] at hrun
        cases hrun
    | ok update => exact ⟨update, rfl⟩
  · rintro ⟨update, hupdate⟩ out
    rw [hupdate]
    exact ⟨_, _, rfl⟩

end Fields

/-! ## What a spec makes of it -/

section Specs

variable [InputAggregate Input] [Build] [LibXrpl] {β : Type}

/-- Every field but the one under the key accepts the request. -/
def TypedSpec.OthersPass (spec : TypedSpec Input) (key : String) (root : Json) : Prop :=
  ∀ f ∈ effectiveFields spec.fields, f.key ≠ key → f.Passes root

/-- Whether a request is accepted whose other fields are, and what the parse then reads, is a
verdict on the value under the key. -/
structure Decides (spec : TypedSpec Input) (key : String) (read : Input → β)
    (verdict : Option Json → Option β) : Prop where
  accepts : ∀ root, spec.OthersPass key root →
    ((∃ input root', spec.parse root = .ok input root') ↔
      (verdict (root.member? key)).isSome = true)
  reads : ∀ root input root', spec.parse root = .ok input root' →
    verdict (root.member? key) = some (read input)

theorem Decides.congr {spec : TypedSpec Input} {key : String} {read : Input → β}
    {verdict verdict' : Option Json → Option β} (h : Decides spec key read verdict)
    (hsame : ∀ json, verdict json = verdict' json) : Decides spec key read verdict' := by
  obtain rfl : verdict = verdict' := funext hsame
  exact h

omit [InputAggregate Input] [Build] [LibXrpl] in
/-- Outcomes that all return are collected. -/
theorem exists_collect {outcomes : List (Outcome Input)}
    (h : ∀ o ∈ outcomes, ∃ update, o.result = .ok update) (out : Input) :
    ∃ input, collect outcomes out = .ok input := by
  induction outcomes generalizing out with
  | nil => exact ⟨out, rfl⟩
  | cons o rest ih =>
      obtain ⟨update, hupdate⟩ := h o (by simp)
      rw [collect_cons, hupdate]
      exact ih (fun o' ho' => h o' (by simp [ho'])) (update out)

/-- A spec accepts the requests that every field that is dispatched accepts. -/
theorem TypedSpec.parses_iff {spec : TypedSpec Input}
    (hindependent : independent spec.fields = true) (root : Json) :
    (∃ input root', spec.parse root = .ok input root') ↔
      ∀ f ∈ effectiveFields spec.fields, f.Passes root := by
  constructor
  · rintro ⟨input, root', hrun⟩ f hf
    obtain ⟨hcollect, -⟩ := (TypedSpec.parse_eq_ok_iff hindependent).mp hrun
    exact Field.passes_iff.mpr (result_of_collect hcollect (List.mem_map_of_mem hf))
  · intro h
    have hall : ∀ o ∈ spec.outcomes root, ∃ update, o.result = .ok update := by
      intro o ho
      obtain ⟨f, hf, rfl⟩ := List.mem_map.mp ho
      exact Field.passes_iff.mp (h f hf)
    obtain ⟨input, hinput⟩ := exists_collect hall InputAggregate.init
    exact ⟨input, _, (TypedSpec.parse_eq_ok_iff hindependent).mpr ⟨hinput, rfl⟩⟩

omit [InputAggregate Input] [Build] [LibXrpl] in
/-- Where outcomes fail in one way only, they are collected to that failure. -/
theorem collect_error {outcomes : List (Outcome Input)} {failure : Failure}
    (h : ∀ o ∈ outcomes, o.result = .error failure ∨ ∃ update, o.result = .ok update)
    (hfails : ∃ o ∈ outcomes, o.result = .error failure) (out : Input) :
    collect outcomes out = .error failure := by
  induction outcomes generalizing out with
  | nil => simp at hfails
  | cons o rest ih =>
      rw [collect_cons]
      obtain herror | ⟨update, hupdate⟩ := h o (by simp)
      · rw [herror]
      · rw [hupdate]
        refine ih (fun o' ho' => h o' (by simp [ho'])) ?_ (update out)
        simpa [hupdate] using hfails

/-- The error of the one field that refuses the request is that of the spec. -/
theorem TypedSpec.parse_error_of_field {spec : TypedSpec Input} {f : Field Input} {root : Json}
    {failure : Failure} (hindependent : independent spec.fields = true)
    (hmem : f ∈ effectiveFields spec.fields) (hothers : spec.OthersPass f.key root)
    (herror : (f.outcome root).result = .error failure) :
    ∃ root', spec.parse root = .error failure root' := by
  have hanswer : answer (spec.parse root) = .error failure := by
    rw [TypedSpec.answer_parse hindependent]
    refine collect_error (fun o ho => ?_) ⟨_, List.mem_map_of_mem hmem, herror⟩ _
    obtain ⟨g, hg, rfl⟩ := List.mem_map.mp ho
    by_cases hkey : g.key = f.key
    · obtain rfl := eq_of_mem_effectiveFields hmem hg hkey
      exact .inl herror
    · exact .inr (Field.passes_iff.mp (hothers g hg hkey))
  cases hrun : spec.parse root with
  | ok input root' =>
      rw [hrun] at hanswer
      cases hanswer
  | error failure' root' =>
      rw [hrun] at hanswer
      obtain rfl := Except.error.inj hanswer
      exact ⟨root', rfl⟩

variable {spec : TypedSpec Input} {key : String} {member : Member Input Value}
  {items : List (Item Value)} {conv : Converter Value} {unguarded} {read : Input → β}

/-- The verdict of a field whose member no other field assigns to. -/
theorem decides_of_field (wrap : Value → β) (absent : β)
    (hset : spec.SetBy read (field key member items conv unguarded))
    (hskips : ∀ root, skipsField items root = false)
    (hassign : ∀ out value, read (member.assign out value) = wrap value)
    (habsent : (∀ out, read (BoundField.applyDefaults ⟨key, member, items, conv, unguarded⟩ out) =
        absent) ∨
      BoundField.applyDefaults ⟨key, member, items, conv, unguarded⟩ = id ∧
        read InputAggregate.init = absent) :
    Decides spec key read fun json =>
      (resolve items conv ⟨key, json⟩).map (·.elim absent wrap) where
  accepts root hpass := by
    rw [TypedSpec.parses_iff hset.independent, Option.isSome_map]
    have hresult := field_result key member conv unguarded hskips root
    constructor
    · intro h
      obtain ⟨update, hupdate⟩ := Field.passes_iff.mp (h _ hset.effective)
      rw [hupdate] at hresult
      obtain ⟨value?, hvalue, -⟩ := Option.map_eq_some_iff.mp hresult.symm
      rw [hvalue, Option.isSome_some]
    · intro h f hf
      by_cases hkey : f.key = key
      · obtain rfl := eq_of_mem_effectiveFields hset.effective hf hkey
        obtain ⟨value?, hvalue⟩ := Option.isSome_iff_exists.mp h
        rw [hvalue] at hresult
        exact Field.passes_iff.mpr ⟨_, toOption_eq_some_iff.mp hresult⟩
      · exact hpass f hf hkey
  reads root input root' hrun := by
    have hresult := field_result key member conv unguarded hskips root
    obtain ⟨hcollect, -⟩ := (TypedSpec.parse_eq_ok_iff hset.independent).mp hrun
    obtain ⟨update, hupdate⟩ :=
      result_of_collect hcollect (List.mem_map_of_mem hset.effective)
    rw [hupdate] at hresult
    obtain ⟨value?, hvalue, hvalue'⟩ := Option.map_eq_some_iff.mp hresult.symm
    have hsame {update' : Input → Input} (hupdate' : _ = Except.ok update') :=
      Except.ok.inj (hupdate.symm.trans hupdate')
    rw [hvalue, Option.map_some, Option.some_inj]
    cases value? with
    | some value =>
        refine (hset.member_eq (fun update' hupdate' out => ?_) hrun).symm
        rw [← hsame hupdate', ← hvalue']
        exact hassign out value
    | none =>
        obtain hsets | ⟨hid, hinit⟩ := habsent
        · refine (hset.member_eq (fun update' hupdate' out => ?_) hrun).symm
          rw [← hsame hupdate', ← hvalue']
          exact hsets out
        · refine ((hset.init (fun update' hupdate' out => ?_) hrun).trans hinit).symm
          rw [← hsame hupdate', ← hvalue', Option.elim_none, hid]
          rfl

end Specs

end RpcSpec.Dsl
