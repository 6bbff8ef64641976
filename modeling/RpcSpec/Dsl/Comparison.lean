import RpcSpec.Dsl.Locality
import RpcSpec.Foundation.Matching
set_option autoImplicit false

/-!
# Parses compared field by field

What two lists of outcomes make of related `Input`s is compared outcome by outcome, and
what a list of outcomes makes of a member of the `Input` is found where the member is
assigned to.

`collect_agree`, `collect_follows` and `collect_match` are the rules for two lists, for
agreement, for following and for matching errors; `collect_establishes` and
`collect_preserves` are those for a property of one `Input`, and `Field.Keeps` says that a
field leaves a reading alone.
-/

namespace RpcSpec.Dsl

open RpcSpec.Foundation

variable {Input Input' : Type}

/-! ## Two lists of outcomes -/

/-- The updates take related `Input`s to related ones. -/
def KeepRelated (R : Input → Input' → Prop) (update : Input → Input)
    (update' : Input' → Input') : Prop :=
  ∀ out out', R out out' → R (update out) (update' out')

/-- Outcomes that agree field by field give inputs that agree. -/
theorem collect_agree {R : Input → Input' → Prop} {outcomes : List (Outcome Input)}
    {outcomes' : List (Outcome Input')}
    (h : List.Forall₂ (fun o o' => Agree (KeepRelated R) o.result o'.result) outcomes outcomes')
    {out : Input} {out' : Input'} (hout : R out out') :
    Agree R (collect outcomes out) (collect outcomes' out') := by
  induction h generalizing out out' with
  | nil => exact .ok hout
  | cons hresult _ ih =>
      rw [collect_cons, collect_cons]
      generalize Outcome.result _ = result at hresult
      generalize Outcome.result _ = result' at hresult
      cases hresult with
      | ok hupdate => exact ih (hupdate _ _ hout)
      | error failure => exact .error failure

/-- Outcomes that follow others field by field give an input that follows. -/
theorem collect_follows {R : Input → Input' → Prop} {outcomes : List (Outcome Input)}
    {outcomes' : List (Outcome Input')}
    (h : List.Forall₂ (fun o o' => Follows (KeepRelated R) o.result o'.result) outcomes outcomes')
    {out : Input} {out' : Input'} (hout : R out out') :
    Follows R (collect outcomes out) (collect outcomes' out') := by
  induction h generalizing out out' with
  | nil =>
      rintro input ⟨⟩
      exact ⟨out', rfl, hout⟩
  | @cons o o' _ _ hresult _ ih =>
      rw [collect_cons, collect_cons]
      cases hupdate : o.result with
      | error failure => exact .of_error rfl
      | ok update =>
          obtain ⟨update', hupdate', hrelated⟩ := hresult update hupdate
          rw [hupdate']
          exact ih (hrelated _ _ hout)

section Matching

variable {E : Failure → Failure → Prop} {R : Input → Input' → Prop}

theorem collect_cons_match {o : Outcome Input} {o' : Outcome Input'} {rest : List (Outcome Input)}
    {rest' : List (Outcome Input')} (h : Matches E (KeepRelated R) o.result o'.result)
    (hrest : ∀ out out', R out out' → Matches E R (collect rest out) (collect rest' out'))
    {out : Input} {out' : Input'} (hout : R out out') :
    Matches E R (collect (o :: rest) out) (collect (o' :: rest') out') := by
  rw [collect_cons, collect_cons]
  generalize o.result = result, o'.result = result' at h
  cases h with
  | ok hupdate => exact hrest _ _ (hupdate _ _ hout)
  | error h => exact .error h

/-- Outcomes that match field by field give inputs that match. -/
theorem collect_match {outcomes : List (Outcome Input)} {outcomes' : List (Outcome Input')}
    (h : List.Forall₂ (fun o o' => Matches E (KeepRelated R) o.result o'.result)
      outcomes outcomes') {out : Input} {out' : Input'} (hout : R out out') :
    Matches E R (collect outcomes out) (collect outcomes' out') := by
  induction h generalizing out out' with
  | nil => exact .ok hout
  | cons hresult _ ih => exact collect_cons_match hresult (fun _ _ => ih) hout

/-- Where every field does alike with two requests, so does the spec. -/
theorem TypedSpec.parse_match [InputAggregate Input] [Build] [LibXrpl] {spec : TypedSpec Input}
    {R : Input → Input → Prop} (hindependent : independent spec.fields = true) {root root' : Json}
    (h : ∀ f ∈ effectiveFields spec.fields,
      Matches E (KeepRelated R) (f.outcome root).result (f.outcome root').result)
    (hinit : R InputAggregate.init InputAggregate.init) :
    Matches E R (answer (spec.parse root)) (answer (spec.parse root')) := by
  rw [answer_parse hindependent, answer_parse hindependent]
  refine collect_match ?_ hinit
  exact List.forall₂_map_left_iff.mpr (List.forall₂_map_right_iff.mpr (List.forall₂_same.mpr h))

end Matching

/-! ### Fields that check and convert -/

section Requirement

variable [Build] [LibXrpl] {Value Value' : Type} {key : String} {member : Member Input Value}
  {member' : Member Input' Value'} {verify verify' : FieldView → MaybeError}
  {conv : Converter Value} {conv' : Converter Value'} {unguarded unguarded'} {root : Json}

/-- What a field with one requirement does, written out. -/
theorem result_requirement : ((field key member [.requirement verify] conv unguarded).outcome
    root).result = (do
      verify (rootChild root key)
      if !(rootChild root key).present then pure id
      else (fun value out => member.assign out value) <$> conv.parse (rootChild root key)) := by
  have hskips : skipsField [(.requirement verify : Item Value)] root = false := by
    simp [skipsField, Item.skips]
  change (BoundField.outcomeAt _ key root).result = _
  simp only [BoundField.outcomeAt, hskips, Bool.false_eq_true, if_false, BoundField.onView,
    runProcessors_requirement]
  cases verify (rootChild root key) with
  | error failure => rfl
  | ok _ => rfl

variable {R : Input → Input' → Prop} {S : Value → Value' → Prop}

/-- Two fields agree when their checks and their converters do. -/
theorem field_agree
    (hverify : Agree Eq (verify (rootChild root key)) (verify' (rootChild root key)))
    (hconv : (rootChild root key).present = true →
      Agree S (conv.parse (rootChild root key)) (conv'.parse (rootChild root key)))
    (hassign : ∀ value value' out out', S value value' → R out out' →
      R (member.assign out value) (member'.assign out' value')) :
    Agree (KeepRelated R)
      ((field key member [.requirement verify] conv unguarded).outcome root).result
      ((field key member' [.requirement verify'] conv' unguarded').outcome root).result := by
  rw [result_requirement, result_requirement]
  apply hverify.bind
  intro _ _ _
  split
  · exact .ok fun _ _ hout => hout
  · rename_i hpresent
    apply (hconv (by simpa using hpresent)).map
    intro value value' hvalue
    exact fun out out' hout => hassign value value' out out' hvalue hout

/-- One field follows another when its check and its converter do. -/
theorem field_follows
    (hverify : Follows Eq (verify (rootChild root key)) (verify' (rootChild root key)))
    (hconv : (rootChild root key).present = true →
      Follows S (conv.parse (rootChild root key)) (conv'.parse (rootChild root key)))
    (hassign : ∀ value value' out out', S value value' → R out out' →
      R (member.assign out value) (member'.assign out' value')) :
    Follows (KeepRelated R)
      ((field key member [.requirement verify] conv unguarded).outcome root).result
      ((field key member' [.requirement verify'] conv' unguarded').outcome root).result := by
  rw [result_requirement, result_requirement]
  apply hverify.bind
  intro _ _ _
  split
  · exact .of_agree (.ok fun _ _ hout => hout)
  · rename_i hpresent
    apply (hconv (by simpa using hpresent)).map
    intro value value' hvalue
    exact fun out out' hout => hassign value value' out out' hvalue hout

end Requirement

/-! ## One list of outcomes -/

section Collect

variable {P : Input → Prop} {outcomes : List (Outcome Input)} {out input : Input}

/-- A property that every field's update keeps holds of the parsed input. -/
theorem collect_preserves
    (h : ∀ o ∈ outcomes, ∀ update, o.result = .ok update → ∀ out, P out → P (update out))
    (hout : P out) (hrun : collect outcomes out = .ok input) : P input := by
  induction outcomes generalizing out with
  | nil =>
      cases hrun
      exact hout
  | cons o rest ih =>
      rw [collect_cons] at hrun
      cases hupdate : o.result with
      | error failure =>
          rw [hupdate] at hrun
          cases hrun
      | ok update =>
          rw [hupdate] at hrun
          exact ih (fun o ho => h o (by simp [ho])) (h o (by simp) update hupdate out hout) hrun

/-- What one outcome establishes and the others preserve holds in the end. -/
theorem collect_establishes {o : Outcome Input} (ho : o ∈ outcomes)
    (hestablishes : ∀ update, o.result = .ok update → ∀ out, P (update out))
    (h : ∀ o ∈ outcomes, ∀ update, o.result = .ok update → ∀ out, P out → P (update out))
    (hrun : collect outcomes out = .ok input) : P input := by
  induction outcomes generalizing out with
  | nil => cases ho
  | cons first rest ih =>
      rw [collect_cons] at hrun
      cases hupdate : first.result with
      | error failure =>
          rw [hupdate] at hrun
          cases hrun
      | ok update =>
          rw [hupdate] at hrun
          have hrest : ∀ o ∈ rest, ∀ update, o.result = .ok update →
              ∀ out, P out → P (update out) := fun o ho => h o (by simp [ho])
          rcases List.mem_cons.mp ho with rfl | ho
          · exact collect_preserves hrest (hestablishes update hupdate out) hrun
          · exact ih ho hrest hrun

end Collect

/-! ## What a field does to the `Input` -/

/-- A field is skipped, or its items run, and then the defaults are applied or the value
is assigned. -/
theorem BoundField.update_cases {field : BoundField Input} {key : String} {root : Json}
    {update : Input → Input} (h : (field.outcomeAt key root).result = .ok update) :
    (skipsField field.items root = true ∧ update = id) ∨
      ∃ v, runProcessors field.items (rootChild root key) = .ok () v ∧
        ((v.present = false ∧ update = field.applyDefaults) ∨
          (v.present = true ∧ ∃ value, field.conv.parse v = .ok value ∧
            update = fun out => field.member.assign out value)) := by
  unfold outcomeAt at h
  cases hskips : skipsField field.items root with
  | true =>
      simp only [hskips, if_true] at h
      exact .inl ⟨rfl, (Except.ok.inj h).symm⟩
  | false =>
      simp only [hskips, Bool.false_eq_true, if_false, onView] at h
      refine .inr ?_
      cases hrun : runProcessors field.items (rootChild root key) with
      | error failure v =>
          rw [hrun] at h
          cases h
      | ok _ v =>
          rw [hrun] at h
          refine ⟨v, rfl, ?_⟩
          cases hpresent : v.present with
          | false =>
              simp only [hpresent, Bool.not_false, if_true] at h
              exact .inl ⟨rfl, (Except.ok.inj h).symm⟩
          | true =>
              simp only [hpresent, Bool.not_true, Bool.false_eq_true, if_false] at h
              refine .inr ⟨rfl, ?_⟩
              cases hvalue : field.conv.parse v with
              | error failure =>
                  rw [hvalue] at h
                  cases h
              | ok value =>
                  rw [hvalue] at h
                  exact ⟨value, rfl, (Except.ok.inj h).symm⟩

namespace Field

/-- Of the member the field is bound to. -/
def OfMember (P : ∀ {Value : Type}, Member Input Value → Prop) : Field Input → Prop
  | .bound field => P field.member
  | .aliased _ field => P field.member
  | .ledgerSelector member => P member
  | .unbound _ => True

/-- What holds of a field's member carries over along an implication. -/
theorem OfMember.imp {P P' : ∀ {Value : Type}, Member Input Value → Prop}
    (hP : ∀ {Value : Type} (member : Member Input Value), P member → P' member)
    {field : Field Input} (h : field.OfMember P) : field.OfMember P' := by
  cases field with
  | bound field => exact hP field.member h
  | aliased alternateKey field => exact hP field.member h
  | ledgerSelector member => exact hP member h
  | unbound field => trivial

variable {Q : (Input → Input) → Prop}

theorem foldl_induction {β : Type} {step : Input → β → Input}
    (hstep : ∀ update b, Q update → Q fun out => step (update out) b) (bs : List β)
    (update : Input → Input) (hupdate : Q update) : Q fun out => bs.foldl step (update out) := by
  induction bs generalizing update with
  | nil => exact hupdate
  | cons b rest ih => exact ih _ (hstep update b hupdate)

/-- A property of updates that assignments keep holds of the defaults. -/
theorem applyDefaults_induction {field : BoundField Input} (hid : Q id)
    (hassign : ∀ update value, Q update → Q fun out => field.member.assign (update out) value) :
    Q field.applyDefaults := by
  refine foldl_induction ?_ field.items id hid
  intro update item hupdate
  cases item with
  | defaultTo value => exact hassign update value hupdate
  | _ => exact hupdate

/-- A property of updates that assignments keep holds of what a field does. -/
theorem outcomeAt_induction {field : BoundField Input} (hid : Q id)
    (hassign : ∀ update value, Q update → Q fun out => field.member.assign (update out) value)
    {key : String} {root : Json} {update : Input → Input}
    (h : (field.outcomeAt key root).result = .ok update) : Q update := by
  obtain ⟨-, rfl⟩ | ⟨v, -, ⟨-, rfl⟩ | ⟨-, value, -, rfl⟩⟩ := BoundField.update_cases h
  · exact hid
  · exact applyDefaults_induction hid hassign
  · exact hassign id value hid

/-- All a field does to the `Input` is to assign to its member. -/
theorem update_induction [Build] [LibXrpl] {field : Field Input} (hid : Q id)
    (hassign : field.OfMember fun member => ∀ update value, Q update →
      Q fun out => member.assign (update out) value) {root : Json} {update : Input → Input}
    (h : (field.outcome root).result = .ok update) : Q update := by
  cases field with
  | bound field => exact outcomeAt_induction hid hassign h
  | aliased alternateKey field =>
      simp only [outcome, outcomeAliased] at h
      split at h
      · split at h
        · cases h
        · exact outcomeAt_induction hid hassign h
      · exact outcomeAt_induction hid hassign h
  | ledgerSelector member =>
      simp only [outcome, outcomeSelector] at h
      cases hledger : selectLedger root with
      | error failure =>
          rw [hledger] at h
          cases h
      | ok ledger =>
          rw [hledger] at h
          obtain rfl := Except.ok.inj h
          cases ledger with
          | none => exact hid
          | some ledger => exact hassign id ledger hid
  | unbound field =>
      simp only [outcome, outcomeUnbound] at h
      split at h
      · obtain rfl := Except.ok.inj h
        exact hid
      · cases h

/-! ### Members a field leaves alone -/

/-- What `get` reads off the `Input` is not what the field assigns to. -/
def Keeps {β : Type} (get : Input → β) (field : Field Input) : Prop :=
  field.OfMember fun member => ∀ out value, get (member.assign out value) = get out

section

variable {Value β : Type} {key : String} {member : Member Input Value} {items : List (Item Value)}
  {conv : Converter Value} {unguarded} {get : Input → β}

@[simp] theorem key_field : (field key member items conv unguarded).key = key := rfl

@[simp] theorem key_unboundField {items : List (Item Unit)} :
    (unboundField key items : Field Input).key = key := rfl

@[simp] theorem keeps_field : (field key member items conv unguarded).Keeps get ↔
    ∀ out value, get (member.assign out value) = get out := Iff.rfl

@[simp] theorem keeps_ledgerSelector {member : Member Input LedgerSpecifier} :
    (Dsl.ledgerSelector member).Keeps get ↔ ∀ out value, get (member.assign out value) = get out :=
  Iff.rfl

@[simp] theorem keeps_unboundField {items : List (Item Unit)} :
    (unboundField key items : Field Input).Keeps get := trivial

end

/-- A field that writes elsewhere leaves the reading as it was. -/
theorem Keeps.update [Build] [LibXrpl] {β : Type} {get : Input → β} {field : Field Input}
    (hfield : field.Keeps get) {root : Json} {update : Input → Input}
    (h : (field.outcome root).result = .ok update) (out : Input) :
    get (update out) = get out := by
  refine update_induction (Q := fun update => get (update out) = get out) rfl (hfield.imp ?_) h
  intro Value member hmember update value hupdate
  exact (hmember _ value).trans hupdate

/-- Assigning the same value keeps related `Input`s related. -/
def Respects (R : Input → Input → Prop) (field : Field Input) : Prop :=
  field.OfMember fun member => ∀ out out' value, R out out' →
    R (member.assign out value) (member.assign out' value)

/-- A field that respects a relation keeps two inputs related. -/
theorem Respects.update [Build] [LibXrpl] {R : Input → Input → Prop} {field : Field Input}
    (hfield : field.Respects R) {root : Json} {update : Input → Input}
    (h : (field.outcome root).result = .ok update) : KeepRelated R update update := by
  refine update_induction (Q := fun update => KeepRelated R update update)
    (fun _ _ hout => hout) (hfield.imp ?_) h
  intro Value member hmember update value hupdate out out' hout
  exact hmember _ _ value (hupdate out out' hout)

end Field

end RpcSpec.Dsl
