import RpcSpec.Admission.ProtobufProgress
import Mathlib.Logic.Relation
set_option autoImplicit false

/-!
# The messages the protobuf visitor accepts

The wire grammar as a relation on bytes, written without reference to the
visitor: a message is a concatenation of complete fields.  The visitor does not
accept exactly these: it steps over the bare tag of a wire type its switch has no
case for, and over a length that wraps.

`Walk` follows the visitor's steps on the bytes alone.  Along a walk over a
well-formed message every position is a field boundary; that invariant carries
the results of this module.
-/

namespace RpcSpec.Admission

open RpcSpec.Foundation
open RpcSpec.Foundation.Base128

variable {σ : Type}

/-! ## The grammar -/

/-- One complete field: a tag and the body its wire type announces. -/
inductive WellFormedField : Bytes → Prop
  | varint {t b : Bytes} {tag v : Nat} : Numeral t tag → tag % 8 = 0 → Numeral b v →
      WellFormedField (t ++ b)
  | fixed {t b : Bytes} {tag : Nat} : Numeral t tag →
      fixedWidth (tag % 8) = some b.length → WellFormedField (t ++ b)
  | len {t l b : Bytes} {tag : Nat} : Numeral t tag → tag % 8 = 2 →
      Numeral l b.length → WellFormedField (t ++ (l ++ b))

/-- A concatenation of complete fields. -/
inductive WellFormedMessage : Bytes → Prop
  | nil : WellFormedMessage []
  | cons {f m : Bytes} : WellFormedField f → WellFormedMessage m →
      WellFormedMessage (f ++ m)

/-- A field has a tag and something after it. -/
theorem WellFormedField.two_le_length {f : Bytes} (h : WellFormedField f) :
    2 ≤ f.length := by
  cases h with
  | varint ht _ hv =>
      have htag := ht.length_pos
      have hbody := hv.length_pos
      rw [List.length_append]
      omega
  | fixed ht hw =>
      have htag := ht.length_pos
      have hbody := fixedWidth_pos hw
      rw [List.length_append]
      omega
  | len ht _ hl =>
      have htag := ht.length_pos
      have hprefix := hl.length_pos
      rw [List.length_append, List.length_append]
      omega

/-- A message that is not empty starts with a field. -/
theorem WellFormedMessage.uncons {m : Bytes} (h : WellFormedMessage m) (hne : m ≠ []) :
    ∃ f rest, m = f ++ rest ∧ WellFormedField f ∧ WellFormedMessage rest := by
  cases h with
  | nil => exact absurd rfl hne
  | cons hf hm => exact ⟨_, _, rfl, hf, hm⟩

/-! ## Fields of the grammar at a position -/

/-- What stands at `p`, when the bytes from `p` on are `b` and a rest. -/
theorem drop_add_of_drop {bytes : ByteSpan} {p : Nat} {b rest : Bytes}
    (h : bytes.bytes.drop p = b ++ rest) : bytes.bytes.drop (p + b.length) = rest := by
  rw [← List.drop_drop, h, List.drop_left]

theorem size_of_drop {bytes : ByteSpan} {p : Nat} {b rest : Bytes}
    (h : bytes.bytes.drop p = b ++ rest) (hpos : 0 < b.length) :
    p + b.length + rest.length = bytes.size := by
  have hlen := congrArg List.length h
  simp only [List.length_drop, List.length_append] at hlen
  simp only [ByteSpan.size]
  omega

/-- A numeral of the grammar is one the reader decodes, or it has more than ten
bytes. -/
theorem numeral_at {bytes : ByteSpan} {p v : Nat} {b rest : Bytes} (h : Numeral b v)
    (hdrop : bytes.bytes.drop p = b ++ rest) :
    VarintAt bytes p v (p + b.length) ∨ LongVarint bytes p := by
  rcases varint_cases bytes p with ⟨v', q, hv⟩ | hcut | hlong
  · obtain ⟨b', rest', hdrop', hnum, hlen, rfl⟩ := hv
    obtain ⟨rfl, rfl, _⟩ := hnum.prefixFree h (hdrop'.symm.trans hdrop)
    exact .inl ⟨b', rest', hdrop', hnum, hlen, rfl⟩
  · exact absurd (hdrop ▸ hcut.1) h.not_continues
  · exact .inr hlong

/-- A complete field is stepped over, to its end, unless a varint of it has more
than ten bytes. -/
theorem WellFormedField.step {bytes : ByteSpan} {p : Nat} {f rest : Bytes}
    (h : WellFormedField f) (hdrop : bytes.bytes.drop p = f ++ rest) :
    WireStep bytes p (p + f.length) ∨ LongField bytes p := by
  have hend := size_of_drop hdrop (by have := h.two_le_length; omega)
  have hsize : bytes.size < 2 ^ 63 := bytes.size_lt
  cases h with
  | @varint t b tag v ht h0 hv =>
      rw [List.append_assoc] at hdrop
      rcases numeral_at ht hdrop with htag | hlong
      · rcases numeral_at hv (drop_add_of_drop hdrop) with hbody | hlong
        · rw [List.length_append, ← Nat.add_assoc]
          exact .inl (.varint htag h0 hbody)
        · exact .inr (.varint htag (.inl h0) hlong)
      · exact .inr (.tag hlong)
  | @fixed t b tag ht hw =>
      rw [List.append_assoc] at hdrop
      rw [List.length_append] at hend ⊢
      rcases numeral_at ht hdrop with htag | hlong
      · rw [← Nat.add_assoc]
        exact .inl (.fixed htag hw (by omega))
      · exact .inr (.tag hlong)
  | @len t l b tag ht h2 hl =>
      rw [List.append_assoc, List.append_assoc] at hdrop
      rw [List.length_append, List.length_append] at hend ⊢
      rcases numeral_at ht hdrop with htag | hlong
      · rcases numeral_at hl (drop_add_of_drop hdrop) with hbody | hlong
        · have hmod : (p + t.length + l.length + b.length) % 2 ^ 64 =
              p + (t.length + (l.length + b.length)) := by omega
          have hstep := WireStep.len htag h2 hbody (by omega)
          rw [hmod] at hstep
          exact .inl hstep
        · exact .inr (.varint htag (.inr h2) hlong)
      · exact .inr (.tag hlong)

/-! ## Walks -/

theorem WireStep.unique {bytes : ByteSpan} {p q q' : Nat} (h : WireStep bytes p q)
    (h' : WireStep bytes p q') : q = q' := by
  rcases h.decodeField with ⟨event, he⟩ | hno <;>
    rcases h'.decodeField with ⟨event', he'⟩ | hno' <;> simp_all

/-- The visitor, at `p`, goes on to `q`. -/
def WalkStep (bytes : ByteSpan) (p q : Nat) : Prop := p < bytes.size ∧ WireStep bytes p q

/-- From the first byte the visitor comes to `p`. -/
def Walk (bytes : ByteSpan) (p : Nat) : Prop :=
  Relation.ReflTransGen (WalkStep bytes) 0 p

/-- The bytes from `p` on are a well-formed message. -/
def Boundary (bytes : ByteSpan) (p : Nat) : Prop :=
  WellFormedMessage (bytes.bytes.drop p)

/-- At a field boundary that is not the end, a complete field starts, and the
next boundary is behind it. -/
theorem Boundary.field {bytes : ByteSpan} {p : Nat} (h : Boundary bytes p)
    (hpos : p < bytes.size) :
    ∃ q, p < q ∧ (WireStep bytes p q ∨ LongField bytes p) ∧ Boundary bytes q := by
  have hne : bytes.bytes.drop p ≠ [] := by
    rw [← List.length_pos_iff, List.length_drop]
    simp only [ByteSpan.size] at hpos
    omega
  obtain ⟨f, rest, hdrop, hf, hm⟩ := h.uncons hne
  have hlength := hf.two_le_length
  refine ⟨p + f.length, by omega, hf.step hdrop, ?_⟩
  rwa [Boundary, drop_add_of_drop hdrop]

/-- No field is cut off at a boundary. -/
theorem Boundary.not_cut {bytes : ByteSpan} {p : Nat} (h : Boundary bytes p)
    (hpos : p < bytes.size) : ¬ CutField bytes p := by
  intro hcut
  have hinvalid := hcut.decodeField
  obtain ⟨q, _, hstep | hlong, _⟩ := h.field hpos
  · rcases hstep.decodeField with ⟨event, he⟩ | hno <;> simp_all
  · simp_all [hlong.decodeField]

theorem Boundary.next {bytes : ByteSpan} {p q : Nat} (h : Boundary bytes p)
    (hstep : WalkStep bytes p q) : Boundary bytes q := by
  obtain ⟨q', _, hstep' | hlong, hnext⟩ := h.field hstep.1
  · rwa [hstep.2.unique hstep']
  · have hundef := hlong.decodeField
    rcases hstep.2.decodeField with ⟨event, he⟩ | hno <;> simp_all

/-- A walk over a well-formed message comes to boundaries only. -/
theorem Walk.boundary {bytes : ByteSpan} {p : Nat} (h : Walk bytes p)
    (hmessage : WellFormedMessage bytes.bytes) : Boundary bytes p := by
  induction h with
  | refl => simpa [Boundary] using hmessage
  | tail _ hstep ih => exact ih.next hstep

/-! ## Walks and visits -/

section AdmitAll

variable {bytes : ByteSpan} {check : Check σ} {s : σ} {options : ProtobufVisitorOptions}

theorem VisitReaches.walk {state : VisitState σ}
    (h : VisitReaches bytes check s options state) : Walk bytes state.pos :=
  While.Reaches.invariant (visitLoop bytes check options)
    (fun state => Walk bytes state.pos)
    (fun st _ hwalk hguard hbody =>
      hwalk.tail ⟨by simpa [visitLoop] using hguard, visitBody_next hbody⟩)
    h .refl

variable (options) in
/-- A check that admits everything lets the visit take every step. -/
theorem visitBody_of_wireStep (hall : AdmitsAll check) {state : VisitState σ} {q : Nat}
    (h : WireStep bytes state.pos q) :
    ∃ s', visitBody bytes check options state = .next ⟨q, s'⟩ := by
  rcases h.decodeField with ⟨event, he⟩ | hno
  · have hadmit := hall state.check event
    refine ⟨(check state.check event).2, ?_⟩
    simp [visitBody, he, offer, AdmissionDecision.dropped_eq_not_admitted, hadmit]
  · exact ⟨state.check, by simp [visitBody, hno]⟩

variable (s options) in
theorem Walk.visitReaches (hall : AdmitsAll check) {p : Nat} (h : Walk bytes p) :
    ∃ s', VisitReaches bytes check s options ⟨p, s'⟩ := by
  induction h with
  | refl => exact ⟨s, .refl _⟩
  | tail _ hstep ih =>
      obtain ⟨s', hreach⟩ := ih
      obtain ⟨s'', hbody⟩ := visitBody_of_wireStep options hall
        (show WireStep bytes (VisitState.mk _ s').pos _ from hstep.2)
      exact ⟨s'', hreach.snoc_safe hstep.1 hbody⟩

/-- A pass that returns under a check that admits everything has come to a field
that is cut off. -/
theorem visitBody_ret (hall : AdmitsAll check) {state : VisitState σ}
    {result : AdmissionDecision × σ}
    (h : visitBody bytes check options state = .ret result) :
    CutField bytes state.pos ∧ result.1 = options.invalidPayload := by
  rcases field_cases bytes state.pos with ⟨q, hstep⟩ | hcut | hlong
  · obtain ⟨s', hbody⟩ := visitBody_of_wireStep options hall hstep
    rw [h] at hbody
    cases hbody
  · simp only [visitBody, hcut.decodeField] at h
    cases h
    exact ⟨hcut, rfl⟩
  · simp [visitBody, hlong.decodeField] at h

/-- A visit with a check that admits everything returns in one of two ways: it
admits at the end of the bytes, or it drops at a field that is cut off. -/
theorem VisitReturns.cases (hall : AdmitsAll check) {result : AdmissionDecision × σ}
    (h : VisitReturns bytes check s options result) :
    (result.1 = .admit_ 0) ∨
      (result.1 = options.invalidPayload ∧
        ∃ p, Walk bytes p ∧ p < bytes.size ∧ CutField bytes p) := by
  obtain ⟨n, hn⟩ := h
  obtain ⟨last, hreach, ⟨_, hexit⟩ | ⟨hguard, hbody⟩⟩ := While.Returns.last hn
  · exact .inl (by rw [hexit]; rfl)
  · obtain ⟨hcut, hresult⟩ := visitBody_ret hall hbody
    exact .inr ⟨hresult, last.pos, VisitReaches.walk hreach,
      by simpa [visitLoop] using hguard, hcut⟩

variable (s options) in
/-- Coming to a field that is cut off returns the invalid-payload drop. -/
theorem visitReturns_of_cut (hall : AdmitsAll check) {p : Nat} (hwalk : Walk bytes p)
    (hpos : p < bytes.size) (hcut : CutField bytes p) :
    ∃ s', VisitReturns bytes check s options (options.invalidPayload, s') := by
  obtain ⟨s', hreach⟩ := hwalk.visitReaches s options hall
  refine ⟨s', (While.Reaches.returns_iff hreach).mpr (While.returns_of_ret ?_ ?_)⟩
  · simpa [visitLoop] using hpos
  · simp [visitLoop, visitBody, hcut.decodeField]

/-- Coming to a varint of more than ten bytes returns nothing. -/
theorem not_visitReturns_of_long (hall : AdmitsAll check) {p : Nat} (hwalk : Walk bytes p)
    (hpos : p < bytes.size) (hlong : LongField bytes p) (result : AdmissionDecision × σ) :
    ¬ VisitReturns bytes check s options result := by
  obtain ⟨s', hreach⟩ := hwalk.visitReaches s options hall
  exact While.Reaches.not_returns_of_undefined hreach (by simpa [visitLoop] using hpos)
    (visitBody_undefined_iff.mpr hlong) result

variable (s options) in
/-- A well-formed message without long varints is admitted.  The measure is the
number of bytes left; the invariant is that the position is a boundary the walk
comes to. -/
theorem visitReturns_of_wellFormed (hall : AdmitsAll check)
    (hmessage : WellFormedMessage bytes.bytes)
    (hshort : ∀ p, Walk bytes p → p < bytes.size → ¬ LongField bytes p) :
    ∃ s', VisitReturns bytes check s options (.admit_ 0, s') := by
  have hguard : ∀ state : VisitState σ,
      (visitLoop bytes check options).guard state = true → state.pos < bytes.size := by
    intro state h
    simpa [visitLoop] using h
  have hreturns : ∃ result, (visitLoop bytes check options).run bytes.size ⟨0, s⟩ =
      .returned result := by
    refine While.run_of_variant (visitLoop bytes check options)
      (fun state => Walk bytes state.pos) (fun state => bytes.size - state.pos)
      ?_ ?_ ?_ .refl (by simp)
    · intro state hwalk hg hundef
      exact hshort _ hwalk (hguard state hg) (visitBody_undefined_iff.mp hundef)
    · intro state state' hwalk hg hbody
      have hpos := hguard state hg
      have hstep := visitBody_next hbody
      obtain ⟨q, hlt, hnext | hlong, _⟩ := (hwalk.boundary hmessage).field hpos
      · refine ⟨hwalk.tail ⟨hpos, hstep⟩, ?_⟩
        rw [hstep.unique hnext]
        omega
      · exact absurd hlong (hshort _ hwalk hpos)
    · intro state _ hg
      have := hguard state hg
      show 0 < bytes.size - state.pos
      omega
  obtain ⟨result, hrun⟩ := hreturns
  have hresult : VisitReturns bytes check s options result := ⟨_, hrun⟩
  rcases hresult.cases hall with hadmit | ⟨_, p, hwalk, hpos, hcut⟩
  · exact ⟨result.2, by rw [← hadmit]; exact hresult⟩
  · exact absurd hcut ((hwalk.boundary hmessage).not_cut hpos)

end AdmitAll

/-! ## Acceptance -/

/-- The visit admits exactly the well-formed messages and drops every other byte
sequence at the cost of an invalid payload. -/
structure AcceptsExactly (bytes : ByteSpan) (check : Check σ) (s : σ)
    (options : ProtobufVisitorOptions) : Prop where
  admits : (∃ decision s', VisitReturns bytes check s options (decision, s') ∧
    decision.admitted = true) ↔ WellFormedMessage bytes.bytes
  drops : ¬ WellFormedMessage bytes.bytes →
    ∃ decision s', VisitReturns bytes check s options (decision, s') ∧
      decision.dropped = true ∧ decision.tokenCost = options.costForInvalidPayload

/-- The visitor decides about `bytes` as the grammar does exactly when the bytes
are a well-formed message whose fields have no varint of more than ten bytes, or
the walk over the bytes comes to a field that is cut off. -/
theorem acceptsExactly_iff (bytes : ByteSpan) (check : Check σ) (hall : AdmitsAll check)
    (s : σ) (options : ProtobufVisitorOptions) :
    AcceptsExactly bytes check s options ↔
      (WellFormedMessage bytes.bytes ∧
        ∀ p, Walk bytes p → p < bytes.size → ¬ LongField bytes p) ∨
      (∃ p, Walk bytes p ∧ p < bytes.size ∧ CutField bytes p) := by
  constructor
  · intro h
    by_cases hmessage : WellFormedMessage bytes.bytes
    · obtain ⟨decision, s', hreturns, _⟩ := h.admits.mpr hmessage
      refine .inl ⟨hmessage, ?_⟩
      intro p hwalk hpos hlong
      exact not_visitReturns_of_long hall hwalk hpos hlong _ hreturns
    · obtain ⟨decision, s', hreturns, hdrop, _⟩ := h.drops hmessage
      rcases hreturns.cases hall with hadmit | ⟨_, hcut⟩
      · rw [show decision = .admit_ 0 from hadmit] at hdrop
        cases hdrop
      · exact .inr hcut
  · rintro (⟨hmessage, hshort⟩ | ⟨p, hwalk, hpos, hcut⟩)
    · obtain ⟨s', hreturns⟩ := visitReturns_of_wellFormed s options hall
        hmessage hshort
      exact ⟨⟨fun _ => hmessage, fun _ => ⟨.admit_ 0, s', hreturns, rfl⟩⟩,
        fun hnot => absurd hmessage hnot⟩
    · have hnot : ¬ WellFormedMessage bytes.bytes := fun hmessage =>
        (hwalk.boundary hmessage).not_cut hpos hcut
      obtain ⟨s', hreturns⟩ := visitReturns_of_cut s options hall
        hwalk hpos hcut
      refine ⟨⟨?_, fun hmessage => absurd hmessage hnot⟩,
        fun _ => ⟨options.invalidPayload, s', hreturns, rfl, rfl⟩⟩
      rintro ⟨decision, s'', hreturns', hadmit⟩
      cases While.Returns.unique hreturns hreturns'
      cases hadmit

/-- The tag of a field without its body. -/
def bareTagPayload : ByteSpan := ⟨[0x08], by decide⟩

/-- A cut-off message is dropped, as the grammar asks. -/
theorem bareTagPayload_acceptsExactly : AcceptsExactly bareTagPayload recording [] {} :=
  (acceptsExactly_iff bareTagPayload recording recording_admitsAll [] {}).mpr
    (.inr ⟨0, .refl, by decide,
      .varint (show VarintAt bareTagPayload 0 8 1 from
        ⟨[0x08], [], rfl, .last 0x08 (by decide), by decide, rfl⟩) (.inl rfl)
        ⟨by simp [bareTagPayload, Continues], by simp [bareTagPayload]⟩⟩)

/-- A tag of field 1 and wire type 6, which the format does not have. -/
def wireTypeSixPayload : ByteSpan := ⟨[0x0E], by decide⟩

/-- The visitor admits `wireTypeSixPayload`, which is no message. -/
theorem wireTypeSixPayload_not_acceptsExactly :
    ¬ AcceptsExactly wireTypeSixPayload recording [] {} := by
  intro h
  have hreturns : VisitReturns wireTypeSixPayload recording [] {} (.admit_ 0, []) :=
    ⟨1, by decide⟩
  have hmessage := h.admits.mp ⟨_, _, hreturns, rfl⟩
  obtain ⟨f, rest, heq, hf, _⟩ := hmessage.uncons (by decide)
  have hlength := congrArg List.length heq
  have htwo := hf.two_le_length
  simp only [wireTypeSixPayload, List.length_append, List.length_singleton] at hlength
  omega

end RpcSpec.Admission
