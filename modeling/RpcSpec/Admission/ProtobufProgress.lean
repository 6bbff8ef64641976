import RpcSpec.Admission.ProtobufWire
set_option autoImplicit false

/-!
# Progress and span safety of the protobuf visitor

What makes a visit safe: every pass that goes on moves the position forward and
not past the end, so the loop ends within as many passes as there are bytes; and
every span handed to the check is exactly the body its field declares.

The bound check of a length-delimited field compares `pos + len` after the sum
has wrapped, so a length close to `2 ^ 64` passes it.  The visit is then unsafe:
the span is not the declared one and the position moves back.  Apart from a
varint of more than ten bytes, at which the visit has no defined outcome, this is
the only way to be unsafe.
-/

namespace RpcSpec.Admission

open RpcSpec.Foundation

variable {σ : Type}

/-- The length-delimited field at `p` declares a body whose end, as a natural
number, is `2 ^ 64` or beyond. -/
def LengthWraps (bytes : ByteSpan) (p : Nat) : Prop :=
  ∃ (tag : UInt64) (q : Nat) (len : UInt64) (r : Nat),
    readVarint bytes p = .ok tag q ∧ (tag &&& 7).toNat = 2 ∧
      readVarint bytes q = .ok len r ∧ 2 ^ 64 ≤ r + len.toNat

/-- `body` starts right after the length prefix of the field at `p`, has exactly
the length decoded there, and lies inside the input. -/
def SpanExact (bytes : ByteSpan) (p : Nat) (body : SubSpan) : Prop :=
  ∃ (tag : UInt64) (q : Nat) (len : UInt64) (r : Nat),
    readVarint bytes p = .ok tag q ∧ readVarint bytes q = .ok len r ∧
      body.base = bytes ∧ body.offset = r ∧ body.count = len.toNat ∧ body.InBounds

/-- Progress, termination and span safety of one visit. -/
structure VisitSafe (bytes : ByteSpan) (check : Check σ) (s : σ)
    (options : ProtobufVisitorOptions) : Prop where
  /-- a pass that does not return moves the position forward, inside the input -/
  progress : ∀ state state' : VisitState σ, VisitReaches bytes check s options state →
    state.pos < bytes.size → visitBody bytes check options state = .next state' →
    state.pos < state'.pos ∧ state'.pos ≤ bytes.size
  /-- the loop returns within as many passes as there are bytes -/
  ends : ∃ result, visitProtobuf bytes check s options bytes.size = .returned result
  /-- the span of every event handed to the check is exact -/
  spans : ∀ (state : VisitState σ) (event : VisitEvent) (pos : Nat) (body : SubSpan),
    VisitReaches bytes check s options state → state.pos < bytes.size →
    decodeField bytes state.pos = .event event pos → event.value = .bytes body →
    SpanExact bytes state.pos body

/-! ## One field -/

/-- The event of a length-delimited field comes from the `Len` case. -/
theorem decodeField_bytes {bytes : ByteSpan} {p pos : Nat} {event : VisitEvent}
    {body : SubSpan} (h : decodeField bytes p = .event event pos)
    (hbody : event.value = .bytes body) :
    ∃ (tag : UInt64) (q : Nat) (len : UInt64) (r : Nat),
      readVarint bytes p = .ok tag q ∧ (tag &&& 7).toNat = 2 ∧
        readVarint bytes q = .ok len r ∧ body = bytes.subspan r len.toNat ∧
        sizeAdd r len.toNat ≤ bytes.size := by
  unfold decodeField at h
  split at h
  · cases h
  · cases h
  · rename_i tag q htag
    unfold handleField at h
    split at h
    · -- a varint field carries an integer
      unfold handleVarint at h
      split at h <;> cases h
      cases hbody
    · unfold handleInt at h
      split at h <;> cases h
      cases hbody
    · rename_i hwire
      unfold handleLen at h
      split at h
      · cases h
      · cases h
      · rename_i len r hlen
        split at h
        · cases h
        · rename_i hfit
          cases h
          cases hbody
          exact ⟨tag, q, len, r, htag, hwire, hlen, rfl, by omega⟩
    · unfold handleInt at h
      split at h <;> cases h
      cases hbody
    · cases h

/-- Unless its length wraps, a field the visitor steps over ends behind its
start and inside the input. -/
theorem WireStep.advances {bytes : ByteSpan} {p q : Nat} (h : WireStep bytes p q)
    (hwrap : ¬ LengthWraps bytes p) : p < q ∧ q ≤ bytes.size := by
  cases h with
  | varint htag _ hv =>
      have h1 := htag.lt
      have h2 := hv.lt
      omega
  | fixed htag hw hfit =>
      have h1 := htag.lt
      omega
  | @len v q len r htag h2 hlen hfit =>
      have h1 := htag.lt
      have h3 := hlen.lt
      have hsize : bytes.size < 2 ^ 63 := bytes.size_lt
      obtain ⟨tag, htagRead, htagVal⟩ := htag.readVarint
      obtain ⟨out, hout, hval⟩ := hlen.readVarint
      have hnowrap : r + len % 2 ^ 64 < 2 ^ 64 := by
        by_contra hge
        refine hwrap ⟨tag, q, out, r, htagRead, ?_, hout, by omega⟩
        rw [wireType_toNat htagVal, h2]
      have hend : (r + len) % 2 ^ 64 = r + len % 2 ^ 64 := by omega
      omega
  | noCase htag _ => exact htag.lt

/-- Unless the length wraps, the span of a length-delimited field is exact. -/
theorem spanExact_of_not_wraps {bytes : ByteSpan} {p pos : Nat} {event : VisitEvent}
    {body : SubSpan} (hwrap : ¬ LengthWraps bytes p)
    (h : decodeField bytes p = .event event pos) (hbody : event.value = .bytes body) :
    SpanExact bytes p body := by
  obtain ⟨tag, q, len, r, htag, hwire, hlen, rfl, hfit⟩ := decodeField_bytes h hbody
  have hsize : bytes.size < 2 ^ 63 := bytes.size_lt
  have hnowrap : r + len.toNat < 2 ^ 64 := by
    by_contra hge
    exact hwrap ⟨tag, q, len, r, htag, hwire, hlen, by omega⟩
  have hadd : sizeAdd r len.toNat = r + len.toNat := Nat.mod_eq_of_lt hnowrap
  -- a count that fits is not `dynamic_extent`
  have hcount : len.toNat ≠ 2 ^ 64 - 1 := by omega
  have hcountEq : (bytes.subspan r len.toNat).count = len.toNat := if_neg hcount
  refine ⟨tag, q, len, r, htag, hlen, rfl, rfl, hcountEq, ?_⟩
  rw [SubSpan.InBounds, hcountEq]
  show r + len.toNat ≤ bytes.size
  omega

/-- A length that wraps passes the bound check, and the span handed out for it
is not exact. -/
theorem LengthWraps.not_spanExact {bytes : ByteSpan} {p : Nat} (h : LengthWraps bytes p) :
    ∃ event pos body, decodeField bytes p = .event event pos ∧
      event.value = .bytes body ∧ ¬ SpanExact bytes p body := by
  obtain ⟨tag, q, len, r, htag, hwire, hlen, hge⟩ := h
  have hsize : bytes.size < 2 ^ 63 := bytes.size_lt
  have hr := (readVarint_pos hlen).2
  have hlt := len.toNat_lt
  have hfit : sizeAdd r len.toNat ≤ bytes.size := by
    unfold sizeAdd
    omega
  refine ⟨bytesEvent (tag >>> 3) (bytes.subspan r len.toNat), sizeAdd r len.toNat,
    bytes.subspan r len.toNat, ?_, rfl, ?_⟩
  · simp only [decodeField, htag, hwire, handleField]
    exact handleLen_of_fits hlen hfit _
  · rintro ⟨tag', q', len', r', htag', hlen', _, hoffset, hcount, hin⟩
    rw [htag] at htag'
    cases htag'
    rw [hlen] at hlen'
    cases hlen'
    rw [SubSpan.InBounds, hcount] at hin
    have hin' : r + len.toNat ≤ bytes.size := hin
    omega

/-! ## One pass and a whole visit -/

/-- A pass that goes on steps over the field at its position. -/
theorem visitBody_next {bytes : ByteSpan} {check : Check σ}
    {options : ProtobufVisitorOptions} {state state' : VisitState σ}
    (h : visitBody bytes check options state = .next state') :
    WireStep bytes state.pos state'.pos := by
  rcases field_cases bytes state.pos with ⟨q, hstep⟩ | hcut | hlong
  · have hpos : state'.pos = q := by
      rcases hstep.decodeField with ⟨event, he⟩ | hno
      · simp only [visitBody, he, offer] at h
        split at h <;> cases h
        rfl
      · simp only [visitBody, hno] at h
        cases h
        rfl
    rw [hpos]
    exact hstep
  · simp [visitBody, hcut.decodeField] at h
  · simp [visitBody, hlong.decodeField] at h

theorem visitBody_undefined_iff {bytes : ByteSpan} {check : Check σ}
    {options : ProtobufVisitorOptions} {state : VisitState σ} :
    visitBody bytes check options state = .undefined ↔ LongField bytes state.pos := by
  rw [← decodeField_undefined_iff]
  unfold visitBody
  split
  · rename_i event pos he
    simp only [he, offer]
    split <;> simp
  · simp_all
  · simp_all
  · simp_all

/-- Positions a safe prefix of the visit has come to lie inside the input. -/
theorem VisitReaches.snoc_safe {bytes : ByteSpan} {check : Check σ} {s : σ}
    {options : ProtobufVisitorOptions} {state state' : VisitState σ}
    (h : VisitReaches bytes check s options state) (hpos : state.pos < bytes.size)
    (hbody : visitBody bytes check options state = .next state') :
    VisitReaches bytes check s options state' :=
  Foundation.While.Reaches.snoc h (by simpa [visitLoop] using hpos) hbody

/-- Without wrapping lengths and long varints the loop ends in time.  The
measure of the loop is the number of bytes left; the invariant is that the state
is one the visit reaches. -/
theorem visit_ends {bytes : ByteSpan} {check : Check σ} {s : σ}
    {options : ProtobufVisitorOptions}
    (hsafe : ∀ state : VisitState σ, VisitReaches bytes check s options state →
      state.pos < bytes.size →
      ¬ LengthWraps bytes state.pos ∧ ¬ LongField bytes state.pos) :
    ∃ result, visitProtobuf bytes check s options bytes.size = .returned result := by
  have hguard : ∀ state : VisitState σ,
      (visitLoop bytes check options).guard state = true → state.pos < bytes.size := by
    intro state h
    simpa [visitLoop] using h
  refine While.run_of_variant (visitLoop bytes check options)
    (VisitReaches bytes check s options) (fun state => bytes.size - state.pos)
    ?_ ?_ ?_ (.refl _) (by simp)
  · intro state hreach hg hundef
    exact (hsafe state hreach (hguard state hg)).2 (visitBody_undefined_iff.mp hundef)
  · intro state state' hreach hg hbody
    have hpos := hguard state hg
    have hstep := visitBody_next hbody
    obtain ⟨hlt, hle⟩ := hstep.advances (hsafe state hreach hpos).1
    exact ⟨hreach.snoc_safe hpos hbody, by omega⟩
  · intro state _ hg
    have := hguard state hg
    omega

/-- A visit is safe exactly when none of the fields it comes to is
length-delimited with a length that takes the end of its body to `2 ^ 64` or
beyond, or has a varint of more than ten bytes. -/
theorem visitSafe_iff_lengths_fit (bytes : ByteSpan) (check : Check σ) (s : σ)
    (options : ProtobufVisitorOptions) :
    VisitSafe bytes check s options ↔
      ∀ state : VisitState σ, VisitReaches bytes check s options state →
        state.pos < bytes.size →
        ¬ LengthWraps bytes state.pos ∧ ¬ LongField bytes state.pos := by
  constructor
  · intro h state hreach hpos
    constructor
    · intro hwrap
      obtain ⟨event, pos, body, hdecode, hvalue, hbad⟩ := hwrap.not_spanExact
      exact hbad (h.spans state event pos body hreach hpos hdecode hvalue)
    · intro hlong
      obtain ⟨result, hresult⟩ := h.ends
      exact While.Reaches.not_returns_of_undefined hreach (by simpa [visitLoop] using hpos)
        (visitBody_undefined_iff.mpr hlong) result ⟨bytes.size, hresult⟩
  · intro h
    refine ⟨?_, visit_ends h, ?_⟩
    · intro state state' hreach hpos hbody
      exact (visitBody_next hbody).advances (h state hreach hpos).1
    · intro state event pos body hreach hpos hdecode hvalue
      exact spanExact_of_not_wraps (h state hreach hpos).1 hdecode hvalue

/-- A field of tag `0A` (field 1, length-delimited) and length `2 ^ 64 - 11`. -/
def wrappingPayload : ByteSpan :=
  ⟨[0x0A, 0xF5, 0xFF, 0xFF, 0xFF, 0xFF, 0xFF, 0xFF, 0xFF, 0xFF, 0x01], by decide⟩

/-- After the length prefix of `wrappingPayload` the position is 11; the wrapped
sum is 0, the bound check passes, and the position is 0 again: the visit with a
check that admits everything never ends. -/
theorem wrappingPayload_not_visitSafe :
    ¬ VisitSafe wrappingPayload (fun (u : Unit) _ => (.admit_ 0, u)) () {} := by
  intro h
  have hbody : visitBody wrappingPayload (fun (u : Unit) _ => (.admit_ 0, u)) {} ⟨0, ()⟩ =
      .next ⟨0, ()⟩ := by
    decide
  have := h.progress ⟨0, ()⟩ ⟨0, ()⟩ (.refl _) (by decide) hbody
  omega

end RpcSpec.Admission
