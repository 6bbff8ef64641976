import RpcSpec.Admission.ProtobufGrammar
import RpcSpec.Admission.Reading
set_option autoImplicit false

/-!
# Messages one after another

The bytes of a protobuf message followed by those of another are a message with the fields
of both, and so it is with packed runs.  A visit of the bytes of both is the visit of the
first, and unless that is dropped the visit of the second, with the check as the first has
left it.  The check must not look at where the bytes of a field lie, only at the bytes.
-/

namespace RpcSpec.Admission

open RpcSpec.Foundation
open RpcSpec.Foundation.Base128

variable {σ : Type}

/-! ## What a check may look at -/

/-- The two report the same, their bytes at possibly different places. -/
inductive SameContent : VisitEvent → VisitEvent → Prop
  | refl (event : VisitEvent) : SameContent event event
  | bytes (field : UInt64) {body body' : SubSpan} (hbody : body.InBounds)
      (hbody' : body'.InBounds) (hbytes : body'.toSpan = body.toSpan) :
      SameContent (bytesEvent field body) (bytesEvent field body')

/-- The check makes no difference between events that report the same. -/
def ReadsContent (check : Check σ) : Prop :=
  ∀ s event event', SameContent event event' → check s event' = check s event

variable {check : Check σ} {options : ProtobufVisitorOptions}

theorem ReadsContent.offerAll_eq (hcheck : ReadsContent check) {events events' : List VisitEvent}
    (h : List.Forall₂ SameContent events events') (s : σ) :
    offerAll check s events' = offerAll check s events := by
  induction h generalizing s with
  | nil => rfl
  | cons hevent _ ih => simp only [offerAll, hcheck s _ _ hevent, ih]

theorem offerAll_dropped {s s' : σ} {events : List VisitEvent} {decision : AdmissionDecision}
    (h : offerAll check s events = (some decision, s')) : decision.dropped = true := by
  induction events generalizing s with
  | nil => cases h
  | cons event events ih =>
      rw [offerAll] at h
      split at h
      rename_i hdecision
      split at h
      · rename_i hdropped
        cases h
        exact hdropped
      · exact ih h

/-! ## Readers one after another -/

/-- What one reader reads, and another `k` positions further on. -/
inductive FieldRead.Shifted (k : Nat) : FieldRead → FieldRead → Prop
  | event {event event' : VisitEvent} {pos : Nat} (h : SameContent event event') :
      Shifted k (.event event pos) (.event event' (k + pos))
  | noCase (pos : Nat) : Shifted k (.noCase pos) (.noCase (k + pos))
  | invalid : Shifted k .invalid .invalid
  | undefined : Shifted k .undefined .undefined

namespace Reader

variable {reader first second whole : Reader} {result : AdmissionDecision × σ}

/-- The visit returns the first drop of what is read, or goes on behind it. -/
theorem Reads.returns_iff {p q : Nat} {events : List VisitEvent} (h : reader.Reads p events q)
    (s : σ) : (reader.loop check options).Returns ⟨p, s⟩ result ↔
      match offerAll check s events with
      | (some decision, s') => result = (decision, s')
      | (none, s') => (reader.loop check options).Returns ⟨q, s'⟩ result := by
  induction h generalizing s with
  | here p => exact Iff.rfl
  | @event p q r event events hguard hread _ ih =>
      rw [offerAll]
      cases hdrops : (check s event).1.dropped with
      | true =>
          have hreturns : (reader.loop check options).Returns ⟨p, s⟩ (check s event) := by
            refine While.returns_of_ret hguard ?_
            simp [loop, hread, offer, hdrops]
          simp only [hdrops, if_true]
          exact ⟨fun h => h.unique hreturns, fun h => h ▸ hreturns⟩
      | false =>
          simp only [hdrops, Bool.false_eq_true, if_false]
          refine (While.returns_iff_of_next hguard ?_).trans (ih _)
          simp [loop, hread, offer, hdrops]
  | noCase hguard hread _ ih =>
      refine (While.returns_iff_of_next hguard ?_).trans (ih s)
      simp [loop, hread]

/-- A property that every read preserves holds where the reading comes to. -/
theorem Reads.invariant {I : Nat → Prop}
    (hstep : ∀ p q, I p → reader.guard p = true →
      (∃ event, reader.read p = .event event q) ∨ reader.read p = .noCase q → I q)
    {p q : Nat} {events : List VisitEvent} (h : reader.Reads p events q) (hp : I p) : I q := by
  induction h with
  | here p => exact hp
  | event hguard hread _ ih => exact ih (hstep _ _ hp hguard (.inl ⟨_, hread⟩))
  | noCase hguard hread _ ih => exact ih (hstep _ _ hp hguard (.inr hread))

/-- A visit that is not dropped has read all there is. -/
theorem exists_reads_of_returns {p : Nat} {s : σ}
    (h : (reader.loop check options).Returns ⟨p, s⟩ result) (hadmits : result.1.dropped = false) :
    ∃ events q, reader.Reads p events q ∧ reader.guard q = false := by
  obtain ⟨n, hrun⟩ := h
  obtain ⟨last, hreach, ⟨hguard, -⟩ | ⟨-, hbody⟩⟩ := While.Returns.last hrun
  · obtain ⟨events, hreads, -⟩ := reads_of_reaches hreach
    exact ⟨events, last.pos, hreads, hguard⟩
  · simp only [loop] at hbody
    split at hbody
    · unfold offer at hbody
      split at hbody
      rename_i hdecision
      split at hbody
      · rename_i hdropped
        cases hbody
        rw [hdropped] at hadmits
        cases hadmits
      · cases hbody
    · cases hbody
    · cases hbody
      cases hadmits
    · cases hbody

/-- Up to `k` the reader of both reads what the first does, and from there on what the
second does, as far as they come. -/
structure Joins (first second whole : Reader) (k : Nat) : Prop where
  before : ∀ p events, first.Reads 0 events p → first.guard p = true →
    first.read p ≠ .invalid → whole.guard p = true ∧
      FieldRead.Shifted 0 (first.read p) (whole.read p)
  after : ∀ p events, second.Reads 0 events p → whole.guard (k + p) = second.guard p ∧
    (second.guard p = true → FieldRead.Shifted k (second.read p) (whole.read (k + p)))

namespace Joins

variable {k : Nat}

theorem reads (h : Joins first second whole k) {p q : Nat} {events read : List VisitEvent}
    (hfirst : first.Reads p events q) (hread : first.Reads 0 read p) :
    ∃ events', whole.Reads p events' q ∧ List.Forall₂ SameContent events events' := by
  induction hfirst generalizing read with
  | here p => exact ⟨[], .here p, .nil⟩
  | @event p q r event events hguard hevent _ ih =>
      obtain ⟨hguard', hshifted⟩ := h.before p read hread hguard (by simp [hevent])
      obtain ⟨events', hreads, hsame⟩ := ih (hread.trans (.event hguard hevent (.here q)))
      rw [hevent] at hshifted
      generalize hwhole : whole.read p = found at hshifted
      cases hshifted with
      | event hcontent =>
          rw [Nat.zero_add] at hwhole
          exact ⟨_ :: events', .event hguard' hwhole hreads, .cons hcontent hsame⟩
  | @noCase p q r events hguard hevent _ ih =>
      obtain ⟨hguard', hshifted⟩ := h.before p read hread hguard (by simp [hevent])
      obtain ⟨events', hreads, hsame⟩ := ih (hread.trans (.noCase hguard hevent (.here q)))
      rw [hevent] at hshifted
      generalize hwhole : whole.read p = found at hshifted
      cases hshifted with
      | noCase _ =>
          rw [Nat.zero_add] at hwhole
          exact ⟨events', .noCase hguard' hwhole hreads, hsame⟩

/-- Pass for pass the visit of both does what the visit of the second does. -/
theorem run_eq (h : Joins first second whole k) (hcheck : ReadsContent check) (n : Nat) (s : σ) :
    (whole.loop check options).run n ⟨k, s⟩ = (second.loop check options).run n ⟨0, s⟩ := by
  refine While.run_eq_of_alike (fun state state' => ∃ read, second.Reads 0 read state.pos ∧
    state' = ⟨k + state.pos, state.check⟩) ?_ ?_ ?_ n ⟨[], .here 0, rfl⟩
  · rintro state _ ⟨read, hread, rfl⟩
    exact (h.after state.pos read hread).1
  · rintro state _ ⟨read, hread, rfl⟩
    rfl
  · rintro state _ ⟨read, hread, rfl⟩ hin
    have hshifted := (h.after state.pos read hread).2 hin
    simp only [loop]
    generalize hfound : second.read state.pos = found at hshifted
    generalize whole.read (k + state.pos) = found' at hshifted
    cases hshifted with
    | @event event event' pos hcontent =>
        simp only [offer, hcheck state.check event event' hcontent]
        cases (check state.check event).1.dropped with
        | true => exact .ret _
        | false => exact .next ⟨_, hread.trans (.event hin hfound (.here pos)), rfl⟩
    | noCase pos => exact .next ⟨_, hread.trans (.noCase hin hfound (.here pos)), rfl⟩
    | invalid => exact .ret _
    | undefined => exact .undefined

/-- The visit of both is the visit of the first, and unless that is dropped the visit of the
second from there. -/
theorem returns_iff (h : Joins first second whole k) (hcheck : ReadsContent check)
    {events : List VisitEvent} (hreads : first.Reads 0 events k) (hend : first.guard k = false)
    (s : σ) : (whole.loop check options).Returns ⟨0, s⟩ result ↔
      ∃ mid, (first.loop check options).Returns ⟨0, s⟩ mid ∧
        if mid.1.dropped then result = mid
        else (second.loop check options).Returns ⟨0, mid.2⟩ result := by
  obtain ⟨events', hwhole, hsame⟩ := h.reads hreads (.here 0)
  have hsecond (s : σ) : (whole.loop check options).Returns ⟨k, s⟩ result ↔
      (second.loop check options).Returns ⟨0, s⟩ result := by
    simp only [While.Returns, h.run_eq hcheck]
  have hlast (s : σ) (mid : AdmissionDecision × σ) :
      (first.loop check options).Returns ⟨k, s⟩ mid ↔ mid = (.admit_ 0, s) := by
    have hreturns : (first.loop check options).Returns ⟨k, s⟩ (.admit_ 0, s) :=
      While.returns_of_guard_false hend
    exact ⟨fun hmid => hmid.unique hreturns, fun hmid => hmid ▸ hreturns⟩
  rw [hwhole.returns_iff, hcheck.offerAll_eq hsame]
  simp only [hreads.returns_iff]
  generalize hoffered : offerAll check s events = offered
  obtain ⟨_ | decision, s'⟩ := offered
  · simp only [hlast, exists_eq_left, AdmissionDecision.dropped_admit_, Bool.false_eq_true,
      if_false, hsecond]
  · simp only [exists_eq_left, offerAll_dropped hoffered, if_true]

end Joins

end Reader

/-! ## Fields of a part -/

/-- At `k` the part stands in the whole, and the tail behind it. -/
structure ByteSpan.Part (whole part : ByteSpan) (k : Nat) (tail : Bytes) : Prop where
  drop_eq : whole.bytes.drop k = part.bytes ++ tail
  size_eq : whole.size = k + part.size + tail.length

/-- The result of a read `k` positions further on. -/
def VarintRead.shift (k : Nat) : VarintRead → VarintRead
  | .ok out pos => .ok out (k + pos)
  | .truncated => .truncated
  | .undefinedShift => .undefinedShift

theorem readVarintLoop_append {bytes tail : Bytes} (k pos : Nat) (acc : UInt64) (shift : Nat)
    (h : tail = [] ∨ readVarintLoop bytes pos acc shift ≠ .truncated) :
    readVarintLoop (bytes ++ tail) (k + pos) acc shift =
      (readVarintLoop bytes pos acc shift).shift k := by
  induction bytes generalizing pos acc shift with
  | nil =>
      rcases h with rfl | h
      · rfl
      · exact absurd rfl h
  | cons byte bytes ih =>
      simp only [List.cons_append, readVarintLoop] at h ⊢
      split
      · rfl
      · rename_i hshift
        rw [if_neg hshift] at h
        split
        · rfl
        · rename_i hmore
          rw [if_neg hmore] at h
          exact ih (pos + 1) _ _ h

namespace ByteSpan.Part

variable {whole part : ByteSpan} {k : Nat} {tail : Bytes}

theorem drop_add (h : whole.Part part k tail) {p : Nat} (hp : p ≤ part.size) :
    whole.bytes.drop (k + p) = part.bytes.drop p ++ tail := by
  rw [← List.drop_drop, h.drop_eq, List.drop_append_of_le_length hp]

theorem take_drop (h : whole.Part part k tail) {p n : Nat} (hfit : p + n ≤ part.size) :
    (whole.bytes.drop (k + p)).take n = (part.bytes.drop p).take n := by
  rw [h.drop_add (by omega), List.take_append_of_le_length]
  rw [List.length_drop]
  simp only [ByteSpan.size] at hfit
  omega

theorem readVarint (h : whole.Part part k tail) (p : Nat)
    (hends : tail = [] ∨ Admission.readVarint part p ≠ .truncated) :
    Admission.readVarint whole (k + p) = (Admission.readVarint part p).shift k := by
  by_cases hp : p ≤ part.size
  · rw [Admission.readVarint, h.drop_add hp]
    exact readVarintLoop_append k p 0 0 hends
  · have hnone : part.bytes.drop p = [] := List.drop_eq_nil_of_le (Nat.le_of_not_le hp)
    have hcut : Admission.readVarint part p = .truncated := by
      rw [Admission.readVarint, hnone]
      rfl
    obtain rfl := hends.resolve_right fun hne => hne hcut
    rw [hcut, Admission.readVarint, ← List.drop_drop, h.drop_eq, List.append_nil, hnone]
    rfl

theorem handleVarint (h : whole.Part part k tail) (p : Nat) (field : UInt64)
    (hends : tail = [] ∨ Admission.handleVarint part p field ≠ .invalid) :
    FieldRead.Shifted k (Admission.handleVarint part p field)
      (Admission.handleVarint whole (k + p) field) := by
  have hread := h.readVarint p (hends.imp_right fun hne hcut => hne (by
    simp [Admission.handleVarint, hcut]))
  simp only [Admission.handleVarint, hread]
  cases Admission.readVarint part p with
  | ok out pos => exact .event (.refl _)
  | truncated => exact .invalid
  | undefinedShift => exact .undefined

theorem handleInt (h : whole.Part part k tail) {p width : Nat} (hp : p ≤ part.size)
    (hwidth : width ≤ 8) (field : UInt64)
    (hends : tail = [] ∨ Admission.handleInt part p field width ≠ .invalid) :
    FieldRead.Shifted k (Admission.handleInt part p field width)
      (Admission.handleInt whole (k + p) field width) := by
  have hsize := h.size_eq
  by_cases hfit : p + width ≤ part.size
  · rw [handleInt_of_fits hwidth hfit, handleInt_of_fits hwidth (by omega), h.take_drop hfit,
      Nat.add_assoc]
    exact .event (.refl _)
  · have hcut := handleInt_of_cut hwidth hp (by omega) field
    obtain rfl := hends.resolve_right fun hne => hne hcut
    rw [List.length_nil] at hsize
    rw [hcut, handleInt_of_cut hwidth (by omega) (by omega)]
    exact .invalid

/-- The same bytes, in the part and in the whole. -/
theorem sameContent (h : whole.Part part k tail) {r n : Nat} (hfit : r + n ≤ part.size)
    (field : UInt64) :
    SameContent (bytesEvent field (part.subspan r n))
      (bytesEvent field (whole.subspan (k + r) n)) := by
  have hsize := h.size_eq
  have hlt : part.size < 2 ^ 63 := part.size_lt
  have hcount : n ≠ 2 ^ 64 - 1 := by omega
  refine .bytes field ?_ ?_ ?_
  · simp only [SubSpan.InBounds, ByteSpan.subspan, if_neg hcount]
    exact hfit
  · simp only [SubSpan.InBounds, ByteSpan.subspan, if_neg hcount]
    omega
  · simp only [SubSpan.toSpan, ByteSpan.subspan, if_neg hcount, h.take_drop hfit]

theorem handleLen (h : whole.Part part k tail) (p : Nat) (field : UInt64)
    (hfits : ∀ (len : UInt64) (r : Nat), Admission.readVarint part p = .ok len r →
      k + r + len.toNat < 2 ^ 64)
    (hends : tail = [] ∨ Admission.handleLen part p field ≠ .invalid) :
    FieldRead.Shifted k (Admission.handleLen part p field)
      (Admission.handleLen whole (k + p) field) := by
  have hread := h.readVarint p (hends.imp_right fun hne hcut => hne (by
    simp [Admission.handleLen, hcut]))
  simp only [Admission.handleLen, hread] at hends ⊢
  cases hlen : Admission.readVarint part p with
  | truncated => exact .invalid
  | undefinedShift => exact .undefined
  | ok len r =>
      have hsize := h.size_eq
      have hroom := hfits len r hlen
      have hadd : sizeAdd r len.toNat = r + len.toNat := Nat.mod_eq_of_lt (by omega)
      have hadd' : sizeAdd (k + r) len.toNat = k + (r + len.toNat) := by
        rw [sizeAdd, Nat.mod_eq_of_lt hroom, Nat.add_assoc]
      simp only [hlen] at hends
      simp only [VarintRead.shift]
      rw [hadd] at hends ⊢
      rw [hadd']
      by_cases hfit : r + len.toNat ≤ part.size
      · rw [if_neg (by omega), if_neg (by omega)]
        exact .event (h.sameContent hfit field)
      · rw [if_pos (by omega)] at hends
        obtain rfl := hends.resolve_right fun hne => hne rfl
        rw [List.length_nil] at hsize
        rw [if_pos (by omega), if_pos (by omega)]
        exact .invalid

theorem handleField (h : whole.Part part k tail) {p : Nat} (hp : p ≤ part.size) (field : UInt64)
    (wireType : Nat)
    (hfits : wireType = 2 → ∀ (len : UInt64) (r : Nat),
      Admission.readVarint part p = .ok len r → k + r + len.toNat < 2 ^ 64)
    (hends : tail = [] ∨ Admission.handleField part p field wireType ≠ .invalid) :
    FieldRead.Shifted k (Admission.handleField part p field wireType)
      (Admission.handleField whole (k + p) field wireType) := by
  match wireType with
  | 0 => exact h.handleVarint p field hends
  | 1 => exact h.handleInt hp (by decide) field hends
  | 2 => exact h.handleLen p field (hfits rfl) hends
  | 3 => exact .noCase p
  | 4 => exact .noCase p
  | 5 => exact h.handleInt hp (by decide) field hends
  | _ + 6 => exact .noCase p

theorem decodeField (h : whole.Part part k tail) (p : Nat)
    (hfits : ∀ (tag len : UInt64) (q r : Nat), Admission.readVarint part p = .ok tag q →
      (tag &&& 7).toNat = 2 → Admission.readVarint part q = .ok len r →
      k + r + len.toNat < 2 ^ 64)
    (hends : tail = [] ∨ Admission.decodeField part p ≠ .invalid) :
    FieldRead.Shifted k (Admission.decodeField part p) (Admission.decodeField whole (k + p)) := by
  have hread := h.readVarint p (hends.imp_right fun hne hcut => hne (by
    simp [Admission.decodeField, hcut]))
  simp only [Admission.decodeField, hread] at hends ⊢
  cases htag : Admission.readVarint part p with
  | truncated => exact .invalid
  | undefinedShift => exact .undefined
  | ok tag q =>
      simp only [htag] at hends
      refine h.handleField (readVarint_pos htag).2 _ _ (fun hlen len r hvarint => ?_) hends
      exact hfits tag len q r htag hlen hvarint

theorem first {a b : ByteSpan} (h : whole.bytes = a.bytes ++ b.bytes) : whole.Part a 0 b.bytes where
  drop_eq := h
  size_eq := by
    rw [ByteSpan.size, h, List.length_append, Nat.zero_add]
    rfl

theorem second {a b : ByteSpan} (h : whole.bytes = a.bytes ++ b.bytes) :
    whole.Part b a.size [] where
  drop_eq := by
    rw [h, ByteSpan.size, List.drop_left, List.append_nil]
  size_eq := by
    rw [ByteSpan.size, h, List.length_append]
    rfl

end ByteSpan.Part

/-! ## The visitors -/

/-- No length in the bytes takes the end of its body to `2 ^ 64`, `room` positions further
on. -/
def LengthsFit (room : Nat) (bytes : ByteSpan) : Prop :=
  ∀ p events, (messageReader bytes).Reads 0 events p → ∀ (tag len : UInt64) (q r : Nat),
    readVarint bytes p = .ok tag q → (tag &&& 7).toNat = 2 → readVarint bytes q = .ok len r →
    room + r + len.toNat < 2 ^ 64

/-- What the bytes are taken for. -/
inductive WireForm where
  | message
  | packedVarint (field : UInt64)
  | packedFixed (T : PackedType) (field : UInt64)

namespace WireForm

/-- The visitor of the form returns `result`. -/
def Returns (form : WireForm) (bytes : ByteSpan) (check : Check σ) (s : σ)
    (options : ProtobufVisitorOptions) (result : AdmissionDecision × σ) : Prop :=
  match form with
  | .message => VisitReturns bytes check s options result
  | .packedVarint field => PackedVarintReturns bytes field check s options result
  | .packedFixed T field => PackedReturns T bytes field check s result

/-- A check that admits everything sees the bytes to their end. -/
def Complete (form : WireForm) (bytes : ByteSpan) : Prop :=
  match form with
  | .message => ∃ events, VisitReturns bytes recording [] {} (.admit_ 0, events)
  | .packedVarint field =>
      ∃ events, PackedVarintReturns bytes field recording [] {} (.admit_ 0, events)
  | .packedFixed T _ => T.trait.kSize ∣ bytes.size

/-- The ends of the bodies are those that are declared, `room` positions further on. -/
def FitsAt (form : WireForm) (room : Nat) (bytes : ByteSpan) : Prop :=
  match form with
  | .message => LengthsFit room bytes
  | .packedVarint _ => True
  | .packedFixed _ _ => True

end WireForm

section Joins

variable {a b whole : ByteSpan}

theorem messageReader_joins (h : whole.bytes = a.bytes ++ b.bytes) (ha : LengthsFit 0 a)
    (hb : LengthsFit a.size b) :
    (messageReader a).Joins (messageReader b) (messageReader whole) a.size where
  before p events hreads hguard hread := by
    have hsize := (ByteSpan.Part.second h).size_eq
    have hlt : p < a.size := of_decide_eq_true hguard
    have hshifted := (ByteSpan.Part.first h).decodeField p (ha p events hreads) (.inr hread)
    rw [Nat.zero_add] at hshifted
    exact ⟨decide_eq_true (by omega), hshifted⟩
  after p events hreads := by
    have hsize := (ByteSpan.Part.second h).size_eq
    rw [List.length_nil] at hsize
    refine ⟨?_, fun _ => (ByteSpan.Part.second h).decodeField p (hb p events hreads) (.inl rfl)⟩
    exact decide_eq_decide.mpr (by omega)

theorem packedVarintReader_joins (h : whole.bytes = a.bytes ++ b.bytes) (field : UInt64) :
    (packedVarintReader a field).Joins (packedVarintReader b field)
      (packedVarintReader whole field) a.size where
  before p _ _ hguard hread := by
    have hsize := (ByteSpan.Part.second h).size_eq
    have hlt : p < a.size := of_decide_eq_true hguard
    have hshifted := (ByteSpan.Part.first h).handleVarint p field (.inr hread)
    rw [Nat.zero_add] at hshifted
    exact ⟨decide_eq_true (by omega), hshifted⟩
  after p _ _ := by
    have hsize := (ByteSpan.Part.second h).size_eq
    rw [List.length_nil] at hsize
    refine ⟨?_, fun _ => (ByteSpan.Part.second h).handleVarint p field (.inl rfl)⟩
    exact decide_eq_decide.mpr (by omega)

/-- The positions of whole elements. -/
theorem packedReader_position {T : PackedType} {field : UInt64} {p : Nat}
    {events : List VisitEvent} (h : (packedReader T a field).Reads 0 events p) :
    p ≤ a.size ∧ T.trait.kSize ∣ p := by
  have hwidth := (kSize_pos T).2
  refine h.invariant (I := fun p => p ≤ a.size ∧ T.trait.kSize ∣ p) ?_ ⟨Nat.zero_le _, ⟨0, rfl⟩⟩
  rintro p q ⟨hle, hdvd⟩ hguard (⟨event, hread⟩ | hread)
  · have hfit : sizeAdd p T.trait.kSize ≤ a.size := of_decide_eq_true hguard
    cases hread
    rw [sizeAdd_fixed hle hwidth] at hfit ⊢
    exact ⟨hfit, (Nat.dvd_add_right hdvd).mpr (dvd_refl _)⟩
  · cases hread

theorem packedReader_joins (h : whole.bytes = a.bytes ++ b.bytes) (T : PackedType)
    (field : UInt64) :
    (packedReader T a field).Joins (packedReader T b field) (packedReader T whole field)
      a.size where
  before p events hreads hguard _ := by
    have hsize := (ByteSpan.Part.second h).size_eq
    have hwidth := (kSize_pos T).2
    have hle := (packedReader_position hreads).1
    have hfit : sizeAdd p T.trait.kSize ≤ a.size := of_decide_eq_true hguard
    refine ⟨decide_eq_true (by omega), ?_⟩
    rw [sizeAdd_fixed hle hwidth] at hfit
    have htake := (ByteSpan.Part.first h).take_drop hfit
    have hshifted : FieldRead.Shifted 0 ((packedReader T a field).read p)
        (.event _ (0 + sizeAdd p T.trait.kSize)) := .event (.refl _)
    rw [Nat.zero_add] at htake hshifted
    simp only [packedReader, htake]
    exact hshifted
  after p events hreads := by
    have hsize := (ByteSpan.Part.second h).size_eq
    rw [List.length_nil] at hsize
    have hwidth := (kSize_pos T).2
    have hle := (packedReader_position hreads).1
    have hadd : sizeAdd p T.trait.kSize = p + T.trait.kSize := sizeAdd_fixed hle hwidth
    have hpos : a.size + p ≤ whole.size := by omega
    have hadd' : sizeAdd (a.size + p) T.trait.kSize = a.size + (p + T.trait.kSize) := by
      rw [sizeAdd_fixed hpos hwidth, Nat.add_assoc]
    simp only [packedReader, hadd, hadd', decide_eq_true_eq]
    refine ⟨decide_eq_decide.mpr (by omega), fun hfit => ?_⟩
    rw [(ByteSpan.Part.second h).take_drop hfit]
    exact .event (.refl _)

end Joins

/-! ## Parts that are read to their end -/

/-- What the visitor steps over ends inside the bytes, or is taken to. -/
theorem WireStep.le_size {bytes : ByteSpan} {p q : Nat} (h : WireStep bytes p q) :
    q ≤ bytes.size := by
  cases h with
  | varint _ _ hbody => exact hbody.lt.2
  | fixed _ _ hfit => exact hfit
  | len _ _ _ hfit => exact hfit
  | noCase htag _ => exact htag.lt.2

theorem wireStep_of_read {bytes : ByteSpan} {p q : Nat}
    (h : (∃ event, decodeField bytes p = .event event q) ∨ decodeField bytes p = .noCase q) :
    WireStep bytes p q := by
  rcases field_cases bytes p with ⟨q', hstep⟩ | hcut | hlong
  · have hq : q = q' := by
      rcases hstep.decodeField with ⟨event, he⟩ | hno <;> rcases h with ⟨event', he'⟩ | hno' <;>
        simp_all
    exact hq ▸ hstep
  · have hinvalid := hcut.decodeField
    rcases h with ⟨event, he⟩ | hno <;> simp_all
  · have hundef := hlong.decodeField
    rcases h with ⟨event, he⟩ | hno <;> simp_all

theorem handleVarint_le_size {bytes : ByteSpan} {p q : Nat} {field : UInt64}
    (h : (∃ event, handleVarint bytes p field = .event event q) ∨
      handleVarint bytes p field = .noCase q) : q ≤ bytes.size := by
  unfold handleVarint at h
  split at h
  · simp at h
  · simp at h
  · rename_i out r hread
    obtain ⟨event, hevent⟩ | hno := h
    · cases hevent
      exact (readVarint_pos hread).2
    · cases hno

/-- A numeral that is read is read to its end. -/
theorem readVarint_numeral {bytes : ByteSpan} {p v q : Nat} {b rest : Bytes} {out : UInt64}
    (h : Numeral b v) (hdrop : bytes.bytes.drop p = b ++ rest)
    (hread : readVarint bytes p = .ok out q) : q = p + b.length ∧ out.toNat = v % 2 ^ 64 := by
  obtain ⟨v', hv', hvalue⟩ := readVarint_ok_iff.mp hread
  rcases numeral_at h hdrop with hv | hlong
  · obtain ⟨rfl, rfl⟩ := hv.unique hv'
    exact ⟨rfl, hvalue⟩
  · rw [hlong.readVarint] at hread
    cases hread

/-- No body in a well-formed message is declared to end outside it. -/
theorem lengthsFit_of_wellFormed {room : Nat} {bytes : ByteSpan}
    (h : WellFormedMessage bytes.bytes) (hroom : room + bytes.size < 2 ^ 64) :
    LengthsFit room bytes := by
  intro p events hreads tag len q r htag hwire hlen
  have hboundary : Boundary bytes p := by
    refine hreads.invariant (I := Boundary bytes) (fun p q hp hguard hread => ?_) h
    exact hp.next ⟨of_decide_eq_true hguard, wireStep_of_read hread⟩
  have hne : bytes.bytes.drop p ≠ [] := by
    rw [← List.length_pos_iff, List.length_drop]
    have hpos := readVarint_pos htag
    simp only [ByteSpan.size] at hpos
    omega
  obtain ⟨field, rest, hdrop, hfield, -⟩ := hboundary.uncons hne
  have hend := size_of_drop hdrop (by have := hfield.two_le_length; omega)
  cases hfield with
  | @varint t b v _ ht htype _ =>
      rw [List.append_assoc] at hdrop
      have hvalue := (readVarint_numeral ht hdrop htag).2
      rw [wireType_toNat hvalue, htype] at hwire
      omega
  | @fixed t b v ht hwidth =>
      rw [List.append_assoc] at hdrop
      have hvalue := (readVarint_numeral ht hdrop htag).2
      rw [wireType_toNat hvalue] at hwire
      rw [hwire] at hwidth
      cases hwidth
  | @len t l b v ht _ hl =>
      rw [List.append_assoc, List.append_assoc] at hdrop
      rw [List.length_append, List.length_append] at hend
      obtain ⟨rfl, -⟩ := readVarint_numeral ht hdrop htag
      obtain ⟨rfl, hvalue⟩ := readVarint_numeral hl (drop_add_of_drop hdrop) hlen
      have hmod := Nat.mod_le b.length (2 ^ 64)
      omega

namespace WireForm

variable {form : WireForm} {a b whole bytes : ByteSpan} {check : Check σ} {s : σ}
  {options : ProtobufVisitorOptions} {result : AdmissionDecision × σ}

/-- The reader of the visitor of the form. -/
def reader (form : WireForm) (bytes : ByteSpan) : Reader :=
  match form with
  | .message => messageReader bytes
  | .packedVarint field => packedVarintReader bytes field
  | .packedFixed T field => packedReader T bytes field

theorem returns_iff_reader : form.Returns bytes check s options result ↔
    ((form.reader bytes).loop check options).Returns ⟨0, s⟩ result := by
  cases form with
  | message => exact Iff.rfl
  | packedVarint field => rw [Returns, PackedVarintReturns, packedVarintLoop_eq]; rfl
  | packedFixed T field => exact Iff.rfl

theorem joins (h : whole.bytes = a.bytes ++ b.bytes) (ha : form.FitsAt 0 a)
    (hb : form.FitsAt a.size b) :
    (form.reader a).Joins (form.reader b) (form.reader whole) a.size := by
  cases form with
  | message => exact messageReader_joins h ha hb
  | packedVarint field => exact packedVarintReader_joins h field
  | packedFixed T field => exact packedReader_joins h T field

/-- The bytes are read to their end. -/
theorem Complete.reads (h : form.Complete bytes) :
    ∃ events, (form.reader bytes).Reads 0 events bytes.size ∧
      (form.reader bytes).guard bytes.size = false := by
  cases form with
  | message =>
      obtain ⟨_, hreturns⟩ := h
      rw [VisitReturns, visitLoop_eq] at hreturns
      obtain ⟨events, q, hreads, hguard⟩ := Reader.exists_reads_of_returns hreturns rfl
      have hle : q ≤ bytes.size := hreads.invariant (I := fun q => q ≤ bytes.size)
        (fun _ _ _ _ hread => (wireStep_of_read hread).le_size) (Nat.zero_le _)
      have hend : ¬ q < bytes.size := of_decide_eq_false hguard
      obtain rfl : q = bytes.size := by omega
      exact ⟨events, hreads, hguard⟩
  | packedVarint field =>
      obtain ⟨_, hreturns⟩ := h
      rw [PackedVarintReturns, packedVarintLoop_eq] at hreturns
      obtain ⟨events, q, hreads, hguard⟩ := Reader.exists_reads_of_returns hreturns rfl
      have hle : q ≤ bytes.size := hreads.invariant (I := fun q => q ≤ bytes.size)
        (fun _ _ _ _ hread => handleVarint_le_size hread) (Nat.zero_le _)
      have hend : ¬ q < bytes.size := of_decide_eq_false hguard
      obtain rfl : q = bytes.size := by omega
      exact ⟨events, hreads, hguard⟩
  | packedFixed T field =>
      have hreturns := packedReturns_of_admitsAll recording_admitsAll T bytes field []
      rw [PackedReturns, packedLoop_eq T bytes field recording {}] at hreturns
      obtain ⟨events, q, hreads, hguard⟩ := Reader.exists_reads_of_returns hreturns rfl
      obtain ⟨hle, hdvd⟩ := packedReader_position hreads
      have hend : ¬ sizeAdd q T.trait.kSize ≤ bytes.size := of_decide_eq_false hguard
      rw [sizeAdd_fixed hle (kSize_pos T).2] at hend
      have hrest : bytes.size - q = 0 :=
        Nat.eq_zero_of_dvd_of_lt (Nat.dvd_sub h hdvd) (by omega)
      obtain rfl : q = bytes.size := by omega
      exact ⟨events, hreads, hguard⟩

/-- A visit of one part and the other behind it is the visit of the first, and unless that
is dropped the visit of the second with the check as the first has left it. -/
theorem returns_append (form : WireForm) {a b whole : ByteSpan}
    (h : whole.bytes = a.bytes ++ b.bytes) (hcomplete : form.Complete a) (ha : form.FitsAt 0 a)
    (hb : form.FitsAt a.size b) {check : Check σ} (hcheck : ReadsContent check) (s : σ)
    (options : ProtobufVisitorOptions) (result : AdmissionDecision × σ) :
    form.Returns whole check s options result ↔
      ∃ mid, form.Returns a check s options mid ∧
        if mid.1.dropped then result = mid else form.Returns b check mid.2 options result := by
  obtain ⟨events, hreads, hend⟩ := hcomplete.reads
  simp only [returns_iff_reader]
  exact (joins h ha hb).returns_iff hcheck hreads hend s

end WireForm

/-- The number of bytes in the bodies of length-delimited fields. -/
def bodySizes : Check Nat := fun total event =>
  match event.value with
  | .bytes body => (.admit_ 1, total + body.toSpan.size)
  | _ => (.admit_ 1, total)

theorem bodySizes_readsContent : ReadsContent bodySizes := by
  intro total event event' h
  cases h with
  | refl _ => rfl
  | bytes field _ _ hbytes => simp only [bodySizes, bytesEvent, hbytes]

/-- Field 1 with the value 2. -/
def varintMessage : ByteSpan := ⟨[0x08, 0x02], by decide⟩

/-- Field 2 with a body of one byte. -/
def textMessage : ByteSpan := ⟨[0x12, 0x01, 0x41], by decide⟩

theorem varintMessage_append_textMessage :
    WireForm.message.Returns ⟨[0x08, 0x02, 0x12, 0x01, 0x41], by decide⟩ bodySizes 0 {}
      (.admit_ 0, 1) := by
  have hnumber : WellFormedMessage varintMessage.bytes :=
    .cons (f := [0x08] ++ [0x02])
      (.varint (.last 0x08 (by decide)) (by decide) (.last 0x02 (by decide))) .nil
  have hletter : WellFormedMessage textMessage.bytes :=
    .cons (f := [0x12] ++ ([0x01] ++ [0x41]))
      (.len (.last 0x12 (by decide)) (by decide) (.last 0x01 (by decide))) .nil
  refine (WireForm.returns_append .message (a := varintMessage) (b := textMessage) rfl
    ⟨_, 1, rfl⟩ (lengthsFit_of_wellFormed hnumber (by decide))
    (lengthsFit_of_wellFormed hletter (by decide)) bodySizes_readsContent 0 {} _).mpr
    ⟨(.admit_ 0, 0), ⟨1, by decide⟩, ⟨1, by decide⟩⟩

end RpcSpec.Admission
