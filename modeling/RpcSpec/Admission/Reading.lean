import RpcSpec.Admission.PackedFixed
import RpcSpec.Admission.PackedVarint
set_option autoImplicit false

/-!
# What a visitor reads and whom it tells

The three visitors of protobuf bytes are one loop: while the position is in range they
read there, hand what was read to the check and stop at a drop.  They differ in the
range and in what they read, which is what a `Reader` holds.  `Reads` follows a reader
without any check; a run with a check follows it as far as the check admits.
-/

namespace RpcSpec.Admission

open RpcSpec.Foundation

variable {σ : Type}

/-! ## Checks and lists of events -/

/-- The check admits each of the events, handed to it in turn. -/
def AdmitsEach (check : Check σ) : σ → List VisitEvent → Prop
  | _, [] => True
  | s, event :: events =>
      (check s event).1.dropped = false ∧ AdmitsEach check (check s event).2 events

theorem admitsEach_of_admitsAll {check : Check σ} (h : AdmitsAll check) (s : σ)
    (events : List VisitEvent) : AdmitsEach check s events := by
  induction events generalizing s with
  | nil => trivial
  | cons event events ih =>
      refine ⟨?_, ih _⟩
      simp [AdmissionDecision.dropped_eq_not_admitted, h s event]

theorem feed_observed (check : Check σ) (s : σ) (handed events : List VisitEvent) :
    feed (observed check) (s, handed) events = (feed check s events, handed ++ events) := by
  induction events generalizing s handed with
  | nil => simp [feed]
  | cons event events ih =>
      have := ih (check s event).2 (handed ++ [event])
      simp only [feed, List.foldl_cons, observed] at this ⊢
      rw [this]
      simp

theorem admitsEach_observed {check : Check σ} {s : σ} {handed events : List VisitEvent} :
    AdmitsEach (observed check) (s, handed) events ↔ AdmitsEach check s events := by
  induction events generalizing s handed with
  | nil => exact Iff.rfl
  | cons event events ih => exact and_congr_right fun _ => ih

/-- What the check decides of the events, handed to it in turn. -/
def decisions (check : Check σ) : σ → List VisitEvent → List AdmissionDecision
  | _, [] => []
  | s, event :: events => (check s event).1 :: decisions check (check s event).2 events

theorem decisions_admitsEach {check : Check σ} {s : σ} {events : List VisitEvent}
    (h : AdmitsEach check s events) :
    ∀ decision ∈ decisions check s events, decision.dropped = false := by
  induction events generalizing s with
  | nil => simp [decisions]
  | cons event events ih =>
      rw [decisions, List.forall_mem_cons]
      exact ⟨h.1, ih h.2⟩

/-- Hand the events to the check in turn, up to the first it drops. -/
def offerAll (check : Check σ) (s : σ) : List VisitEvent → Option AdmissionDecision × σ
  | [] => (none, s)
  | event :: events =>
      let (decision, s') := check s event
      if decision.dropped then (some decision, s') else offerAll check s' events

theorem offerAll_of_admitsEach {check : Check σ} {s : σ} {events : List VisitEvent}
    (h : AdmitsEach check s events) : offerAll check s events = (none, feed check s events) := by
  induction events generalizing s with
  | nil => rfl
  | cons event events ih =>
      simp only [offerAll, h.1, Bool.false_eq_true, if_false, ih h.2, feed, List.foldl_cons]

theorem offerAll_of_drop {check : Check σ} {s : σ} {before : List VisitEvent} {event : VisitEvent}
    (h : AdmitsEach check s before)
    (hdrops : (check (feed check s before) event).1.dropped = true) (after : List VisitEvent) :
    offerAll check s (before ++ event :: after) =
      (some (check (feed check s before) event).1, (check (feed check s before) event).2) := by
  induction before generalizing s with
  | nil =>
      simp only [feed, List.foldl_nil] at hdrops
      simp [offerAll, hdrops, feed]
  | cons first before ih =>
      simp only [List.cons_append, offerAll, h.1, Bool.false_eq_true, if_false]
      exact ih h.2 hdrops

/-- A check admits all the events, or there is a first that it drops. -/
theorem admitsEach_or_drop (check : Check σ) (s : σ) (events : List VisitEvent) :
    AdmitsEach check s events ∨ ∃ before event after, events = before ++ event :: after ∧
      AdmitsEach check s before ∧ (check (feed check s before) event).1.dropped = true := by
  induction events generalizing s with
  | nil => exact .inl trivial
  | cons event events ih =>
      cases hdrops : (check s event).1.dropped with
      | true => exact .inr ⟨[], event, events, rfl, trivial, hdrops⟩
      | false =>
          obtain hadmits | ⟨before, dropped, after, rfl, hadmits, hdrop⟩ := ih (check s event).2
          · exact .inl ⟨hdrops, hadmits⟩
          · exact .inr ⟨event :: before, dropped, after, rfl, ⟨hdrops, hadmits⟩, hdrop⟩

/-! ## Readers -/

/-- The positions a visitor goes on at, and what it reads there. -/
structure Reader where
  guard : Nat → Bool
  read : Nat → FieldRead

namespace Reader

/-- The loop of a visitor. -/
def loop (reader : Reader) (check : Check σ) (options : ProtobufVisitorOptions) :
    While (VisitState σ) (AdmissionDecision × σ) where
  guard state := reader.guard state.pos
  body state :=
    match reader.read state.pos with
    | .event event pos => offer check state.check event pos
    | .noCase pos => .next ⟨pos, state.check⟩
    | .invalid => .ret (options.invalidPayload, state.check)
    | .undefined => .undefined
  exit state := (.admit_ 0, state.check)

/-- From `p` the reader comes to `q`, reading the events on the way. -/
inductive Reads (reader : Reader) : Nat → List VisitEvent → Nat → Prop
  | here (p : Nat) : Reads reader p [] p
  | event {p q r : Nat} {event : VisitEvent} {events : List VisitEvent} :
      reader.guard p = true → reader.read p = .event event q → Reads reader q events r →
      Reads reader p (event :: events) r
  | noCase {p q r : Nat} {events : List VisitEvent} :
      reader.guard p = true → reader.read p = .noCase q → Reads reader q events r →
      Reads reader p events r

/-- The reader does not go on at `p`: the range ends there, or what is there is cut off. -/
def Ends (reader : Reader) (p : Nat) : Prop :=
  reader.guard p = false ∨ reader.read p = .invalid

variable {reader : Reader} {check : Check σ} {options : ProtobufVisitorOptions}

namespace Reads

theorem trans {p q r : Nat} {events events' : List VisitEvent} (h : reader.Reads p events q)
    (h' : reader.Reads q events' r) : reader.Reads p (events ++ events') r := by
  induction h with
  | here _ => exact h'
  | event hguard hread _ ih => exact .event hguard hread (ih h')
  | noCase hguard hread _ ih => exact .noCase hguard hread (ih h')

/-- The last event was read at some position. -/
theorem unsnoc {p q : Nat} {events : List VisitEvent} {event : VisitEvent}
    (h : reader.Reads p (events ++ [event]) q) :
    ∃ r r', reader.Reads p events r ∧ reader.guard r = true ∧ reader.read r = .event event r' := by
  generalize hall : events ++ [event] = all at h
  induction h generalizing events with
  | here _ => simp at hall
  | @event p q r first rest hguard hread _ ih =>
      cases events with
      | nil =>
          obtain ⟨rfl, -⟩ := List.cons.inj hall
          exact ⟨p, q, .here p, hguard, hread⟩
      | cons _ events =>
          obtain ⟨rfl, hrest⟩ := List.cons.inj hall
          obtain ⟨r, r', hreads, hlast⟩ := ih hrest
          exact ⟨r, r', .event hguard hread hreads, hlast⟩
  | noCase hguard hread _ ih =>
      obtain ⟨r, r', hreads, hlast⟩ := ih hall
      exact ⟨r, r', .noCase hguard hread hreads, hlast⟩

/-- What is read up to where the reader ends is all there is to read. -/
theorem isPrefix {p q q' : Nat} {events events' : List VisitEvent}
    (h : reader.Reads p events q) (hends : reader.Ends q) (h' : reader.Reads p events' q') :
    events' <+: events := by
  induction h generalizing events' with
  | here p =>
      cases h' with
      | here _ => exact List.prefix_refl _
      | event hguard hread _ => rcases hends with hends | hends <;> simp_all
      | noCase hguard hread _ => rcases hends with hends | hends <;> simp_all
  | event hguard hread _ ih =>
      cases h' with
      | here _ => exact List.nil_prefix
      | event _ hread' h' =>
          obtain ⟨rfl, rfl⟩ := FieldRead.event.inj (hread.symm.trans hread')
          exact (List.prefix_cons_inj _).mpr (ih hends h')
      | noCase _ hread' _ => simp_all
  | noCase hguard hread _ ih =>
      cases h' with
      | here _ => exact List.nil_prefix
      | event _ hread' _ => simp_all
      | noCase _ hread' h' =>
          obtain rfl := FieldRead.noCase.inj (hread.symm.trans hread')
          exact ih hends h'

/-- A check that admits what is read lets the visit come as far. -/
theorem reaches {p q : Nat} {events : List VisitEvent} (h : reader.Reads p events q) {s : σ}
    (hadmits : AdmitsEach check s events) :
    (reader.loop check options).Reaches ⟨p, s⟩ ⟨q, feed check s events⟩ := by
  induction h generalizing s with
  | here p => exact .refl _
  | event hguard hread _ ih =>
      refine .step hguard ?_ (ih hadmits.2)
      simp [loop, hread, offer, hadmits.1]
  | noCase hguard hread _ ih =>
      refine .step hguard ?_ (ih hadmits)
      simp [loop, hread]

/-- The first event a check drops makes the visit return. -/
theorem returns_drop {p q : Nat} {events : List VisitEvent} {event : VisitEvent}
    (h : reader.Reads p (events ++ [event]) q) {s : σ} (hadmits : AdmitsEach check s events)
    (hdrops : (check (feed check s events) event).1.dropped = true) :
    (reader.loop check options).Returns ⟨p, s⟩ (check (feed check s events) event) := by
  obtain ⟨r, r', hreads, hguard, hread⟩ := h.unsnoc
  refine (hreads.reaches hadmits).returns_iff.mpr (While.returns_of_ret hguard ?_)
  simp [loop, hread, offer, hdrops]

/-- The visit returns the first drop, or what it returns where the reading ends. -/
theorem returns {p q : Nat} {events : List VisitEvent} (h : reader.Reads p events q)
    {decision : AdmissionDecision}
    (hend : ∀ s, (reader.loop check options).Returns ⟨q, s⟩ (decision, s)) (s : σ) :
    (reader.loop check options).Returns ⟨p, s⟩
      ((offerAll check s events).1.getD decision, (offerAll check s events).2) := by
  induction h generalizing s with
  | here p => exact hend s
  | event hguard hread _ ih =>
      rename_i event _ _
      rw [offerAll]
      cases hdrops : (check s event).1.dropped with
      | true =>
          refine While.returns_of_ret hguard ?_
          simp [loop, hread, offer, hdrops]
      | false =>
          simp only [hdrops, Bool.false_eq_true, if_false]
          refine (While.returns_iff_of_next hguard ?_).mpr (ih hend _)
          simp [loop, hread, offer, hdrops]
  | noCase hguard hread _ ih =>
      refine (While.returns_iff_of_next hguard ?_).mpr (ih hend s)
      simp [loop, hread]

end Reads

/-- What a visit has come to it has read, and the check has admitted. -/
theorem reads_of_reaches {p : Nat} {s : σ} {state : VisitState σ}
    (h : (reader.loop check options).Reaches ⟨p, s⟩ state) :
    ∃ events, reader.Reads p events state.pos ∧ AdmitsEach check s events ∧
      state.check = feed check s events := by
  generalize hstart : (⟨p, s⟩ : VisitState σ) = start at h
  induction h generalizing p s with
  | refl _ => exact hstart ▸ ⟨[], .here p, trivial, rfl⟩
  | @step start next last hguard hbody _ ih =>
      subst hstart
      simp only [loop] at hguard hbody
      split at hbody
      · rename_i event q hread
        unfold offer at hbody
        dsimp only at hbody
        split at hbody
        · cases hbody
        · rename_i hdrops
          cases hbody
          obtain ⟨events, hreads, hadmits, hcheck⟩ := ih rfl
          exact ⟨event :: events, .event hguard hread hreads,
            ⟨by simpa using hdrops, hadmits⟩, hcheck⟩
      · rename_i q hread
        cases hbody
        obtain ⟨events, hreads, hadmits, hcheck⟩ := ih rfl
        exact ⟨events, .noCase hguard hread hreads, hadmits, hcheck⟩
      · cases hbody
      · cases hbody

/-- How a visit that returns has ended: at the first drop, or where the reader ends. -/
theorem returns_cases {p : Nat} {s s' : σ} {decision : AdmissionDecision}
    (h : (reader.loop check options).Returns ⟨p, s⟩ (decision, s')) :
    (∃ events event q, reader.Reads p (events ++ [event]) q ∧ AdmitsEach check s events ∧
      check (feed check s events) event = (decision, s') ∧ decision.dropped = true) ∨
    ∃ events q, reader.Reads p events q ∧ reader.Ends q ∧ AdmitsEach check s events ∧
      s' = feed check s events ∧ (decision = .admit_ 0 ∨ decision = options.invalidPayload) := by
  obtain ⟨n, hrun⟩ := h
  obtain ⟨last, hreach, hlast⟩ := While.Returns.last hrun
  obtain ⟨events, hreads, hadmits, hcheck⟩ := reads_of_reaches hreach
  obtain ⟨hguard, hexit⟩ | ⟨hguard, hbody⟩ := hlast
  · obtain ⟨rfl, rfl⟩ := Prod.mk.inj hexit
    exact .inr ⟨events, last.pos, hreads, .inl hguard, hadmits, hcheck, .inl rfl⟩
  · simp only [loop] at hguard hbody
    split at hbody
    · rename_i event q hread
      unfold offer at hbody
      dsimp only at hbody
      split at hbody
      · rename_i hdrops
        cases hbody
        refine .inl ⟨events, event, q, hreads.trans (.event hguard hread (.here q)), hadmits, ?_,
          hdrops⟩
        rw [hcheck]
      · cases hbody
    · cases hbody
    · rename_i hread
      cases hbody
      exact .inr ⟨events, last.pos, hreads, .inr hread, hadmits, hcheck, .inr rfl⟩
    · cases hbody

end Reader

/-! ## The readers of the visitors -/

/-- The reader of `visitProtobuf`. -/
def messageReader (bytes : ByteSpan) : Reader where
  guard pos := pos < bytes.size
  read := decodeField bytes

/-- The reader of `visitPackedVarint`. -/
def packedVarintReader (body : ByteSpan) (field : UInt64) : Reader where
  guard pos := pos < body.size
  read pos := handleVarint body pos field

/-- The reader of `visitPackedFixed`. -/
def packedReader (T : PackedType) (body : ByteSpan) (field : UInt64) : Reader where
  guard pos := sizeAdd pos T.trait.kSize ≤ body.size
  read pos :=
    .event (scalarEvent field (T.trait.widen
      (readLittleEndian ((body.bytes.drop pos).take T.trait.kSize)))) (sizeAdd pos T.trait.kSize)

theorem visitLoop_eq (bytes : ByteSpan) (check : Check σ) (options : ProtobufVisitorOptions) :
    visitLoop bytes check options = (messageReader bytes).loop check options := rfl

theorem packedVarintLoop_eq (body : ByteSpan) (field : UInt64) (check : Check σ)
    (options : ProtobufVisitorOptions) :
    packedVarintLoop body field check options =
      (packedVarintReader body field).loop check options := by
  have hbody : packedVarintBody body field check options =
      ((packedVarintReader body field).loop check options).body := by
    funext state
    simp only [packedVarintBody, Reader.loop, packedVarintReader, handleVarint]
    cases readVarint body state.pos <;> rfl
  rw [packedVarintLoop, hbody]
  rfl

/-- No element of fixed width is invalid. -/
theorem packedLoop_eq (T : PackedType) (body : ByteSpan) (field : UInt64) (check : Check σ)
    (options : ProtobufVisitorOptions) :
    packedLoop T body field check = (packedReader T body field).loop check options := rfl

end RpcSpec.Admission
