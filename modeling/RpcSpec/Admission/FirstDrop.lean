import RpcSpec.Admission.JsonTraversal
import RpcSpec.Admission.Reading
set_option autoImplicit false

/-!
# A visit stops at the first drop

What a visitor would hand to a check that admits everything does not depend on the check.
Any check is handed a prefix of it: all of it, or up to the first event the check drops,
and then its decision is the one returned.
-/

namespace RpcSpec.Admission

open RpcSpec.Foundation

variable {σ : Type}

/-- `emits events`: a check that admits everything is handed `events` first.
`calls events`: at some time the check has been handed `events`.
`returns (decision, s', events)`: the visit returns the decision, and then the check is in
the state and has been handed the events. -/
structure StopsAtFirstDrop (check : Check σ) (s : σ) (invalidPayload : AdmissionDecision)
    (emits calls : List VisitEvent → Prop)
    (returns : AdmissionDecision × (σ × List VisitEvent) → Prop) : Prop where
  handed : ∀ events, calls events → emits events
  /-- the first event that the check drops is the last it is handed -/
  drops : ∀ events event, emits (events ++ [event]) → AdmitsEach check s events →
    (check (feed check s events) event).1.dropped = true →
    returns ((check (feed check s events) event).1, (check (feed check s events) event).2,
      events ++ [event])
  /-- a visit that returns has come to such an event or has handed over all there are -/
  returned : ∀ decision s' events, returns (decision, s', events) →
    (∃ before event, events = before ++ [event] ∧ emits events ∧ AdmitsEach check s before ∧
      check (feed check s before) event = (decision, s') ∧ decision.dropped = true) ∨
    (emits events ∧ (∀ events', emits events' → events' <+: events) ∧
      AdmitsEach check s events ∧ s' = feed check s events ∧
      (decision.dropped = false ∨ decision = invalidPayload))

/-! ## Protobuf -/

/-- The events of the loop's first passes under the check that admits all. -/
def LoopEmits (loop : While (VisitState (List VisitEvent)) (AdmissionDecision × List VisitEvent))
    (events : List VisitEvent) : Prop :=
  ∃ pos, loop.Reaches ⟨0, []⟩ ⟨pos, events⟩

/-- The events the check has been handed after some passes. -/
def LoopCalls (loop : While (VisitState (σ × List VisitEvent))
    (AdmissionDecision × (σ × List VisitEvent))) (s : σ) (events : List VisitEvent) : Prop :=
  ∃ pos s', loop.Reaches ⟨0, (s, [])⟩ ⟨pos, (s', events)⟩

theorem Reader.loopEmits_iff {reader : Reader} {options : ProtobufVisitorOptions}
    {events : List VisitEvent} :
    LoopEmits (reader.loop recording options) events ↔ ∃ pos, reader.Reads 0 events pos := by
  refine exists_congr fun pos => ⟨fun h => ?_, fun h => ?_⟩
  · obtain ⟨read, hreads, -, hcheck⟩ := reads_of_reaches h
    rw [feed_recording, List.nil_append] at hcheck
    rwa [show events = read from hcheck]
  · have hreach : (reader.loop recording options).Reaches ⟨0, []⟩ ⟨pos, feed recording [] events⟩ :=
      h.reaches (admitsEach_of_admitsAll recording_admitsAll [] events)
    rwa [feed_recording, List.nil_append] at hreach

theorem Reader.stopsAtFirstDrop (reader : Reader) (check : Check σ) (s : σ)
    (options : ProtobufVisitorOptions) :
    StopsAtFirstDrop check s options.invalidPayload (LoopEmits (reader.loop recording options))
      (LoopCalls (reader.loop (observed check) options) s)
      ((reader.loop (observed check) options).Returns ⟨0, (s, [])⟩) where
  handed events := by
    rintro ⟨pos, s', hreach⟩
    obtain ⟨read, hreads, -, hcheck⟩ := reads_of_reaches hreach
    obtain ⟨-, rfl⟩ := Prod.mk.inj (hcheck.trans (feed_observed check s [] read))
    exact loopEmits_iff.mpr ⟨pos, hreads⟩
  drops events event hemits hadmits hdrops := by
    obtain ⟨pos, hreads⟩ := loopEmits_iff.mp hemits
    have hfed := feed_observed check s [] events
    have hadmitted : AdmitsEach (observed check) (s, []) events := admitsEach_observed.mpr hadmits
    have hreturns : (reader.loop (observed check) options).Returns ⟨0, (s, [])⟩ _ :=
      hreads.returns_drop hadmitted (by rw [hfed]; exact hdrops)
    rwa [hfed] at hreturns
  returned decision s' events hreturns := by
    obtain ⟨before, event, pos, hreads, hadmits, hevent, hdrops⟩ |
      ⟨read, pos, hreads, hends, hadmits, hcheck, hdecision⟩ := returns_cases hreturns
    · rw [feed_observed] at hevent
      obtain ⟨rfl, hstate⟩ := Prod.mk.inj hevent
      obtain ⟨rfl, rfl⟩ := Prod.mk.inj hstate
      exact .inl ⟨before, event, rfl, loopEmits_iff.mpr ⟨pos, hreads⟩,
        admitsEach_observed.mp hadmits, rfl, hdrops⟩
    · rw [feed_observed] at hcheck
      obtain ⟨rfl, rfl⟩ := Prod.mk.inj hcheck
      refine .inr ⟨loopEmits_iff.mpr ⟨pos, hreads⟩, fun events' hemits => ?_,
        admitsEach_observed.mp hadmits, rfl, hdecision.imp_left fun h => by rw [h]; rfl⟩
      obtain ⟨pos', hreads'⟩ := loopEmits_iff.mp hemits
      exact hreads.isPrefix hends hreads'

/-! ## JSON -/

/-- Two visitors that stand at the same place of a document. -/
structure JsonVisitor.Alike {τ : Type} (visitor : JsonVisitor σ) (other : JsonVisitor τ) :
    Prop where
  depth : visitor.depth_ = other.depth_
  keys : visitor.containerKeys_ = other.containerKeys_
  pending : visitor.pendingKey_ = other.pendingKey_

/-- A callback hands the check what it hands the recorder: nothing, or one event. -/
theorem handle_alike (check : Check σ) {visitor : JsonVisitor σ} {recorder recorder' : Recorder}
    (halike : visitor.Alike recorder) {callback : JsonCallback} {keepGoing : Bool}
    (h : recorder.handle recording callback = some (keepGoing, recorder')) :
    keepGoing = true ∧
      ((recorder'.checkState = recorder.checkState ∧
        visitor.handle check callback = some (true, visitor) ∧ visitor.Alike recorder') ∨
      ∃ event visitor', recorder'.checkState = recorder.checkState ++ [event] ∧
        visitor.handle check callback =
          some ((check visitor.checkState event).1.admitted, visitor') ∧
        visitor'.checkState = (check visitor.checkState event).2 ∧
        visitor'.decision_ = (check visitor.checkState event).1 ∧ visitor'.Alike recorder') := by
  obtain ⟨state, decision, depth, keys, pending⟩ := visitor
  obtain ⟨recorded, decision', depth', keys', pending'⟩ := recorder
  obtain ⟨rfl, rfl, rfl⟩ := halike
  cases callback with
  | documentBegin =>
      cases h
      exact ⟨rfl, .inl ⟨rfl, rfl, rfl, rfl, rfl⟩⟩
  | documentEnd =>
      cases h
      exact ⟨rfl, .inl ⟨rfl, rfl, rfl, rfl, rfl⟩⟩
  | arrayEnd n =>
      cases keys with
      | nil => cases h
      | cons key keys =>
          cases h
          exact ⟨rfl, .inr ⟨_, _, rfl, rfl, rfl, rfl, rfl, rfl, rfl⟩⟩
  | objectEnd n =>
      cases keys with
      | nil => cases h
      | cons key keys =>
          cases h
          exact ⟨rfl, .inr ⟨_, _, rfl, rfl, rfl, rfl, rfl, rfl, rfl⟩⟩
  | _ =>
      cases h
      exact ⟨rfl, .inr ⟨_, _, rfl, rfl, rfl, rfl, rfl, rfl, rfl⟩⟩

/-- Callbacks hand the check what they hand the recorder, up to the first drop. -/
theorem run_alike (check : Check σ) {callbacks : List JsonCallback} {visitor : JsonVisitor σ}
    {recorder recorder' : Recorder} (halike : visitor.Alike recorder) {keepGoing : Bool}
    (h : recorder.run recording callbacks = some (keepGoing, recorder')) :
    keepGoing = true ∧ ∃ events visitor',
      recorder'.checkState = recorder.checkState ++ events ∧
      visitor.run check callbacks =
        some ((offerAll check visitor.checkState events).1.isNone, visitor') ∧
      visitor'.checkState = (offerAll check visitor.checkState events).2 ∧
      (∀ decision, (offerAll check visitor.checkState events).1 = some decision →
        visitor'.decision_ = decision) ∧
      ((offerAll check visitor.checkState events).1 = none → visitor'.decision_ =
        (decisions check visitor.checkState events).getLastD visitor.decision_) := by
  induction callbacks generalizing visitor recorder with
  | nil =>
      cases h
      exact ⟨rfl, [], visitor, (List.append_nil _).symm, rfl, rfl, fun _ h => (nomatch h),
        fun _ => rfl⟩
  | cons callback callbacks ih =>
      rw [JsonVisitor.run] at h
      split at h
      · cases h
      · rename_i handled hhandle
        cases (handle_alike check halike hhandle).1
      · rename_i handled hhandle
        obtain ⟨-, ⟨hstate, hvisitor, halike'⟩ | ⟨event, next, hstate, hvisitor, hcheck, hdecision,
          halike'⟩⟩ := handle_alike check halike hhandle
        · obtain ⟨hkeep, events, visitor', hevents, hrun, hrest⟩ := ih halike' h
          refine ⟨hkeep, events, visitor', hstate ▸ hevents, ?_, hrest⟩
          rw [JsonVisitor.run, hvisitor]
          exact hrun
        · obtain ⟨hkeep, events, visitor', hevents, hrun, hstate', hdrop, hlast⟩ := ih halike' h
          rw [hcheck] at hrun hstate' hdrop hlast
          refine ⟨hkeep, event :: events, ?_⟩
          rw [hstate, List.append_assoc, List.singleton_append] at hevents
          rw [JsonVisitor.run, hvisitor, offerAll]
          cases hdrops : (check visitor.checkState event).1.dropped with
          | true =>
              have hadmitted : (check visitor.checkState event).1.admitted = false := by
                simpa [AdmissionDecision.dropped_eq_not_admitted] using hdrops
              refine ⟨next, hevents, ?_⟩
              simp [hadmitted, hdrops, hcheck, hdecision]
          | false =>
              have hadmitted : (check visitor.checkState event).1.admitted = true := by
                simpa [AdmissionDecision.dropped_eq_not_admitted] using hdrops
              refine ⟨visitor', hevents, ?_⟩
              simp only [hadmitted, hdrops, Bool.false_eq_true, if_false]
              refine ⟨hrun, hstate', hdrop, ?_⟩
              intro hnone
              rw [hlast hnone, hdecision, decisions, List.getLastD_cons]

theorem closesOpened_take {opened : Nat} {callbacks : List JsonCallback}
    (h : closesOpened opened callbacks = true) (n : Nat) :
    closesOpened opened (callbacks.take n) = true := by
  induction callbacks generalizing opened n with
  | nil => simpa using h
  | cons callback callbacks ih =>
      cases n with
      | zero => rfl
      | succ n =>
          cases callback <;> simp_all [closesOpened]

/-- No callback finds the stack of keys empty that should not. -/
theorem run_recording {opened : Nat} {callbacks : List JsonCallback}
    (h : closesOpened opened callbacks = true) {recorder : Recorder}
    (hopened : recorder.containerKeys_.length = opened) :
    ∃ recorder', recorder.run recording callbacks = some (true, recorder') := by
  induction callbacks generalizing opened recorder with
  | nil => exact ⟨recorder, rfl⟩
  | cons callback callbacks ih =>
      rw [JsonVisitor.run]
      cases callback with
      | arrayBegin =>
          have hnext : (recorder.onArrayBegin recording).2.containerKeys_.length = opened + 1 := by
            rw [← hopened]
            rfl
          exact ih h hnext
      | objectBegin =>
          have hnext : (recorder.onObjectBegin recording).2.containerKeys_.length = opened + 1 := by
            rw [← hopened]
            rfl
          exact ih h hnext
      | arrayEnd n | objectEnd n =>
          rw [closesOpened, Bool.and_eq_true, decide_eq_true_eq] at h
          obtain ⟨recorded, decision, depth, keys, pending⟩ := recorder
          cases keys with
          | nil => exact absurd hopened (Nat.ne_of_lt h.1)
          | cons key keys =>
              simp only [List.length_cons] at hopened
              have hnext : keys.length = opened - 1 := by omega
              exact ih h.2 hnext
      | _ => exact ih (show closesOpened opened callbacks = true from h) hopened

theorem dropped_lastDecision {check : Check σ} {s : σ} {events : List VisitEvent}
    (h : AdmitsEach check s events) :
    ((decisions check s events).getLastD (.admit_ 0)).dropped = false := by
  obtain heq | hmem := List.mem_cons.mp
    (List.getLastD_mem_cons (l := decisions check s events) (a := .admit_ 0))
  · rw [heq]
    rfl
  · exact decisions_admitsEach h _ hmem

/-- What the parser hands to a check that admits all is a prefix of this. -/
def JsonEmits (parse : ParserRun) (events : List VisitEvent) : Prop :=
  ∃ keepGoing recorder, (JsonVisitor.create []).run recording parse.callbacks =
    some (keepGoing, recorder) ∧ events <+: recorder.checkState

/-- The events the check has been handed after some callbacks. -/
def JsonCalls (parse : ParserRun) (check : Check σ) (s : σ) (events : List VisitEvent) : Prop :=
  ∃ n keepGoing visitor, (JsonVisitor.create (s, [])).run (observed check)
    (parse.callbacks.take n) = some (keepGoing, visitor) ∧ visitor.checkState.2 = events

/-- The events of the callbacks, and the visitor called back for all of them. -/
theorem ParserRun.offers (parse : ParserRun) (check : Check σ) (s : σ) (n : Nat) :
    ∃ recorder visitor, (JsonVisitor.create []).run recording (parse.callbacks.take n) =
        some (true, recorder) ∧
      (JsonVisitor.create s).run check (parse.callbacks.take n) =
        some ((offerAll check s recorder.checkState).1.isNone, visitor) ∧
      visitor.checkState = (offerAll check s recorder.checkState).2 ∧
      (∀ decision, (offerAll check s recorder.checkState).1 = some decision →
        visitor.decision_ = decision) ∧
      ((offerAll check s recorder.checkState).1 = none → visitor.decision_ =
        (decisions check s recorder.checkState).getLastD (.admit_ 0)) := by
  have hempty : (JsonVisitor.create [] : Recorder).containerKeys_.length = 0 := rfl
  have halike : (JsonVisitor.create s).Alike (JsonVisitor.create [] : Recorder) := ⟨rfl, rfl, rfl⟩
  obtain ⟨recorder, hrecorder⟩ := run_recording (closesOpened_take parse.nested n) hempty
  obtain ⟨-, events, visitor, hevents, hrun, hstate, hdrop, hlast⟩ :=
    run_alike check halike hrecorder
  obtain rfl : recorder.checkState = events := hevents
  exact ⟨recorder, visitor, hrecorder, hrun, hstate, hdrop, hlast⟩

theorem visitJson_stopsAtFirstDrop (parser : BasicParser) (bytes : ByteSpan) (check : Check σ)
    (s : σ) (options : VisitJsonOptions) :
    StopsAtFirstDrop check s options.invalidPayload
      (JsonEmits (parser options.maxDepth bytes.bytes))
      (JsonCalls (parser options.maxDepth bytes.bytes) check s)
      (fun result => visitJson parser bytes (observed check) (s, []) options = some result) := by
  generalize hparse : parser options.maxDepth bytes.bytes = parse
  have htake : parse.callbacks.take parse.callbacks.length = parse.callbacks := List.take_length
  obtain ⟨recorder, visitor, hrecorder, hrun, hstate, hdrop, hlast⟩ :=
    parse.offers (observed check) (s, []) parse.callbacks.length
  rw [htake] at hrecorder hrun
  refine ⟨?_, ?_, ?_⟩
  · rintro events ⟨n, keepGoing, visitor', hrun', rfl⟩
    obtain ⟨recorder', visitor'', hrecorder', hrun'', hstate', -⟩ :=
      parse.offers (observed check) (s, []) n
    obtain ⟨-, rfl⟩ := Prod.mk.inj (Option.some.inj (hrun'.symm.trans hrun''))
    have hprefix : recorder'.checkState <+: recorder.checkState := by
      rw [← List.take_append_drop n parse.callbacks, JsonVisitor.run_append hrecorder'] at hrecorder
      have halike : recorder'.Alike recorder' := ⟨rfl, rfl, rfl⟩
      obtain ⟨-, events, -, hevents, -⟩ := run_alike recording halike hrecorder
      exact ⟨events, hevents.symm⟩
    refine ⟨true, recorder, hrecorder, List.IsPrefix.trans ?_ hprefix⟩
    rw [hstate']
    obtain hall | ⟨before, event, after, heq, hbefore, hdrops⟩ :=
      admitsEach_or_drop (observed check) (s, []) recorder'.checkState
    · rw [offerAll_of_admitsEach hall, feed_observed]
      exact List.prefix_refl _
    · rw [heq, offerAll_of_drop hbefore hdrops, feed_observed]
      exact ⟨after, by simp [observed]⟩
  · rintro events event ⟨keepGoing, recorder', hrecorder', ⟨after, hafter⟩⟩ hadmits hdrops
    obtain ⟨-, rfl⟩ := Prod.mk.inj (Option.some.inj (hrecorder'.symm.trans hrecorder))
    have hadmitted : AdmitsEach (observed check) (s, []) events := admitsEach_observed.mpr hadmits
    have hoffer := offerAll_of_drop hadmitted (by rw [feed_observed]; exact hdrops) after
    rw [feed_observed] at hoffer
    rw [List.append_assoc, List.singleton_append] at hafter
    rw [← hafter, hoffer] at hrun hstate hdrop
    have hdecision := hdrop _ rfl
    simp only [observed, List.nil_append] at hdecision hstate
    simp [visitJson, hparse, hrun, hdecision, hdrops, hstate]
  · intro decision s' events hreturns
    simp only [visitJson, hparse, hrun] at hreturns
    obtain hall | ⟨before, event, after, heq, hbefore, hdrops⟩ :=
      admitsEach_or_drop (observed check) (s, []) recorder.checkState
    · rw [offerAll_of_admitsEach hall, feed_observed, List.nil_append] at hstate
      have hdropped : visitor.decision_.dropped = false := by
        rw [hlast (by rw [offerAll_of_admitsEach hall])]
        exact dropped_lastDecision hall
      have hemits : JsonEmits parse recorder.checkState :=
        ⟨true, recorder, hrecorder, List.prefix_refl _⟩
      have hmost : ∀ events', JsonEmits parse events' → events' <+: recorder.checkState := by
        rintro events' ⟨keepGoing, recorder', hrecorder', hprefix⟩
        obtain ⟨-, rfl⟩ := Prod.mk.inj (Option.some.inj (hrecorder'.symm.trans hrecorder))
        exact hprefix
      rw [hstate, hdropped] at hreturns
      -- an error of the parser, or the last decision of the check
      generalize WriteEnding.ec _ _ = ec at hreturns
      cases ec with
      | true =>
          cases hreturns
          exact .inr ⟨hemits, hmost, admitsEach_observed.mp hall, rfl, .inr rfl⟩
      | false =>
          cases hreturns
          exact .inr ⟨hemits, hmost, admitsEach_observed.mp hall, rfl, .inl hdropped⟩
    · have hoffer := offerAll_of_drop hbefore hdrops after
      rw [← heq, feed_observed, List.nil_append] at hoffer
      rw [feed_observed, List.nil_append] at hdrops
      rw [hoffer] at hstate
      rw [hdrop _ (by rw [hoffer]), hstate, if_pos hdrops] at hreturns
      cases hreturns
      refine .inl ⟨before, event, rfl, ⟨true, recorder, hrecorder, after, ?_⟩,
        admitsEach_observed.mp hbefore, rfl, hdrops⟩
      rw [heq, List.append_assoc, List.singleton_append]

/-! ## The four visitors -/

/-- Of whatever a visitor would hand to a check that admits everything, a check is handed
what stands before the first event that it drops, and that event; its decision is returned
then.  The drop of an invalid payload is returned only where no event was dropped. -/
theorem visits_stopAtFirstDrop :
    (∀ (bytes : ByteSpan) (σ : Type) (check : Check σ) (s : σ) (options : ProtobufVisitorOptions),
      StopsAtFirstDrop check s options.invalidPayload
        (LoopEmits (visitLoop bytes recording options))
        (LoopCalls (visitLoop bytes (observed check) options) s)
        (VisitReturns bytes (observed check) (s, []) options)) ∧
    (∀ (body : ByteSpan) (field : UInt64) (σ : Type) (check : Check σ) (s : σ)
      (options : ProtobufVisitorOptions),
      StopsAtFirstDrop check s options.invalidPayload
        (LoopEmits (packedVarintLoop body field recording options))
        (LoopCalls (packedVarintLoop body field (observed check) options) s)
        (PackedVarintReturns body field (observed check) (s, []) options)) ∧
    (∀ (T : PackedType) (body : ByteSpan) (field : UInt64) (σ : Type) (check : Check σ) (s : σ)
      (options : ProtobufVisitorOptions),
      StopsAtFirstDrop check s options.invalidPayload
        (LoopEmits (packedLoop T body field recording))
        (LoopCalls (packedLoop T body field (observed check)) s)
        (PackedReturns T body field (observed check) (s, []))) ∧
    (∀ (parser : BasicParser) (bytes : ByteSpan) (σ : Type) (check : Check σ) (s : σ)
      (options : VisitJsonOptions),
      StopsAtFirstDrop check s options.invalidPayload
        (JsonEmits (parser options.maxDepth bytes.bytes))
        (JsonCalls (parser options.maxDepth bytes.bytes) check s)
        (fun result =>
          visitJson parser bytes (observed check) (s, []) options = some result)) := by
  refine ⟨fun bytes σ check s options => ?_, fun body field σ check s options => ?_,
    fun T body field σ check s options => ?_, fun parser bytes σ check s options => ?_⟩
  · exact (messageReader bytes).stopsAtFirstDrop check s options
  · unfold PackedVarintReturns
    rw [packedVarintLoop_eq, packedVarintLoop_eq]
    exact (packedVarintReader body field).stopsAtFirstDrop check s options
  · exact (packedReader T body field).stopsAtFirstDrop check s options
  · exact visitJson_stopsAtFirstDrop parser bytes check s options

end RpcSpec.Admission
