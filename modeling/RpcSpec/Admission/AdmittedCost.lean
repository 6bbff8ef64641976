import RpcSpec.Admission.ConnectionLimiter
import RpcSpec.Admission.FirstDrop
set_option autoImplicit false

/-!
# What an admitted message costs

The JSON visitor returns what the check decided last, with its cost; the three visitors
of protobuf bytes return an admit of their own that costs nothing.  What an admitted
message costs is then no function of what the check has charged for its events.
-/

namespace RpcSpec.Admission

open RpcSpec.Foundation

variable {σ : Type}

/-! ## Payloads -/

/-- The range of the reader is read to its end, and these are the events read. -/
def Reader.ReadsAll (reader : Reader) (events : List VisitEvent) : Prop :=
  ∃ pos, reader.Reads 0 events pos ∧ reader.guard pos = false

/-- The events of all the callbacks. -/
def ParserRun.Emits (parse : ParserRun) (events : List VisitEvent) : Prop :=
  ∃ recorder, (JsonVisitor.create []).run recording parse.callbacks = some (true, recorder) ∧
    recorder.checkState = events

/-- A payload and the visitor it is for. -/
inductive Payload where
  | json (bytes : ByteSpan) (options : VisitJsonOptions)
  | protobuf (bytes : ByteSpan) (options : ProtobufVisitorOptions)
  | packedVarint (body : ByteSpan) (field : UInt64) (options : ProtobufVisitorOptions)
  | packedFixed (T : PackedType) (body : ByteSpan) (field : UInt64)

namespace Payload

/-- The payload is a JSON document. -/
def isJson : Payload → Bool
  | .json _ _ => true
  | _ => false

/-- The visitor of the payload returns `result`. -/
def Returns (parser : BasicParser) (check : Check σ) (s : σ) (result : AdmissionDecision × σ) :
    Payload → Prop
  | .json bytes options => visitJson parser bytes check s options = some result
  | .protobuf bytes options => VisitReturns bytes check s options result
  | .packedVarint body field options => PackedVarintReturns body field check s options result
  | .packedFixed T body field => PackedReturns T body field check s result

/-- The payload is well formed, and these are its events. -/
def Emits (parser : BasicParser) (events : List VisitEvent) : Payload → Prop
  | .json bytes options =>
      (parser options.maxDepth bytes.bytes).finished.ec bytes.size = false ∧
        (parser options.maxDepth bytes.bytes).Emits events
  | .protobuf bytes _ => (messageReader bytes).ReadsAll events
  | .packedVarint body field _ => (packedVarintReader body field).ReadsAll events
  | .packedFixed T body field => (packedReader T body field).ReadsAll events

/-- What the visitor charges for events that were admitted at these costs. -/
def price (payload : Payload) (costs : List ℚ) : ℚ :=
  if payload.isJson then costs.getLastD 0 else 0

end Payload

/-- What the check charges for the events, handed to it in turn. -/
def costs (check : Check σ) (s : σ) (events : List VisitEvent) : List ℚ :=
  (decisions check s events).map (·.tokenCost)

theorem tokenCost_lastDecision (check : Check σ) (s : σ) (events : List VisitEvent) :
    ((decisions check s events).getLastD (.admit_ 0)).tokenCost =
      (costs check s events).getLastD 0 :=
  List.getLastD_map.symm

/-! ## What the visitors return -/

section Returns

variable {parser : BasicParser} {check : Check σ} {s : σ} {events : List VisitEvent}

theorem Reader.ReadsAll.returns {reader : Reader} (h : reader.ReadsAll events)
    (hadmits : AdmitsEach check s events) (options : ProtobufVisitorOptions) :
    (reader.loop check options).Returns ⟨0, s⟩ (.admit_ 0, feed check s events) := by
  obtain ⟨pos, hreads, hguard⟩ := h
  have hend (s : σ) : (reader.loop check options).Returns ⟨pos, s⟩ (.admit_ 0, s) :=
    While.returns_of_guard_false hguard
  have hreturns := hreads.returns hend s
  rwa [offerAll_of_admitsEach hadmits] at hreturns

/-- The JSON visitor returns the last decision. -/
theorem visitJson_of_emits {bytes : ByteSpan} {options : VisitJsonOptions}
    (h : (Payload.json bytes options).Emits parser events)
    (hadmits : AdmitsEach check s events) :
    visitJson parser bytes check s options =
      some ((decisions check s events).getLastD (.admit_ 0), feed check s events) := by
  obtain ⟨hfinished, recorder, hrecorder, rfl⟩ := h
  obtain ⟨recorder', visitor, hrecorder', hrun, hstate, -, hdecision⟩ :=
    (parser options.maxDepth bytes.bytes).offers check s
      (parser options.maxDepth bytes.bytes).callbacks.length
  rw [List.take_length] at hrecorder' hrun
  obtain ⟨-, rfl⟩ := Prod.mk.inj (Option.some.inj (hrecorder.symm.trans hrecorder'))
  rw [offerAll_of_admitsEach hadmits] at hrun hstate hdecision
  have hlast := hdecision rfl
  have hadmitted : visitor.decision_.dropped = false := by
    rw [hlast]
    exact dropped_lastDecision hadmits
  rw [visitJson]
  simp only [hrun, Option.isNone_none, if_true, hfinished, hadmitted, Bool.false_eq_true, if_false]
  rw [hlast, hstate]

/-- A well-formed payload of which the check admits every event is admitted, at the price
its visitor puts on the costs. -/
theorem Payload.Emits.returns {payload : Payload} (h : payload.Emits parser events)
    (hadmits : AdmitsEach check s events) :
    ∃ decision, payload.Returns parser check s (decision, feed check s events) ∧
      decision.dropped = false ∧ decision.tokenCost = payload.price (costs check s events) := by
  cases payload with
  | json bytes options =>
      exact ⟨_, visitJson_of_emits h hadmits, dropped_lastDecision hadmits,
        tokenCost_lastDecision check s events⟩
  | protobuf bytes options =>
      refine ⟨.admit_ 0, ?_, rfl, rfl⟩
      rw [Returns, VisitReturns, visitLoop_eq]
      exact Reader.ReadsAll.returns h hadmits options
  | packedVarint body field options =>
      refine ⟨.admit_ 0, ?_, rfl, rfl⟩
      rw [Returns, PackedVarintReturns, packedVarintLoop_eq]
      exact Reader.ReadsAll.returns h hadmits options
  | packedFixed T body field =>
      refine ⟨.admit_ 0, ?_, rfl, rfl⟩
      rw [Returns, PackedReturns, packedLoop_eq T body field check {}]
      exact Reader.ReadsAll.returns h hadmits {}

theorem Payload.Returns.unique {payload : Payload} {result result' : AdmissionDecision × σ}
    (h : payload.Returns parser check s result) (h' : payload.Returns parser check s result') :
    result = result' := by
  cases payload with
  | json bytes options => exact Option.some.inj (h.symm.trans h')
  | protobuf bytes options => exact While.Returns.unique h h'
  | packedVarint body field options => exact While.Returns.unique h h'
  | packedFixed T body field => exact While.Returns.unique h h'

end Returns

/-! ## Messages -/

/-- The checker of the spec, as it is made for one message. -/
def AdmissionSpec.checker (spec : AdmissionSpec) : Check spec.State :=
  spec.makeChecker spec.resolved

/-- A message of a well-formed payload, of which the check of its spec admits every event. -/
structure AdmittedMessage (parser : BasicParser) where
  spec : AdmissionSpec
  payload : Payload
  events : List VisitEvent
  emits : payload.Emits parser events
  admits : AdmitsEach spec.checker spec.initial events

namespace AdmittedMessage

variable {parser : BasicParser}

/-- The token costs of the check's admits, in the order of the events. -/
def costs (message : AdmittedMessage parser) : List ℚ :=
  Admission.costs message.spec.checker message.spec.initial message.events

/-- The visitor returns the decision. -/
def Returns (message : AdmittedMessage parser) (decision : AdmissionDecision) : Prop :=
  ∃ s', message.payload.Returns parser message.spec.checker message.spec.initial (decision, s')

/-- The traversal visits the payload. -/
def Visits (message : AdmittedMessage parser) (visitor : Visitor message.spec.State) : Prop :=
  message.Returns (visitor message.spec.checker message.spec.initial)

theorem returns (message : AdmittedMessage parser) :
    ∃ decision, message.Returns decision ∧ decision.dropped = false ∧
      decision.tokenCost = message.payload.price message.costs := by
  obtain ⟨decision, hreturns, hadmitted, hcost⟩ := message.emits.returns message.admits
  exact ⟨decision, ⟨_, hreturns⟩, hadmitted, hcost⟩

theorem Returns.priced {message : AdmittedMessage parser} {decision : AdmissionDecision}
    (h : message.Returns decision) :
    decision.dropped = false ∧ decision.tokenCost = message.payload.price message.costs := by
  obtain ⟨s', hreturns⟩ := h
  obtain ⟨decision', ⟨s'', hreturns'⟩, hpriced⟩ := message.returns
  obtain ⟨rfl, -⟩ := Prod.mk.inj (hreturns.unique hreturns')
  exact hpriced

end AdmittedMessage

/-- What an admitted message costs decides what is debited for it. -/
theorem ConnectionLimiter.settle_congr {ConnId : Type} [DecidableEq ConnId]
    (limiter : ConnectionLimiter ConnId) (conn : ConnId) {decision decision' : AdmissionDecision}
    (h : decision.dropped = false) (h' : decision'.dropped = false)
    (hcost : decision.tokenCost = decision'.tokenCost) (now : TimePoint) :
    (limiter.settle conn decision now).2 = (limiter.settle conn decision' now).2 := by
  simp only [settle, h, h', Bool.false_eq_true, if_false, charge, hcost]

/-- One function of the costs says what each of the messages costs, and messages of the same
costs are debited the same. -/
structure ChargedAlike {parser : BasicParser} (messages : AdmittedMessage parser → Prop) :
    Prop where
  price : ∃ price : List ℚ → ℚ, ∀ message, messages message → ∃ decision,
    message.Returns decision ∧ decision.admitted = true ∧
      decision.tokenCost = price message.costs
  debits : ∀ message message', messages message → messages message' →
    message.costs = message'.costs → ∀ visitor visitor', message.Visits visitor →
      message'.Visits visitor' → ∀ (ConnId : Type) [DecidableEq ConnId]
        (limiter : ConnectionLimiter ConnId) (conn : ConnId) (now : TimePoint),
        (limiter.admit_ message.spec conn visitor now).2 =
          (limiter.admit_ message'.spec conn visitor' now).2

/-- Where a JSON message and another one have the same costs, the last of them is zero. -/
def LastFreeWhereMixed {parser : BasicParser} (messages : AdmittedMessage parser → Prop) : Prop :=
  ∀ message message', messages message → messages message' → message.payload.isJson = true →
    message'.payload.isJson = false → message.costs = message'.costs → message.costs.getLastD 0 = 0

section ChargedAlike

variable {parser : BasicParser} {messages : AdmittedMessage parser → Prop}

theorem lastFree_of_price {price : List ℚ → ℚ}
    (hprice : ∀ message, messages message → ∃ decision, message.Returns decision ∧
      decision.admitted = true ∧ decision.tokenCost = price message.costs) :
    LastFreeWhereMixed messages := by
  intro message message' hmem hmem' hjson hother hcosts
  obtain ⟨decision, hreturns, -, hcost⟩ := hprice message hmem
  obtain ⟨decision', hreturns', -, hcost'⟩ := hprice message' hmem'
  have hlast : decision.tokenCost = message.costs.getLastD 0 := by
    rw [hreturns.priced.2, Payload.price, if_pos hjson]
  have hzero : decision'.tokenCost = 0 := by
    rw [hreturns'.priced.2, Payload.price, hother, if_neg Bool.false_ne_true]
  rw [← hlast, hcost, hcosts, ← hcost', hzero]

/-- Messages of the same costs have the same price. -/
theorem LastFreeWhereMixed.price_eq (h : LastFreeWhereMixed messages)
    {message message' : AdmittedMessage parser} (hmem : messages message)
    (hmem' : messages message') (hcosts : message.costs = message'.costs) :
    message.payload.price message.costs = message'.payload.price message'.costs := by
  unfold Payload.price
  cases hjson : message.payload.isJson with
  | true =>
      cases hjson' : message'.payload.isJson with
      | true => rw [hcosts]
      | false => exact h message message' hmem hmem' hjson hjson' hcosts
  | false =>
      cases hjson' : message'.payload.isJson with
      | true => exact (h message' message hmem' hmem hjson' hjson hcosts.symm).symm
      | false => rfl

open Classical in
/-- The price of the costs: that of any message that has them. -/
noncomputable def priceOf (messages : AdmittedMessage parser → Prop) (costs : List ℚ) : ℚ :=
  if h : ∃ message, messages message ∧ message.costs = costs then
    h.choose.payload.price costs
  else 0

theorem LastFreeWhereMixed.priceOf_eq (h : LastFreeWhereMixed messages)
    {message : AdmittedMessage parser} (hmem : messages message) :
    priceOf messages message.costs = message.payload.price message.costs := by
  have hsome : ∃ other, messages other ∧ other.costs = message.costs := ⟨message, hmem, rfl⟩
  obtain ⟨hchosen, hcosts⟩ := hsome.choose_spec
  rw [priceOf, dif_pos hsome, ← h.price_eq hchosen hmem hcosts, hcosts]

/-- Messages are charged alike just where no JSON message has the costs of another kind of
message and ends on a cost. -/
theorem chargedAlike_iff (messages : AdmittedMessage parser → Prop) :
    ChargedAlike messages ↔ LastFreeWhereMixed messages := by
  constructor
  · intro h
    obtain ⟨price, hprice⟩ := h.price
    exact lastFree_of_price hprice
  · intro h
    refine ⟨⟨priceOf messages, ?_⟩, ?_⟩
    · intro message hmem
      obtain ⟨decision, hreturns, hadmitted, hcost⟩ := message.returns
      refine ⟨decision, hreturns, ?_, hcost.trans (h.priceOf_eq hmem).symm⟩
      simpa [AdmissionDecision.dropped_eq_not_admitted] using hadmitted
    · intro message message' hmem hmem' hcosts visitor visitor' hvisits hvisits' _ _ limiter conn
        now
      obtain ⟨hadmitted, hcost⟩ := hvisits.priced
      obtain ⟨hadmitted', hcost'⟩ := hvisits'.priced
      apply limiter.settle_congr conn hadmitted hadmitted'
      rw [hcost, hcost', h.price_eq hmem hmem' hcosts]

end ChargedAlike

/-! ## A message in JSON and one in protobuf -/

/-- What the parser does with `null`; nothing else parses. -/
def nullParser : BasicParser := fun _ bytes =>
  if bytes = [0x6E, 0x75, 0x6C, 0x6C] then
    ⟨[.documentBegin, .null, .documentEnd], rfl, .returned 4 false, .returned 4 true⟩
  else ⟨[.documentBegin], rfl, .returned 0 true, .returned 0 true⟩

/-- Each event costs five tokens. -/
def chargingSpec : AdmissionSpec where
  Extra := Unit
  State := Unit
  tunables := ⟨1024, [⟨1024, 1⟩], ()⟩
  initial := ()
  check := some fun state _ _ => (.admit_ 5, state)

/-- The document `null`. -/
def nullMessage : AdmittedMessage nullParser where
  spec := chargingSpec
  payload := .json ⟨[0x6E, 0x75, 0x6C, 0x6C], by decide⟩ {}
  events := [{ kind := .null }]
  emits := ⟨rfl, _, rfl, rfl⟩
  admits := ⟨rfl, trivial⟩

/-- Field 1, the number 1. -/
def numberMessage : AdmittedMessage nullParser where
  spec := chargingSpec
  payload := .protobuf ⟨[0x08, 0x01], by decide⟩ {}
  events := [scalarEvent 1 1]
  emits := ⟨2, .event rfl (by decide) (.here 2), rfl⟩
  admits := ⟨rfl, trivial⟩

/-- A limiter that has seen no connection. -/
def freshLimiter : ConnectionLimiter Nat := .create ⟨10, 1⟩ 4

/-- The check admits the one event of each message at five tokens.  For the first five are
debited, for the second none. -/
theorem nullMessage_numberMessage_chargedApart :
    nullMessage.costs = numberMessage.costs ∧
      ¬ ChargedAlike (fun message => message = nullMessage ∨ message = numberMessage) ∧
      ∀ visitor visitor', nullMessage.Visits visitor → numberMessage.Visits visitor' →
        (freshLimiter.admit_ nullMessage.spec 0 visitor 0).2.entry 0 ≠
          (freshLimiter.admit_ numberMessage.spec 0 visitor' 0).2.entry 0 := by
  have hcosts : nullMessage.costs = numberMessage.costs := rfl
  refine ⟨hcosts, ?_, ?_⟩
  · intro h
    have hlast := lastFree_of_price h.price.choose_spec nullMessage numberMessage (.inl rfl)
      (.inr rfl) rfl rfl hcosts
    exact absurd hlast (by decide)
  · intro visitor visitor' hvisits hvisits'
    obtain ⟨hadmitted, hcost⟩ := hvisits.priced
    obtain ⟨hadmitted', hcost'⟩ := hvisits'.priced
    have hfive := freshLimiter.settle_congr 0 hadmitted (AdmissionDecision.dropped_admit_ 5)
      (hcost.trans (by decide)) 0
    have hzero := freshLimiter.settle_congr 0 hadmitted' (AdmissionDecision.dropped_admit_ 0)
      (hcost'.trans (by decide)) 0
    change (freshLimiter.settle 0 (visitor nullMessage.spec.checker nullMessage.spec.initial)
      0).2.entry 0 ≠ (freshLimiter.settle 0 (visitor' numberMessage.spec.checker
        numberMessage.spec.initial) 0).2.entry 0
    rw [hfive, hzero]
    decide +kernel

end RpcSpec.Admission
