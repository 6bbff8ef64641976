import RpcSpec.Admission.EntryLevels
import Mathlib.Algebra.BigOperators.Group.List.Basic
set_option autoImplicit false

/-!
# The rate bound

What a connection can spend while its entry stays in the map: a full bucket, and
the refill of the time from its first debit on.  Time stamps may come in any
order; the zero time of the bucket never moves back, because a debit puts it at
least as much later as the debited tokens take to regain.

A debit is read from the answer a call returned (`debit?`), a payment from the bucket
(`payment?`).  `LimiterStep.debit?_eq` says that they agree in every step, `Ledger.run`
what a segment keeps, and `totalDebit_le` is the bound.
-/

namespace RpcSpec.Admission

open RpcSpec.Foundation

variable {ConnId : Type} [DecidableEq ConnId]

/-! ## Debits -/

/-- What a call has taken from the bucket of its connection: of an admitted message the
cost its answer names, of a dropped one the penalty, if the bucket paid it.  A message
that is refused for want of tokens takes none. -/
def costTaken (t : LimiterTransition ConnId) (stage : Call.Stage ConnId) : ℚ :=
  match t.output with
  | some answer =>
      if answer.admitted then answer.tokenCost
      else if stage.decision.dropped ∧
          (t.source.touchAndConsume stage.conn stage.decision.tokenCost stage.now).1 then
        stage.decision.tokenCost
      else 0
  | none => 0

/-- The debit a call makes on the bucket of `c`, and when, if it takes any tokens. -/
def debit? (c : ConnId) (t : LimiterTransition ConnId) : Option (TimePoint × ℚ) :=
  match t.label.stage? with
  | some stage =>
      if stage.conn = c ∧ 0 < costTaken t stage then some (stage.now, costTaken t stage)
      else none
  | none => none

/-- The debits of the bucket of `c` in these transitions, in order. -/
def debitsOf (c : ConnId) (trace : List (LimiterTransition ConnId)) :
    List (TimePoint × ℚ) :=
  trace.filterMap (debit? c)

theorem debitsOf_cons (c : ConnId) (t : LimiterTransition ConnId)
    (trace : List (LimiterTransition ConnId)) :
    debitsOf c (t :: trace) = (debit? c t).toList ++ debitsOf c trace := by
  unfold debitsOf
  rw [List.filterMap_cons]
  cases debit? c t <;> rfl

/-- The tokens of a list of debits. -/
def tokensOf (debits : List (TimePoint × ℚ)) : ℚ := (debits.map (·.2)).sum

theorem tokensOf_append (debits debits' : List (TimePoint × ℚ)) :
    tokensOf (debits ++ debits') = tokensOf debits + tokensOf debits' := by
  simp [tokensOf]

/-- The tokens debited from the bucket of `c` in these transitions. -/
def totalDebit (c : ConnId) (trace : List (LimiterTransition ConnId)) : ℚ :=
  tokensOf (debitsOf c trace)

/-- The latest time stamp in these transitions. -/
def latestTime (trace : List (LimiterTransition ConnId)) : Option TimePoint :=
  (trace.filterMap (·.label.now?)).max?

variable {B : BucketRate ℚ} {c : ConnId}

/-! ## Payments

What the answers say was debited is what the bucket has paid.  The lemmas below are about
the entry of one connection and the call, whatever was answered; `LimiterStep.debit?_eq`
carries them over to the debits. -/

/-- The tokens the bucket of `c` pays for a call, and when, if it pays any. -/
def payment? (settings : BucketSettings) (c : ConnId) (entry : Option BucketEntry)
    (call : Call ConnId) : Option (TimePoint × ℚ) :=
  match call.stage? with
  | some stage =>
      if stage.conn = c ∧ 0 < stage.decision.tokenCost ∧
          (consumeEntry settings entry stage.decision.tokenCost stage.now).1 = true then
        some (stage.now, stage.decision.tokenCost)
      else none
  | none => none

/-- A call takes the cost of its stage when the bucket pays it, and nothing otherwise. -/
theorem LimiterStep.costTaken_eq {t : LimiterTransition ConnId} (h : LimiterStep t)
    {stage : Call.Stage ConnId} (hstage : t.label.stage? = some stage) :
    costTaken t stage =
      if (consumeEntry t.source.settings (t.source.entry stage.conn) stage.decision.tokenCost
        stage.now).1 = true then stage.decision.tokenCost else 0 := by
  have houtput := h.output (Call.conn?_of_stage hstage)
  rw [soloStep_of_stageOf (Call.stageOf?_eq_some.mpr ⟨hstage, rfl⟩)] at houtput
  have hpaid : (t.source.touchAndConsume stage.conn stage.decision.tokenCost stage.now).1 =
      (consumeEntry t.source.settings (t.source.entry stage.conn) stage.decision.tokenCost
        stage.now).1 := by
    rw [ConnectionLimiter.touchAndConsume_eq]
  simp only [costTaken, houtput, settleEntry, hpaid]
  cases hdrop : stage.decision.dropped with
  | true =>
      -- A drop is answered as it is, whether its penalty was paid or not.
      have hnot : stage.decision.admitted = false := by
        simpa [AdmissionDecision.dropped_eq_not_admitted] using hdrop
      simp [hnot]
  | false =>
      simp only [Bool.false_eq_true, if_false, false_and]
      split <;> simp_all

/-- What was debited by the answers is what the bucket has paid. -/
theorem LimiterStep.debit?_eq {t : LimiterTransition ConnId} (h : LimiterStep t) (c : ConnId) :
    debit? c t = payment? t.source.settings c (t.source.entry c) t.label := by
  unfold debit? payment?
  cases hstage : t.label.stage? with
  | none => rfl
  | some stage =>
      by_cases hconn : stage.conn = c
      · subst hconn
        simp only [h.costTaken_eq hstage, true_and]
        by_cases hpaid : (consumeEntry t.source.settings (t.source.entry stage.conn)
          stage.decision.tokenCost stage.now).1 = true
        · simp [hpaid]
        · simp [hpaid]
      · simp only [hconn, false_and, if_false]

theorem payment?_eq_some {entry : Option BucketEntry} (h : SoundEntry B entry)
    {call : Call ConnId} {now : TimePoint} {cost : ℚ} :
    payment? (settingsOf B) c entry call = some (now, cost) ↔
      ∃ stage, call.stage? = some stage ∧ stage.conn = c ∧ stage.now = now ∧
        stage.decision.tokenCost = cost ∧ 0 < cost ∧
        cost ≤ B.level (zeroFor B entry now) now := by
  unfold payment?
  cases hstage : call.stage? with
  | none => simp
  | some stage =>
      simp only [consumeEntry_ok h, decide_eq_true_eq, Option.ite_none_right_eq_some,
        Option.some.injEq, Prod.mk.injEq, exists_eq_left']
      constructor
      · rintro ⟨⟨hconn, hpos, hpay⟩, rfl, rfl⟩
        exact ⟨hconn, rfl, rfl, hpos, hpay.resolve_left (not_le.mpr hpos)⟩
      · rintro ⟨hconn, rfl, rfl, hpos, hpay⟩
        exact ⟨⟨hconn, hpos, .inr hpay⟩, rfl, rfl⟩

/-- What a call of the connection debits, in terms of the level. -/
theorem payment?_of_stageOf {entry : Option BucketEntry} (h : SoundEntry B entry)
    {call : Call ConnId} {stage : Call.Stage ConnId} (hstage : call.stageOf? c = some stage) :
    payment? (settingsOf B) c entry call =
      if 0 < stage.decision.tokenCost ∧
          stage.decision.tokenCost ≤ B.level (zeroFor B entry stage.now) stage.now then
        some (stage.now, stage.decision.tokenCost) else none := by
  obtain ⟨hcall, hconn⟩ := Call.stageOf?_eq_some.mp hstage
  simp only [payment?, hcall, hconn, true_and, consumeEntry_ok h, decide_eq_true_eq]
  refine if_congr (and_congr_right fun hpos => ?_) rfl rfl
  exact or_iff_right (not_le.mpr hpos)

theorem payment?_of_no_stageOf {settings : BucketSettings} {entry : Option BucketEntry}
    {call : Call ConnId} (hstage : call.stageOf? c = none) :
    payment? settings c entry call = none := by
  unfold payment?
  cases hcall : call.stage? with
  | none => rfl
  | some stage =>
      refine if_neg fun hall => ?_
      rw [Call.stageOf?_eq_some.mpr ⟨hcall, hall.1⟩] at hstage
      cases hstage

/-- The time of a payment is the time stamp of its call. -/
theorem now?_of_payment {settings : BucketSettings} {entry : Option BucketEntry}
    {call : Call ConnId} {payment : TimePoint × ℚ}
    (h : payment? settings c entry call = some payment) : call.now? = some payment.1 := by
  unfold payment? at h
  cases call with
  | admitPre spec conn payload now =>
      simp only [Call.stage?, Option.ite_none_right_eq_some] at h
      rw [← Option.some.inj h.2]
      rfl
  | admit_ spec conn visitor now =>
      simp only [Call.stage?, Option.ite_none_right_eq_some] at h
      rw [← Option.some.inj h.2]
      rfl
  | onDisconnect conn => cases h
  | sweepIdle now idleFor => cases h

/-! ## What a call does to the zero time -/

/-- A payment moves the zero time as `BucketRate.take` does. -/
theorem soloStep_of_payment {entry : Option BucketEntry} (h : SoundEntry B entry)
    {call : Call ConnId} {now : TimePoint} {cost : ℚ}
    (hpayment : payment? (settingsOf B) c entry call = some (now, cost)) :
    ∃ e, (soloStep (settingsOf B) c entry call).2 = some e ∧
      e.zero = B.take (zeroFor B entry now) now cost := by
  obtain ⟨stage, hstage, rfl, rfl, rfl, hpos, hpay⟩ := (payment?_eq_some h).mp hpayment
  refine ⟨(consumeEntry (settingsOf B) entry stage.decision.tokenCost stage.now).2, ?_, ?_⟩
  · rw [soloStep_of_stageOf (Call.stageOf?_eq_some.mpr ⟨hstage, rfl⟩), settleEntry_entry,
      if_pos (fun _ => hpos)]
  · rw [consumeEntry_zero h, if_pos ⟨hpos, hpay⟩]
    rfl

/-- Without a payment the zero time of an entry that stays is the same. -/
theorem soloStep_zero_of_no_payment {e e' : BucketEntry} (h : e.Sound B)
    {call : Call ConnId} (hpayment : payment? (settingsOf B) c (some e) call = none)
    (hstays : (soloStep (settingsOf B) c (some e) call).2 = some e') : e'.zero = e.zero := by
  cases hstage : call.stageOf? c with
  | some stage =>
      obtain ⟨hcall, hconn⟩ := Call.stageOf?_eq_some.mp hstage
      rw [soloStep_of_stageOf hstage, settleEntry_entry] at hstays
      split at hstays
      · rw [← Option.some.inj hstays, consumeEntry_zero (soundEntry_some.mpr h), if_neg]
        · rfl
        · rintro ⟨hpos, hpay⟩
          have hsome := (payment?_eq_some (c := c) (soundEntry_some.mpr h)).mpr
            ⟨stage, hcall, hconn, rfl, rfl, hpos, hpay⟩
          rw [hpayment] at hsome
          cases hsome
      · rw [← Option.some.inj hstays]
  | none =>
      rcases (soloStep_of_no_stageOf _ _ hstage).2 with hsame | hgone
      · rw [hsame] at hstays
        rw [← Option.some.inj hstays]
      · rw [hgone] at hstays
        cases hstays

/-! ## The ledger of a segment -/

/-- The debits made since the start of the segment have moved the zero time at
least to that of a full bucket at the first debit, plus the time it takes to
regain all of them; and the zero time is not after the latest time stamp. -/
def Ledger (B : BucketRate ℚ) (latest : TimePoint) :
    List (TimePoint × ℚ) → Option BucketEntry → Prop
  | [], _ => True
  | first :: rest, entry =>
      ∃ e, entry = some e ∧
        B.full first.1 + tokensOf (first :: rest) / B.rate ≤ e.zero ∧ e.zero ≤ latest

/-- One call keeps the ledger. -/
theorem Ledger.step {t : LimiterTransition ConnId} {latest : TimePoint}
    {done : List (TimePoint × ℚ)} (hstep : LimiterStep t)
    (hsound : SoundLimiter B t.source)
    (hkept : t.source.entry c ≠ none → t.target.entry c ≠ none)
    (hlatest : ∀ now, t.label.now? = some now → now ≤ latest)
    (h : Ledger B latest done (t.source.entry c)) :
    Ledger B latest
      (done ++ (debit? c t).toList)
      (t.target.entry c) := by
  have hentry := hstep.entry_of_kept hkept
  rw [hstep.debit?_eq]
  rw [hsound.settings_eq] at hentry ⊢
  cases hpayment : payment? (settingsOf B) c (t.source.entry c) t.label with
  | none =>
      rw [Option.toList_none, List.append_nil]
      cases done with
      | nil => trivial
      | cons first rest =>
          obtain ⟨e, he, hregain, hpast⟩ := h
          obtain ⟨e', he'⟩ := Option.ne_none_iff_exists'.mp (hkept (by simp [he]))
          have hsame : e'.zero = e.zero := by
            rw [he] at hentry hpayment
            exact soloStep_zero_of_no_payment
              (soundEntry_some.mp (he ▸ hsound.entries c)) hpayment (hentry ▸ he')
          exact ⟨e', he', by rwa [hsame], by rwa [hsame]⟩
  | some payment =>
      obtain ⟨now, cost⟩ := payment
      obtain ⟨e', he', hzero⟩ := soloStep_of_payment (hsound.entries c) hpayment
      obtain ⟨_, _, _, _, _, _, hpay⟩ := (payment?_eq_some (hsound.entries c)).mp hpayment
      have hpast : e'.zero ≤ latest := by
        rw [hzero]
        exact (B.take_le hpay).trans (hlatest now (now?_of_payment hpayment))
      rw [Option.toList_some]
      cases done with
      | nil =>
          refine ⟨e', hentry.trans he', ?_, hpast⟩
          rw [hzero]
          simpa [tokensOf] using B.full_add_le_take
      | cons first rest =>
          obtain ⟨e, he, hregain, _⟩ := h
          refine ⟨e', hentry.trans he', ?_, hpast⟩
          have htake : e.zero + cost / B.rate ≤ e'.zero := by
            rw [hzero, he, zeroFor_some]
            exact B.add_le_take
          have htokens : tokensOf (first :: (rest ++ [(now, cost)])) =
              tokensOf (first :: rest) + cost := by
            rw [← List.cons_append, tokensOf_append]
            simp [tokensOf]
          calc B.full first.1 + tokensOf (first :: (rest ++ [(now, cost)])) / B.rate
              = B.full first.1 + tokensOf (first :: rest) / B.rate + cost / B.rate := by
                rw [htokens, add_div, add_assoc]
            _ ≤ e.zero + cost / B.rate := by linarith
            _ ≤ e'.zero := htake

/-- A segment that keeps the entry keeps the ledger. -/
theorem Ledger.run {limiter limiter' : ConnectionLimiter ConnId}
    {segment : List (LimiterTransition ConnId)} {latest : TimePoint}
    (hrun : LimiterRun limiter segment limiter') :
    ∀ {done : List (TimePoint × ℚ)}, SoundLimiter B limiter → KeepsEntry c segment →
      (∀ t ∈ segment, ∀ now, t.label.now? = some now → now ≤ latest) →
      Ledger B latest done (limiter.entry c) →
      Ledger B latest (done ++ debitsOf c segment) (limiter'.entry c) := by
  induction hrun with
  | nil s =>
      intro done _ _ _ h
      simpa [debitsOf] using h
  | @cons t trace s hstep hrest ih =>
      intro done hsound hkeeps hlatest h
      have hnext := h.step hstep hsound (hkeeps t List.mem_cons_self)
        (hlatest t List.mem_cons_self)
      have hend := ih (hstep.sound hsound) (fun t' ht' => hkeeps t' (.tail _ ht'))
        (fun t' ht' => hlatest t' (.tail _ ht')) hnext
      rwa [debitsOf_cons, ← List.append_assoc]

omit [DecidableEq ConnId] in
theorem le_latestTime {segment : List (LimiterTransition ConnId)} {latest : TimePoint}
    (h : latestTime segment = some latest) :
    ∀ t ∈ segment, ∀ now, t.label.now? = some now → now ≤ latest := by
  intro t ht now hnow
  have hmax := (List.max?_eq_some_iff.mp h).2
  exact hmax now (List.mem_filterMap.mpr ⟨t, ht, hnow⟩)

/-- In a segment of a run that does not take the entry of `c` away, at most a
full bucket and the refill since the first debit is debited. -/
theorem totalDebit_le (settings : BucketSettings) (hcapacity : 0 < settings.capacity)
    (hrate : 0 < settings.refillRatePerSecond) (maxConnections : Nat)
    (before segment after : List (LimiterTransition ConnId))
    (limiter' : ConnectionLimiter ConnId)
    (hrun : LimiterRun (.create settings maxConnections) (before ++ segment ++ after) limiter')
    (c : ConnId) (hkeeps : KeepsEntry c segment)
    (first : TimePoint × ℚ) (rest : List (TimePoint × ℚ))
    (hdebits : debitsOf c segment = first :: rest)
    (latest : TimePoint) (hlatest : latestTime segment = some latest) :
    totalDebit c segment ≤
      settings.capacity + settings.refillRatePerSecond * (latest - first.1) := by
  let B := settings.toRate hcapacity hrate
  obtain ⟨mid', hrun, _⟩ := Run.append_iff.mp hrun
  obtain ⟨mid, hbefore, hsegment⟩ := Run.append_iff.mp hrun
  have hsound : SoundLimiter B mid := (SoundLimiter.create maxConnections).run hbefore
  have hledger : Ledger B latest ([] ++ debitsOf c segment) (mid'.entry c) :=
    Ledger.run hsegment hsound hkeeps (le_latestTime hlatest) trivial
  rw [List.nil_append, hdebits] at hledger
  obtain ⟨e, _, hregain, hpast⟩ := hledger
  have hquot : tokensOf (first :: rest) / B.rate ≤
      latest - first.1 + B.capacity / B.rate := by
    have hfull : B.full first.1 = first.1 - B.capacity / B.rate := rfl
    rw [hfull] at hregain
    linarith
  rw [totalDebit, hdebits]
  rw [div_le_iff₀ B.rate_pos, add_mul, div_mul_cancel₀ _ B.rate_pos.ne'] at hquot
  calc tokensOf (first :: rest)
      ≤ (latest - first.1) * B.rate + B.capacity := hquot
    _ = settings.capacity + settings.refillRatePerSecond * (latest - first.1) := by
        rw [mul_comm, add_comm]
        rfl

/-- Two connections, time stamps that go back, and a sweep that erases the other
connection's entry. -/
def twoConnectionCalls : List (Call Nat) :=
  [.admitPre (.flat 8 7) 1 .empty 5, .admitPre (.flat 8 4) 0 .empty 3,
    .sweepIdle 20 16, .admitPre (.flat 8 9) 1 .empty 6]

theorem twoConnectionCalls_totalDebit_le :
    totalDebit 1 ((ConnectionLimiter.create ⟨10, 2⟩ 4).trace twoConnectionCalls) ≤
      10 + 2 * (20 - 5) :=
  totalDebit_le ⟨10, 2⟩ (by decide) (by decide) 4 []
    ((ConnectionLimiter.create ⟨10, 2⟩ 4).trace twoConnectionCalls) [] _
    (by simpa using ConnectionLimiter.trace_run _ twoConnectionCalls) 1
    (by decide +kernel) (5, 7) [] (by decide +kernel) 20 (by decide +kernel)

end RpcSpec.Admission
