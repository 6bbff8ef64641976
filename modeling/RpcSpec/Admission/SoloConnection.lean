import RpcSpec.Admission.ConnectionLimiter
set_option autoImplicit false

/-!
# One connection on its own

What the limiter does for one connection depends on that connection's entry
alone.  This module defines the limiter of a single connection, whose state is
one entry or none, and shows that the limiter of many connections acts on each
as that one does, except that an entry may be evicted to make room for another.

The results about decisions, debits and sweeps are proved on the solo machine and
carried over by `LimiterStep.entry` and `LimiterStep.output`.
-/

namespace RpcSpec.Admission

open RpcSpec.Foundation

variable {ConnId : Type} [DecidableEq ConnId]

/-! ## The solo machine -/

/-- Touch the entry of a connection and try to take `cost` tokens from its
bucket. -/
def consumeEntry (settings : BucketSettings) (entry : Option BucketEntry) (cost : ℚ)
    (now : TimePoint) : Bool × BucketEntry :=
  let (ok, bucket) :=
    (entry.getD (ConnectionLimiter.freshEntry settings now)).bucket.tryConsume cost now
  (ok, ⟨bucket, now⟩)

/-- `settle` on the entry of one connection. -/
def settleEntry (settings : BucketSettings) (entry : Option BucketEntry)
    (decision : AdmissionDecision) (now : TimePoint) :
    AdmissionDecision × Option BucketEntry :=
  let consumed := consumeEntry settings entry decision.tokenCost now
  if decision.dropped then
    (decision, if decision.tokenCost > 0 then some consumed.2 else entry)
  else
    (if consumed.1 then .admit_ decision.tokenCost
      else .drop "connection rate limit exceeded" 0, some consumed.2)

/-- `sweepIdle` on the entry of one connection. -/
def sweepEntry (entry : Option BucketEntry) (now : TimePoint) (idleFor : ℚ) :
    Option BucketEntry :=
  entry.filter (fun entry => !decide (now - entry.lastSeen ≥ idleFor))

/-- One call, seen by the connection `c`: calls of other connections do
nothing. -/
def soloStep (settings : BucketSettings) (c : ConnId) (entry : Option BucketEntry)
    (call : Call ConnId) : Option AdmissionDecision × Option BucketEntry :=
  match call.stage? with
  | some stage =>
      if stage.conn = c then
        let settled := settleEntry settings entry stage.decision stage.now
        (some settled.1, settled.2)
      else (none, entry)
  | none =>
      match call with
      | .onDisconnect conn => (none, if conn = c then none else entry)
      | .sweepIdle now idleFor => (none, sweepEntry entry now idleFor)
      | _ => (none, entry)

/-- On an admission of its own connection the solo machine settles. -/
theorem soloStep_of_stageOf {settings : BucketSettings} {c : ConnId}
    {entry : Option BucketEntry} {call : Call ConnId} {stage : Call.Stage ConnId}
    (h : call.stageOf? c = some stage) :
    soloStep settings c entry call =
      (some (settleEntry settings entry stage.decision stage.now).1,
        (settleEntry settings entry stage.decision stage.now).2) := by
  obtain ⟨hstage, hconn⟩ := Call.stageOf?_eq_some.mp h
  simp only [soloStep, hstage, hconn, if_true]

/-- Every other call decides nothing for the connection, and leaves its entry or
erases it. -/
theorem soloStep_of_no_stageOf (settings : BucketSettings) (entry : Option BucketEntry)
    {c : ConnId} {call : Call ConnId} (h : call.stageOf? c = none) :
    (soloStep settings c entry call).1 = none ∧
      ((soloStep settings c entry call).2 = entry ∨
        (soloStep settings c entry call).2 = none) := by
  unfold soloStep
  cases hstage : call.stage? with
  | some stage =>
      have hconn : stage.conn ≠ c := fun hconn => by
        rw [Call.stageOf?_eq_some.mpr ⟨hstage, hconn⟩] at h
        cases h
      simp only [if_neg hconn]
      exact ⟨trivial, .inl trivial⟩
  | none =>
      cases call with
      | admitPre spec conn payload now => cases hstage
      | admit_ spec conn visitor now => cases hstage
      | onDisconnect conn =>
          dsimp only
          split
          · exact ⟨rfl, .inr rfl⟩
          · exact ⟨rfl, .inl rfl⟩
      | sweepIdle now idleFor =>
          refine ⟨rfl, ?_⟩
          dsimp only [sweepEntry]
          cases entry with
          | none => exact .inl rfl
          | some e =>
              rw [Option.filter_some]
              split
              · exact .inl rfl
              · exact .inr rfl

/-! ## Touching -/

/-- The stage makes the limiter touch the bucket of its connection: an admit
always, a drop when it carries a positive penalty. -/
def Call.Stage.Touches (stage : Call.Stage ConnId) : Prop :=
  stage.decision.dropped = true → 0 < stage.decision.tokenCost

instance (stage : Call.Stage ConnId) : Decidable stage.Touches :=
  inferInstanceAs (Decidable (_ → _))

namespace ConnectionLimiter

/-- The call creates an entry while there is no room for another one, so that an
entry is evicted. -/
def Evicts (limiter : ConnectionLimiter ConnId) (call : Call ConnId) : Prop :=
  ∃ stage, call.stage? = some stage ∧ stage.Touches ∧ limiter.entry stage.conn = none ∧
    limiter.maxConnections ≤ limiter.size ∧ 0 < limiter.size

instance (limiter : ConnectionLimiter ConnId) (call : Call ConnId) :
    Decidable (limiter.Evicts call) :=
  match hstage : call.stage? with
  | none => isFalse (by simp [Evicts, hstage])
  | some stage =>
      decidable_of_iff (stage.Touches ∧ limiter.entry stage.conn = none ∧
        limiter.maxConnections ≤ limiter.size ∧ 0 < limiter.size) (by simp [Evicts, hstage])

variable (limiter : ConnectionLimiter ConnId)

/-- The map a new entry is inserted into. -/
def roomFor (conn : ConnId) : KeyedMap ConnId BucketEntry :=
  if limiter.entry conn = none ∧ limiter.maxConnections ≤ limiter.size then
    evictOldest limiter.buckets
  else limiter.buckets

/-- Touching and consuming writes back the solo machine's entry, into the map
that has room for it. -/
theorem touchAndConsume_eq (conn : ConnId) (cost : ℚ) (now : TimePoint) :
    limiter.touchAndConsume conn cost now =
      ((consumeEntry limiter.settings (limiter.entry conn) cost now).1,
        { limiter with
          buckets := (limiter.roomFor conn).insert conn
            (consumeEntry limiter.settings (limiter.entry conn) cost now).2 }) := by
  cases hentry : limiter.entry conn with
  | none =>
      simp [touchAndConsume, touchBucket, consumeEntry, roomFor, hentry, freshEntry]
  | some entry =>
      simp [touchAndConsume, touchBucket, consumeEntry, roomFor, hentry]

/-- When a new connection finds the map full, an entry that was last seen no later
than any other makes room; all others stay. -/
theorem roomFor_of_full {conn : ConnId} (hnew : limiter.entry conn = none)
    (hfull : limiter.maxConnections ≤ limiter.size) (hpos : 0 < limiter.size) :
    ∃ oldest e, limiter.entry oldest = some e ∧
      (∀ k e', limiter.entry k = some e' → e.lastSeen ≤ e'.lastSeen) ∧
      limiter.roomFor conn = limiter.buckets.erase oldest := by
  rw [roomFor, if_pos ⟨hnew, hfull⟩, evictOldest]
  split
  · rename_i hnone
    rw [KeyedMap.least?_eq_none_iff] at hnone
    exact absurd hnone hpos.ne'
  · rename_i oldest hleast
    obtain ⟨hentry, hminimal⟩ := KeyedMap.least?_spec hleast
    exact ⟨oldest.1, oldest.2, hentry, hminimal, rfl⟩

/-- Otherwise nothing is evicted. -/
theorem roomFor_of_room {conn : ConnId}
    (h : ¬ (limiter.entry conn = none ∧ limiter.maxConnections ≤ limiter.size ∧
      0 < limiter.size)) : limiter.roomFor conn = limiter.buckets := by
  unfold roomFor
  split
  · rename_i hfull
    have hzero : KeyedMap.size limiter.buckets = 0 :=
      Nat.eq_zero_of_not_pos (fun hpos => h ⟨hfull.1, hfull.2, hpos⟩)
    rw [evictOldest, KeyedMap.least?_eq_none_iff.mpr hzero]
  · rfl

/-- An entry that eviction does not leave in place is no longer there, and there
was no room. -/
theorem lookup_roomFor (conn k : ConnId) :
    (limiter.roomFor conn).lookup k = limiter.entry k ∨
      ((limiter.roomFor conn).lookup k = none ∧ limiter.entry k ≠ none ∧
        limiter.entry conn = none ∧ limiter.maxConnections ≤ limiter.size ∧
        0 < limiter.size) := by
  by_cases hfull : limiter.entry conn = none ∧
      limiter.maxConnections ≤ limiter.size ∧ 0 < limiter.size
  · obtain ⟨oldest, e, hentry, _, hroom⟩ :=
      limiter.roomFor_of_full hfull.1 hfull.2.1 hfull.2.2
    rw [hroom]
    by_cases hk : k = oldest
    · subst hk
      exact .inr ⟨AList.lookup_erase _ _, by simp [hentry], hfull⟩
    · exact .inl (AList.lookup_erase_ne hk)
  · rw [limiter.roomFor_of_room hfull]
    exact .inl rfl

/-! ## The limiter acts on each connection as the solo machine -/

theorem touchAndConsume_entry_self (conn : ConnId) (cost : ℚ) (now : TimePoint) :
    (limiter.touchAndConsume conn cost now).2.entry conn =
      some (consumeEntry limiter.settings (limiter.entry conn) cost now).2 := by
  rw [touchAndConsume_eq, entry, AList.lookup_insert]

theorem touchAndConsume_entry_other {conn k : ConnId} (h : k ≠ conn) (cost : ℚ)
    (now : TimePoint) :
    (limiter.touchAndConsume conn cost now).2.entry k =
      (limiter.roomFor conn).lookup k := by
  rw [touchAndConsume_eq, entry, AList.lookup_insert_ne h]

/-- `settle` leaves the limiter a touch leaves, when it touches at all. -/
theorem settle_limiter (conn : ConnId) (decision : AdmissionDecision) (now : TimePoint) :
    (limiter.settle conn decision now).2 =
      if decision.dropped = true → 0 < decision.tokenCost then
        (limiter.touchAndConsume conn decision.tokenCost now).2
      else limiter := by
  unfold settle
  cases hdrop : decision.dropped with
  | true => by_cases hcost : 0 < decision.tokenCost <;> simp [penalize, hcost]
  | false =>
      simp only [charge, Bool.false_eq_true, false_implies, if_false, if_true]
      split <;> rfl

/-- What `settle` returns and what it leaves for its own connection. -/
theorem settle_self (conn : ConnId) (decision : AdmissionDecision) (now : TimePoint) :
    (limiter.settle conn decision now).1 =
        (settleEntry limiter.settings (limiter.entry conn) decision now).1 ∧
      (limiter.settle conn decision now).2.entry conn =
        (settleEntry limiter.settings (limiter.entry conn) decision now).2 := by
  have hentry := limiter.touchAndConsume_entry_self conn decision.tokenCost now
  have hok : (limiter.touchAndConsume conn decision.tokenCost now).1 =
      (consumeEntry limiter.settings (limiter.entry conn) decision.tokenCost now).1 := by
    rw [touchAndConsume_eq]
  constructor
  · cases hdrop : decision.dropped with
    | true =>
        simp only [settle, penalize, settleEntry, hdrop, if_true]
        split <;> rfl
    | false =>
        simp only [settle, charge, settleEntry, hdrop, hok, Bool.false_eq_true, if_false]
        split <;> rfl
  · rw [settle_limiter]
    cases hdrop : decision.dropped with
    | true =>
        by_cases hcost : 0 < decision.tokenCost
        · simp [settleEntry, hdrop, hcost, hentry]
        · simp [settleEntry, hdrop, hcost]
    | false => simp [settleEntry, hdrop, hentry]

/-- What `settle` leaves for another connection: its entry, unless that was
evicted. -/
theorem settle_other {conn k : ConnId} (h : k ≠ conn) (decision : AdmissionDecision)
    (now : TimePoint) :
    (limiter.settle conn decision now).2.entry k = limiter.entry k ∨
      ((decision.dropped = true → 0 < decision.tokenCost) ∧
        (limiter.settle conn decision now).2.entry k = none ∧
        limiter.entry k ≠ none ∧ limiter.entry conn = none ∧
        limiter.maxConnections ≤ limiter.size ∧ 0 < limiter.size) := by
  rw [settle_limiter]
  split
  · rename_i htouch
    rw [limiter.touchAndConsume_entry_other h]
    exact (limiter.lookup_roomFor conn k).imp id (fun hevicted => ⟨htouch, hevicted⟩)
  · exact .inl rfl

theorem settle_settings (conn : ConnId) (decision : AdmissionDecision) (now : TimePoint) :
    (limiter.settle conn decision now).2.settings = limiter.settings ∧
      (limiter.settle conn decision now).2.maxConnections = limiter.maxConnections := by
  rw [settle_limiter]
  split
  · rw [touchAndConsume_eq]
    exact ⟨rfl, rfl⟩
  · exact ⟨rfl, rfl⟩

theorem exec_settings (call : Call ConnId) :
    (limiter.exec call).2.settings = limiter.settings ∧
      (limiter.exec call).2.maxConnections = limiter.maxConnections := by
  cases call with
  | admitPre spec conn payload now => exact limiter.settle_settings conn _ now
  | admit_ spec conn visitor now => exact limiter.settle_settings conn _ now
  | onDisconnect conn => exact ⟨rfl, rfl⟩
  | sweepIdle now idleFor => exact ⟨rfl, rfl⟩

/-- A call about `c` returns what the solo machine of `c` returns. -/
theorem exec_output {call : Call ConnId} {c : ConnId} (h : call.conn? = some c) :
    (limiter.exec call).1 = (soloStep limiter.settings c (limiter.entry c) call).1 := by
  cases call with
  | admitPre spec conn payload now =>
      cases h
      simp [soloStep, Call.stage?, exec, admitPre, limiter.settle_self]
  | admit_ spec conn visitor now =>
      cases h
      simp [soloStep, Call.stage?, exec, admit_, limiter.settle_self]
  | onDisconnect conn => simp [soloStep, Call.stage?, exec]
  | sweepIdle now idleFor => cases h

/-- A call leaves for `c` what the solo machine of `c` leaves, unless the entry
of `c` was evicted. -/
theorem exec_entry (call : Call ConnId) (c : ConnId) :
    (limiter.exec call).2.entry c = (soloStep limiter.settings c (limiter.entry c) call).2 ∨
      (limiter.Evicts call ∧ (limiter.exec call).2.entry c = none ∧
        limiter.entry c ≠ none) := by
  cases hstage : call.stage? with
  | some stage =>
      rw [exec_of_stage hstage]
      simp only [soloStep, hstage]
      by_cases hconn : stage.conn = c
      · subst hconn
        exact .inl (by simp [limiter.settle_self])
      · rw [if_neg hconn]
        rcases limiter.settle_other (Ne.symm hconn) stage.decision stage.now with
          heq | ⟨htouch, hnone, hsome, hnew, hfull, hpos⟩
        · exact .inl heq
        · exact .inr ⟨⟨stage, hstage, htouch, hnew, hfull, hpos⟩, hnone, hsome⟩
  | none =>
      left
      cases call with
      | admitPre spec conn payload now => cases hstage
      | admit_ spec conn visitor now => cases hstage
      | onDisconnect conn =>
          by_cases hconn : conn = c
          · subst hconn
            simp [exec, onDisconnect, soloStep, hstage, entry]
          · simp [exec, onDisconnect, soloStep, hstage, entry, hconn,
              AList.lookup_erase_ne (Ne.symm hconn)]
      | sweepIdle now idleFor =>
          simp [exec, sweepIdle, soloStep, hstage, entry, sweepEntry,
            KeyedMap.lookup_eraseIf]

end ConnectionLimiter

/-! ## Transitions -/

theorem ConnectionLimiter.Rearranged.evicts_iff {limiter limiter' : ConnectionLimiter ConnId}
    (h : limiter.Rearranged limiter') (call : Call ConnId) :
    limiter'.Evicts call ↔ limiter.Evicts call := by
  simp only [ConnectionLimiter.Evicts, h.entry_eq, h.size_eq, h.maxConnections_eq]

namespace LimiterStep

variable {t : LimiterTransition ConnId}

theorem settings_eq (h : LimiterStep t) :
    t.target.settings = t.source.settings ∧
      t.target.maxConnections = t.source.maxConnections := by
  obtain ⟨arranged, harranged, hexec⟩ := h
  have hsettings := arranged.exec_settings t.label
  rw [hexec] at hsettings
  exact ⟨hsettings.1.trans harranged.settings_eq,
    hsettings.2.trans harranged.maxConnections_eq⟩

/-- A call about `c` returns what the solo machine of `c` returns. -/
theorem output {c : ConnId} (h : LimiterStep t) (hconn : t.label.conn? = some c) :
    t.output = (soloStep t.source.settings c (t.source.entry c) t.label).1 := by
  obtain ⟨arranged, harranged, hexec⟩ := h
  have houtput := arranged.exec_output hconn
  rw [hexec, harranged.settings_eq, harranged.entry_eq] at houtput
  exact houtput

/-- A call leaves for `c` what the solo machine of `c` leaves, unless the entry
of `c` was evicted. -/
theorem entry (h : LimiterStep t) (c : ConnId) :
    t.target.entry c = (soloStep t.source.settings c (t.source.entry c) t.label).2 ∨
      (t.source.Evicts t.label ∧ t.target.entry c = none ∧ t.source.entry c ≠ none) := by
  obtain ⟨arranged, harranged, hexec⟩ := h
  have hentry := arranged.exec_entry t.label c
  rw [hexec, harranged.settings_eq, harranged.entry_eq, harranged.evicts_iff] at hentry
  exact hentry

/-- A call that does not take the entry of `c` away leaves for `c` what the solo
machine of `c` leaves. -/
theorem entry_of_kept {c : ConnId} (h : LimiterStep t)
    (hkept : t.source.entry c ≠ none → t.target.entry c ≠ none) :
    t.target.entry c = (soloStep t.source.settings c (t.source.entry c) t.label).2 := by
  rcases h.entry c with hsolo | ⟨_, hnone, hsome⟩
  · exact hsolo
  · exact absurd hnone (hkept hsome)

/-- A call that evicts nothing leaves for every connection what its solo machine
leaves. -/
theorem entry_of_not_evicts (h : LimiterStep t) (hevicts : ¬ t.source.Evicts t.label)
    (c : ConnId) :
    t.target.entry c = (soloStep t.source.settings c (t.source.entry c) t.label).2 := by
  rcases h.entry c with hsolo | ⟨hevict, _, _⟩
  · exact hsolo
  · exact absurd hevict hevicts

/-- A sweep returns no decision. -/
theorem output_of_sweep (h : LimiterStep t) (hconn : t.label.conn? = none) :
    t.output = none := by
  obtain ⟨arranged, _, hexec⟩ := h
  have houtput : (arranged.exec t.label).1 = t.output := congrArg Prod.fst hexec
  rw [← houtput]
  cases hlabel : t.label with
  | sweepIdle now idleFor => rfl
  | admitPre spec conn payload now => rw [hlabel] at hconn; cases hconn
  | admit_ spec conn visitor now => rw [hlabel] at hconn; cases hconn
  | onDisconnect conn => rw [hlabel] at hconn; cases hconn

end LimiterStep

/-- The limiter can carry out every call. -/
theorem limiterStep_total (limiter : ConnectionLimiter ConnId) (call : Call ConnId) :
    ∃ output limiter', LimiterStep ⟨limiter, call, output, limiter'⟩ :=
  ⟨(limiter.exec call).1, (limiter.exec call).2, limiter, .refl limiter, rfl⟩

/-- The decisions a run returned for the calls of `c`, in order. -/
def decisionsOf (c : ConnId) (trace : List (LimiterTransition ConnId)) :
    List AdmissionDecision :=
  trace.filterMap (fun t => if t.label.conn? = some c then t.output else none)

/-- The admissions of `c` in these transitions, in order. -/
def stagesOf (c : ConnId) (trace : List (LimiterTransition ConnId)) :
    List (Call.Stage ConnId) :=
  trace.filterMap (fun t => t.label.stageOf? c)

/-- What a call decides for `c` is what the solo machine returns. -/
theorem LimiterStep.decisionsOf_singleton {t : LimiterTransition ConnId} (h : LimiterStep t)
    (c : ConnId) :
    decisionsOf c [t] =
      (soloStep t.source.settings c (t.source.entry c) t.label).1.toList := by
  cases hstage : t.label.stageOf? c with
  | some stage =>
      obtain ⟨hcall, rfl⟩ := Call.stageOf?_eq_some.mp hstage
      have hconn := Call.conn?_of_stage hcall
      rw [← h.output hconn]
      cases houtput : t.output <;> simp [decisionsOf, hconn, houtput]
  | none =>
      rw [(soloStep_of_no_stageOf _ _ hstage).1]
      by_cases hconn : t.label.conn? = some c
      · simp [decisionsOf, hconn, h.output hconn, (soloStep_of_no_stageOf _ _ hstage).1]
      · simp [decisionsOf, hconn]

theorem decisionsOf_cons (c : ConnId) (t : LimiterTransition ConnId)
    (trace : List (LimiterTransition ConnId)) :
    decisionsOf c (t :: trace) = decisionsOf c [t] ++ decisionsOf c trace := by
  rw [← List.singleton_append, decisionsOf, List.filterMap_append]
  rfl

theorem stagesOf_cons (c : ConnId) (t : LimiterTransition ConnId)
    (trace : List (LimiterTransition ConnId)) :
    stagesOf c (t :: trace) = (t.label.stageOf? c).toList ++ stagesOf c trace := by
  unfold stagesOf
  rw [List.filterMap_cons]
  cases t.label.stageOf? c <;> rfl

/-- The entry of `c` is neither erased nor evicted in these transitions. -/
def KeepsEntry (c : ConnId) (trace : List (LimiterTransition ConnId)) : Prop :=
  ∀ t ∈ trace, t.source.entry c ≠ none → t.target.entry c ≠ none

instance (c : ConnId) (trace : List (LimiterTransition ConnId)) :
    Decidable (KeepsEntry c trace) :=
  inferInstanceAs (Decidable (∀ t ∈ trace, _ → _))

/-- No entry is evicted in these transitions. -/
def EvictsNothing (trace : List (LimiterTransition ConnId)) : Prop :=
  ∀ t ∈ trace, ¬ t.source.Evicts t.label

instance (trace : List (LimiterTransition ConnId)) : Decidable (EvictsNothing trace) :=
  inferInstanceAs (Decidable (∀ t ∈ trace, _))

end RpcSpec.Admission
