import RpcSpec.Admission.SoloConnection
set_option autoImplicit false

/-!
# What the limiter tracks

The number of tracked connections stays within the bound, and what is evicted is
an entry that was last seen no later than any other.  No assumption is made on
the time stamps.
-/

namespace RpcSpec.Admission

open RpcSpec.Foundation

variable {ConnId : Type} [DecidableEq ConnId]

namespace ConnectionLimiter

variable (limiter : ConnectionLimiter ConnId)

/-- The most entries the map ever holds: with a bound of zero the connection being
served is still tracked. -/
def bound : Nat := max 1 limiter.maxConnections

theorem notMem_roomFor {conn : ConnId} (hnew : limiter.entry conn = none) :
    conn ∉ limiter.roomFor conn := by
  rw [← AList.lookup_eq_none]
  rcases limiter.lookup_roomFor conn conn with hsame | ⟨hnone, _⟩
  · rw [hsame, hnew]
  · exact hnone

/-- There is room for a new entry. -/
theorem size_roomFor_lt {conn : ConnId} (hnew : limiter.entry conn = none)
    (h : limiter.size ≤ limiter.bound) :
    KeyedMap.size (limiter.roomFor conn) + 1 ≤ limiter.bound := by
  unfold bound at *
  by_cases hfull : limiter.maxConnections ≤ limiter.size ∧ 0 < limiter.size
  · obtain ⟨oldest, e, hentry, _, hroom⟩ := limiter.roomFor_of_full hnew hfull.1 hfull.2
    rw [hroom, KeyedMap.size_erase_of_mem (mem_buckets_of_entry hentry)]
    exact h
  · rw [limiter.roomFor_of_room (fun hall => hfull hall.2)]
    change limiter.size + 1 ≤ _
    omega

theorem touchAndConsume_size_le (conn : ConnId) (cost : ℚ) (now : TimePoint)
    (h : limiter.size ≤ limiter.bound) :
    (limiter.touchAndConsume conn cost now).2.size ≤ limiter.bound := by
  rw [touchAndConsume_eq]
  cases hentry : limiter.entry conn with
  | none =>
      rw [size, KeyedMap.size_insert_of_notMem (limiter.notMem_roomFor hentry)]
      exact limiter.size_roomFor_lt hentry h
  | some e =>
      rw [size, limiter.roomFor_of_room (fun hall => by rw [hentry] at hall; cases hall.1),
        KeyedMap.size_insert_of_mem (mem_buckets_of_entry hentry)]
      exact h

theorem exec_size_le (call : Call ConnId) (h : limiter.size ≤ limiter.bound) :
    (limiter.exec call).2.size ≤ limiter.bound := by
  cases hstage : call.stage? with
  | some stage =>
      rw [exec_of_stage hstage, settle_limiter]
      split
      · exact limiter.touchAndConsume_size_le _ _ _ h
      · exact h
  | none =>
      cases call with
      | admitPre spec conn payload now => cases hstage
      | admit_ spec conn visitor now => cases hstage
      | onDisconnect conn =>
          refine le_trans (KeyedMap.size_le_of_keys_subset ?_) h
          intro k hk
          exact (AList.mem_erase.mp hk).2
      | sweepIdle now idleFor =>
          exact (KeyedMap.size_eraseIf_le limiter.buckets _).trans h

/-- An admission that creates an entry while the map is full evicts one that was
last seen no later than any other, and nothing else changes. -/
theorem exec_creates {call : Call ConnId} {conn : ConnId} (hnew : limiter.entry conn = none)
    (hcreated : (limiter.exec call).2.entry conn ≠ none)
    (hfull : limiter.bound ≤ limiter.size) :
    ∃ oldest e, limiter.entry oldest = some e ∧
      (∀ k e', limiter.entry k = some e' → e.lastSeen ≤ e'.lastSeen) ∧
      (limiter.exec call).2.entry oldest = none ∧
      ∀ k, k ≠ oldest → k ≠ conn → (limiter.exec call).2.entry k = limiter.entry k := by
  cases hstage : call.stage? with
  | none =>
      -- neither a disconnect nor a sweep creates an entry
      exfalso
      have hno : call.stageOf? conn = none := by simp [Call.stageOf?, hstage]
      have hnone := soloStep_of_no_stageOf limiter.settings (limiter.entry conn) hno
      rw [hnew, or_self] at hnone
      rcases limiter.exec_entry call conn with hsolo | ⟨_, _, hsome⟩
      · rw [hnew, hnone.2] at hsolo
        exact hcreated hsolo
      · exact hsome hnew
  | some stage =>
      rw [exec_of_stage hstage, settle_limiter] at hcreated ⊢
      split at hcreated
      · rename_i htouch
        rw [if_pos htouch]
        by_cases hconn : conn = stage.conn
        · subst hconn
          unfold bound at hfull
          obtain ⟨oldest, e, hentry, hminimal, hroom⟩ :=
            limiter.roomFor_of_full hnew (by omega) (by omega)
          have hother : oldest ≠ stage.conn := by
            rintro rfl
            rw [hnew] at hentry
            cases hentry
          refine ⟨oldest, e, hentry, hminimal, ?_, ?_⟩
          · rw [limiter.touchAndConsume_entry_other hother, hroom]
            exact AList.lookup_erase _ _
          · intro k hk hkconn
            rw [limiter.touchAndConsume_entry_other hkconn, hroom]
            exact AList.lookup_erase_ne hk
        · exfalso
          rw [limiter.touchAndConsume_entry_other hconn] at hcreated
          rcases limiter.lookup_roomFor stage.conn conn with hsame | ⟨hnone, _⟩
          · exact hcreated (hsame.trans hnew)
          · exact hcreated hnone
      · exact absurd hnew hcreated

/-- A call about a tracked connection leaves all other entries as they are, and its
own in place unless it is a disconnect. -/
theorem exec_tracked {call : Call ConnId} {conn : ConnId} (hconn : call.conn? = some conn)
    (htracked : limiter.entry conn ≠ none) :
    (∀ k, k ≠ conn → (limiter.exec call).2.entry k = limiter.entry k) ∧
      (call ≠ .onDisconnect conn → (limiter.exec call).2.entry conn ≠ none) := by
  cases hstage : call.stage? with
  | some stage =>
      rw [Call.conn?_of_stage hstage] at hconn
      obtain rfl := Option.some.inj hconn
      rw [exec_of_stage hstage]
      constructor
      · intro k hk
        rcases limiter.settle_other hk stage.decision stage.now with
          hsame | ⟨_, _, _, hnew, _⟩
        · exact hsame
        · exact absurd hnew htracked
      · intro _
        rw [settle_limiter]
        split
        · rw [touchAndConsume_entry_self]
          exact Option.some_ne_none _
        · exact htracked
  | none =>
      cases call with
      | admitPre spec conn payload now => cases hstage
      | admit_ spec conn visitor now => cases hstage
      | onDisconnect conn' =>
          obtain rfl := Option.some.inj hconn
          exact ⟨fun k hk => AList.lookup_erase_ne hk, fun hne => absurd rfl hne⟩
      | sweepIdle now idleFor => cases hconn

end ConnectionLimiter

/-! ## Runs -/

theorem LimiterStep.size_le {t : LimiterTransition ConnId} (h : LimiterStep t)
    (hsize : t.source.size ≤ t.source.bound) : t.target.size ≤ t.target.bound := by
  have hsettings := h.settings_eq
  obtain ⟨arranged, harranged, hexec⟩ := h
  have hbound : arranged.bound = t.source.bound := by
    rw [ConnectionLimiter.bound, harranged.maxConnections_eq, ConnectionLimiter.bound]
  have hle := arranged.exec_size_le t.label (by rwa [harranged.size_eq, hbound])
  rw [hexec, hbound] at hle
  rwa [ConnectionLimiter.bound, hsettings.2]

/-- Where a run from the beginning ends, the map is within its bound. -/
theorem LimiterRun.size_le {settings : BucketSettings} {maxConnections : Nat}
    {trace : List (LimiterTransition ConnId)} {limiter : ConnectionLimiter ConnId}
    (h : LimiterRun (.create settings maxConnections) trace limiter) :
    limiter.size ≤ limiter.bound :=
  Run.invariant (I := fun limiter => limiter.size ≤ limiter.bound)
    (fun _ hstep => hstep.size_le) h (Nat.zero_le _)

theorem LimiterRun.maxConnections_eq {settings : BucketSettings} {maxConnections : Nat}
    {trace : List (LimiterTransition ConnId)} {limiter : ConnectionLimiter ConnId}
    (h : LimiterRun (.create settings maxConnections) trace limiter) :
    limiter.maxConnections = maxConnections :=
  Run.invariant (I := fun limiter => limiter.maxConnections = maxConnections)
    (fun _ hstep heq => hstep.settings_eq.2.trans heq) h rfl

/-- In every reachable state the limiter tracks at most `max 1 maxConnections`
connections, each once; a call that creates an entry while that many are tracked
removes exactly one other, among those seen least recently; and a call about a
tracked connection removes nothing, other than a disconnect its own entry. -/
theorem tracking_bounded (settings : BucketSettings) (maxConnections : Nat)
    (trace : List (LimiterTransition ConnId)) (limiter : ConnectionLimiter ConnId)
    (hrun : LimiterRun (.create settings maxConnections) trace limiter) :
    limiter.size ≤ max 1 maxConnections ∧ limiter.buckets.keys.Nodup ∧
      ∀ t : LimiterTransition ConnId, LimiterStep t → t.source = limiter →
        (∀ conn, limiter.entry conn = none → t.target.entry conn ≠ none →
          max 1 maxConnections ≤ limiter.size →
          ∃ oldest e, limiter.entry oldest = some e ∧ oldest ≠ conn ∧
            (∀ k e', limiter.entry k = some e' → e.lastSeen ≤ e'.lastSeen) ∧
            t.target.entry oldest = none ∧
            ∀ k, k ≠ oldest → k ≠ conn → t.target.entry k = limiter.entry k) ∧
        (∀ conn, t.label.conn? = some conn → limiter.entry conn ≠ none →
          (∀ k, k ≠ conn → t.target.entry k = limiter.entry k) ∧
          (t.label ≠ .onDisconnect conn → t.target.entry conn ≠ none)) := by
  have hmax := hrun.maxConnections_eq
  have hsize := hrun.size_le
  rw [ConnectionLimiter.bound, hmax] at hsize
  refine ⟨hsize, limiter.buckets.keys_nodup, ?_⟩
  rintro t ⟨arranged, harranged, hexec⟩ rfl
  have hbound : arranged.bound = max 1 maxConnections := by
    rw [ConnectionLimiter.bound, harranged.maxConnections_eq, hmax]
  have htarget : (arranged.exec t.label).2 = t.target := by rw [hexec]
  constructor
  · intro conn hnew hcreated hfull
    rw [← harranged.entry_eq] at hnew
    obtain ⟨oldest, e, hentry, hminimal, hgone, hothers⟩ := arranged.exec_creates hnew
      (by rwa [htarget]) (by rwa [hbound, harranged.size_eq])
    simp only [harranged.entry_eq, htarget] at hentry hminimal hgone hothers hnew
    refine ⟨oldest, e, hentry, ?_, hminimal, hgone, hothers⟩
    rintro rfl
    rw [hnew] at hentry
    cases hentry
  · intro conn hconn htracked
    rw [← harranged.entry_eq] at htracked
    have hkeeps := arranged.exec_tracked hconn htracked
    simpa only [harranged.entry_eq, htarget] using hkeeps

/-- Three connections that compete for two places. -/
def competingCalls : List (Call Nat) :=
  [.admitPre (.flat 8 1) 1 .empty 5, .admitPre (.flat 8 1) 2 .empty 3,
    .admitPre (.flat 8 1) 3 .empty 4]

theorem competingCalls_tracking_bounded :
    ((ConnectionLimiter.create ⟨10, 1⟩ 2).execAll competingCalls).size ≤ 2 :=
  (tracking_bounded ⟨10, 1⟩ 2 _ _ (ConnectionLimiter.trace_run _ competingCalls)).1

end RpcSpec.Admission
