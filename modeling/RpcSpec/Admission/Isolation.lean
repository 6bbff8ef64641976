import RpcSpec.Admission.SoloConnection
set_option autoImplicit false

/-!
# Isolation of connections

While no entry is evicted, a connection cannot tell whether others are there: its
decisions are those of the run in which only its own calls and the sweeps are
made.  Both runs follow the solo machine, which calls of other connections leave
where it is.
-/

namespace RpcSpec.Admission

open RpcSpec.Foundation

variable {ConnId : Type} [DecidableEq ConnId]

/-- The decisions of the solo machine of `c` on these calls. -/
def soloDecisions (settings : BucketSettings) (c : ConnId) :
    Option BucketEntry → List (Call ConnId) → List AdmissionDecision
  | _, [] => []
  | entry, call :: calls =>
      (soloStep settings c entry call).1.toList ++
        soloDecisions settings c (soloStep settings c entry call).2 calls

/-- The calls about `c` and the sweeps. -/
def Call.Concerns (c : ConnId) (call : Call ConnId) : Prop :=
  call.conn? = none ∨ call.conn? = some c

instance (c : ConnId) : DecidablePred (Call.Concerns c) :=
  fun _ => inferInstanceAs (Decidable (_ ∨ _))

/-- A call of another connection leaves the solo machine where it is. -/
theorem soloStep_of_not_concerns {settings : BucketSettings} {c : ConnId}
    {entry : Option BucketEntry} {call : Call ConnId} (h : ¬ call.Concerns c) :
    soloStep settings c entry call = (none, entry) := by
  cases call with
  | admitPre spec conn payload now =>
      have hconn : conn ≠ c := fun heq => h (.inr (congrArg some heq))
      simp [soloStep, Call.stage?, hconn]
  | admit_ spec conn visitor now =>
      have hconn : conn ≠ c := fun heq => h (.inr (congrArg some heq))
      simp [soloStep, Call.stage?, hconn]
  | onDisconnect conn =>
      have hconn : conn ≠ c := fun heq => h (.inr (congrArg some heq))
      simp [soloStep, Call.stage?, hconn]
  | sweepIdle now idleFor => exact absurd (.inl rfl) h

/-- So it decides the same when the calls of the others are left out. -/
theorem soloDecisions_filter (settings : BucketSettings) (c : ConnId)
    (calls : List (Call ConnId)) :
    ∀ entry, soloDecisions settings c entry (calls.filter (fun call => call.Concerns c)) =
      soloDecisions settings c entry calls := by
  induction calls with
  | nil => intro entry; rfl
  | cons call calls ih =>
      intro entry
      by_cases hconcerns : call.Concerns c
      · rw [List.filter_cons_of_pos (by simpa using hconcerns), soloDecisions, soloDecisions, ih]
      · rw [List.filter_cons_of_neg (by simpa using hconcerns), ih, soloDecisions,
          soloStep_of_not_concerns hconcerns]
        rfl

/-- A run that does not evict the entry of `c` decides for `c` as its solo machine
does. -/
theorem decisionsOf_eq_soloDecisions {limiter limiter' : ConnectionLimiter ConnId}
    {trace : List (LimiterTransition ConnId)} (hrun : LimiterRun limiter trace limiter')
    {c : ConnId}
    (hkept : ∀ t ∈ trace, t.source.Evicts t.label → t.source.entry c = none) :
    decisionsOf c trace =
      soloDecisions limiter.settings c (limiter.entry c) (trace.map (·.label)) := by
  induction hrun with
  | nil s => rfl
  | @cons t trace s hstep hrest ih =>
      have hentry : t.target.entry c =
          (soloStep t.source.settings c (t.source.entry c) t.label).2 := by
        rcases hstep.entry c with hsolo | ⟨hevicts, _, hsome⟩
        · exact hsolo
        · exact absurd (hkept t List.mem_cons_self hevicts) hsome
      have hrest := ih (fun t' ht' => hkept t' (.tail _ ht'))
      rw [hstep.settings_eq.1, hentry] at hrest
      rw [decisionsOf_cons, hrest, hstep.decisionsOf_singleton]
      rfl

/-- A run of the calls about `c` and the sweeps alone. -/
def AloneRun (settings : BucketSettings) (maxConnections : Nat) (c : ConnId)
    (calls : List (Call ConnId)) (alone : List (LimiterTransition ConnId)) : Prop :=
  (∃ limiter', LimiterRun (.create settings maxConnections) alone limiter') ∧
    alone.map (·.label) = calls.filter (fun call => call.Concerns c)

/-- In a run that evicts nothing, every connection gets the decisions it would get
if it were alone. -/
theorem decisionsOf_alone (settings : BucketSettings) (maxConnections : Nat)
    (trace : List (LimiterTransition ConnId)) (limiter' : ConnectionLimiter ConnId)
    (hrun : LimiterRun (.create settings maxConnections) trace limiter')
    (hevicts : EvictsNothing trace) (c : ConnId) :
    (∃ alone, AloneRun settings maxConnections c (trace.map (·.label)) alone) ∧
      ∀ alone, AloneRun settings maxConnections c (trace.map (·.label)) alone →
        decisionsOf c alone = decisionsOf c trace := by
  constructor
  · obtain ⟨alone, last, halone, hlabels⟩ := Run.exists_of_total limiterStep_total
      ((trace.map (·.label)).filter (fun call => call.Concerns c))
      (ConnectionLimiter.create settings maxConnections)
    exact ⟨alone, ⟨last, halone⟩, hlabels⟩
  · rintro alone ⟨⟨last, halone⟩, hlabels⟩
    have htrace := decisionsOf_eq_soloDecisions (c := c) hrun
      (fun t ht hevict => absurd hevict (hevicts t ht))
    -- alone, only `c` has new entries, and none while it has one already
    have hsolo := decisionsOf_eq_soloDecisions (c := c) halone (fun t ht hevict => by
      obtain ⟨stage, hstage, _, hnew, _, _⟩ := hevict
      have hmem : t.label ∈ alone.map (·.label) := List.mem_map_of_mem ht
      rw [hlabels] at hmem
      have hconcerns : t.label.Concerns c := by simpa using (List.mem_filter.mp hmem).2
      rw [Call.Concerns, Call.conn?_of_stage hstage] at hconcerns
      rcases hconcerns with hnone | hself
      · cases hnone
      · rwa [Option.some.inj hself] at hnew)
    rw [hsolo, htrace, hlabels]
    exact soloDecisions_filter settings c _ _

/-- Two connections that both hit their limit, a sweep and a disconnect. -/
def interleavedCalls : List (Call Nat) :=
  [.admitPre (.flat 8 7) 1 .empty 0, .admitPre (.flat 8 9) 2 .empty 0,
    .admitPre (.flat 8 7) 1 .empty 1, .sweepIdle 9 8, .onDisconnect 2,
    .admitPre (.flat 8 9) 2 .empty 9, .admitPre (.flat 8 3) 1 .empty 9]

theorem interleavedCalls_decisionsOf_alone :
    ∃ alone, AloneRun ⟨10, 1⟩ 2 1
        (((ConnectionLimiter.create ⟨10, 1⟩ 2).trace interleavedCalls).map (·.label)) alone ∧
      decisionsOf 1 alone =
        decisionsOf 1 ((ConnectionLimiter.create ⟨10, 1⟩ 2).trace interleavedCalls) :=
  have halone := decisionsOf_alone ⟨10, 1⟩ 2 _ _
    (ConnectionLimiter.trace_run _ interleavedCalls) (by decide +kernel) 1
  halone.1.imp (fun alone hrun => ⟨hrun, halone.2 alone hrun⟩)

end RpcSpec.Admission
