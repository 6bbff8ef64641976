import RpcSpec.Admission.EntryLevels
import RpcSpec.Admission.Tracking
set_option autoImplicit false

/-!
# Idle sweeps are unobservable

Two runs of the same calls, one with additional sweeps of entries idle for the
time a bucket takes to fill up.  The maps differ, but only by entries whose
buckets are full again, and an entry that is created anew is full as well.
-/

namespace RpcSpec.Admission

open RpcSpec.Foundation

variable {ConnId : Type} [DecidableEq ConnId]

/-- The second list of calls is the first one with sweeps inserted that erase no
entry before its bucket had the time to fill up. -/
inductive SweepsInserted (settings : BucketSettings) :
    List (Call ConnId) → List (Call ConnId) → Prop
  | nil : SweepsInserted settings [] []
  | keep (call : Call ConnId) {calls swept : List (Call ConnId)} :
      SweepsInserted settings calls swept →
      SweepsInserted settings (call :: calls) (call :: swept)
  | sweep (now : TimePoint) {idleFor : ℚ}
      (hidle : settings.capacity / settings.refillRatePerSecond ≤ idleFor)
      {calls swept : List (Call ConnId)} : SweepsInserted settings calls swept →
      SweepsInserted settings calls (.sweepIdle now idleFor :: swept)

/-- The time stamps of the calls. -/
def timesOf (calls : List (Call ConnId)) : List TimePoint := calls.filterMap Call.now?

/-- The decisions returned, in order. -/
def outputsOf (trace : List (LimiterTransition ConnId)) : List AdmissionDecision :=
  trace.filterMap (·.output)

/-! ## Entries that cannot be told apart -/

variable {B : BucketRate ℚ}

/-- From the time `now` on, the entry of a connection in the first run and the one
in the second pay alike, whichever sweeps come: they have the same tokens and
were seen at the same time, or the second run has none and the first one's is
full. -/
inductive Alike (B : BucketRate ℚ) (now : TimePoint) :
    Option BucketEntry → Option BucketEntry → Prop
  | untracked : Alike B now none none
  | tracked {e e' : BucketEntry} (hsound : e.Sound B) (hsound' : e'.Sound B)
      (hzero : e.zero ≤ e.lastSeen) (hseen : e.lastSeen ≤ now)
      (hlast : e'.lastSeen = e.lastSeen) (htokens : e.tokens B now = e'.tokens B now) :
      Alike B now (some e) (some e')
  | swept {e : BucketEntry} (hsound : e.Sound B) (hzero : e.zero ≤ e.lastSeen)
      (hseen : e.lastSeen ≤ now) (hfull : e.tokens B now = B.capacity) :
      Alike B now (some e) none

namespace Alike

variable {now now' : TimePoint} {entry entry' : Option BucketEntry}

theorem sound (h : Alike B now entry entry') : SoundEntry B entry ∧ SoundEntry B entry' := by
  cases h with
  | untracked => exact ⟨.none B, .none B⟩
  | tracked hsound hsound' => exact ⟨soundEntry_some.mpr hsound, soundEntry_some.mpr hsound'⟩
  | swept hsound => exact ⟨soundEntry_some.mpr hsound, .none B⟩

/-- Entries stay alike while time passes. -/
theorem later (h : Alike B now entry entry') (hnow : now ≤ now') :
    Alike B now' entry entry' := by
  cases h with
  | untracked => exact .untracked
  | tracked hsound hsound' hzero hseen hlast htokens =>
      exact .tracked hsound hsound' hzero (hseen.trans hnow) hlast (B.level_congr htokens hnow)
  | @swept e hsound hzero hseen hfull =>
      refine .swept hsound hzero (hseen.trans hnow) (le_antisymm B.level_le_capacity ?_)
      exact hfull.symm.le.trans (B.level_mono hnow)

/-- Both are charged from the same number of tokens. -/
theorem level_zeroFor (h : Alike B now entry entry') :
    B.level (zeroFor B entry now) now = B.level (zeroFor B entry' now) now := by
  cases h with
  | untracked => rfl
  | tracked _ _ _ _ _ htokens => exact htokens
  | swept _ _ _ hfull =>
      rw [zeroFor_some, zeroFor_none, B.level_full]
      exact hfull

theorem zeroFor_le (h : Alike B now entry entry') : zeroFor B entry now ≤ now := by
  cases h with
  | untracked =>
      have hfill : 0 ≤ B.capacity / B.rate := div_nonneg B.capacity_pos.le B.rate_pos.le
      exact sub_le_self now hfill
  | tracked _ _ hzero hseen => exact hzero.trans hseen
  | swept _ hzero hseen => exact hzero.trans hseen

/-- Trying to take tokens succeeds in both runs or in neither, and the entries are
alike afterwards. -/
theorem consume (h : Alike B now entry entry') (cost : ℚ) :
    (consumeEntry (settingsOf B) entry cost now).1 =
        (consumeEntry (settingsOf B) entry' cost now).1 ∧
      Alike B now (some (consumeEntry (settingsOf B) entry cost now).2)
        (some (consumeEntry (settingsOf B) entry' cost now).2) := by
  obtain ⟨hsound, hsound'⟩ := h.sound
  have hlevel := h.level_zeroFor
  rw [consumeEntry_ok hsound, consumeEntry_ok hsound', consumeEntry_zero hsound,
    consumeEntry_zero hsound', hlevel]
  refine ⟨rfl, ?_⟩
  by_cases hpay : 0 < cost ∧ cost ≤ B.level (zeroFor B entry' now) now
  · rw [if_pos hpay, if_pos hpay]
    have hzero : B.take (zeroFor B entry now) now cost ≤ now := B.take_le (hlevel ▸ hpay.2)
    exact .tracked rfl rfl hzero le_rfl rfl
      (congrArg (B.level · now) (B.take_congr hlevel))
  · rw [if_neg hpay, if_neg hpay]
    exact .tracked rfl rfl h.zeroFor_le le_rfl rfl hlevel

/-- An admission returns the same in both runs. -/
theorem settle (h : Alike B now entry entry') (decision : AdmissionDecision) :
    (settleEntry (settingsOf B) entry decision now).1 =
        (settleEntry (settingsOf B) entry' decision now).1 ∧
      Alike B now (settleEntry (settingsOf B) entry decision now).2
        (settleEntry (settingsOf B) entry' decision now).2 := by
  obtain ⟨hok, hconsumed⟩ := h.consume decision.tokenCost
  constructor
  · simp only [settleEntry, hok]
    split <;> rfl
  · rw [settleEntry_entry, settleEntry_entry]
    split
    · exact hconsumed
    · exact h

/-- A sweep both runs make. -/
theorem sweepBoth (h : Alike B now entry entry') (idleFor : ℚ) :
    Alike B now (sweepEntry entry now idleFor) (sweepEntry entry' now idleFor) := by
  unfold sweepEntry
  cases h with
  | untracked => exact .untracked
  | @tracked e e' hsound hsound' hzero hseen hlast htokens =>
      rw [Option.filter_some, Option.filter_some, hlast]
      split
      · exact .tracked hsound hsound' hzero hseen hlast htokens
      · exact .untracked
  | swept hsound hzero hseen hfull =>
      rw [Option.filter_some, Option.filter_none]
      split
      · exact .swept hsound hzero hseen hfull
      · exact .untracked

/-- A sweep only the second run makes: what it erases is full again. -/
theorem sweepSecond (h : Alike B now entry entry') {idleFor : ℚ}
    (hidle : B.capacity / B.rate ≤ idleFor) :
    Alike B now entry (sweepEntry entry' now idleFor) := by
  unfold sweepEntry
  cases h with
  | untracked => exact .untracked
  | swept hsound hzero hseen hfull => exact .swept hsound hzero hseen hfull
  | @tracked e e' hsound hsound' hzero hseen hlast htokens =>
      rw [Option.filter_some]
      split
      · exact .tracked hsound hsound' hzero hseen hlast htokens
      · rename_i hstays
        have hgone : idleFor ≤ now - e.lastSeen := by simpa [hlast] using hstays
        exact .swept hsound hzero hseen (B.level_eq_capacity hzero (hidle.trans hgone))

/-- A call both runs make, at `now` if it has a time stamp. -/
theorem soloStep (h : Alike B now entry entry') (c : ConnId) {call : Call ConnId}
    (hnow : ∀ time, call.now? = some time → time = now) :
    (soloStep (settingsOf B) c entry call).1 = (soloStep (settingsOf B) c entry' call).1 ∧
      Alike B now (soloStep (settingsOf B) c entry call).2
        (soloStep (settingsOf B) c entry' call).2 := by
  cases call with
  | admitPre spec conn payload time =>
      obtain rfl := hnow time rfl
      simp only [RpcSpec.Admission.soloStep, Call.stage?]
      split
      · exact ⟨congrArg some (h.settle _).1, (h.settle _).2⟩
      · exact ⟨rfl, h⟩
  | admit_ spec conn visitor time =>
      obtain rfl := hnow time rfl
      simp only [RpcSpec.Admission.soloStep, Call.stage?]
      split
      · exact ⟨congrArg some (h.settle _).1, (h.settle _).2⟩
      · exact ⟨rfl, h⟩
  | onDisconnect conn =>
      simp only [RpcSpec.Admission.soloStep, Call.stage?]
      refine ⟨trivial, ?_⟩
      split
      · exact .untracked
      · exact h
  | sweepIdle time idleFor =>
      obtain rfl := hnow time rfl
      exact ⟨rfl, h.sweepBoth idleFor⟩

end Alike

/-! ## Limiters that cannot be told apart -/

/-- The limiters of the two runs: all entries are alike, and the first map is
within its bound. -/
structure AlikeLimiters (B : BucketRate ℚ) (now : TimePoint)
    (limiter limiter' : ConnectionLimiter ConnId) : Prop where
  settings_eq : limiter.settings = settingsOf B
  settings_eq' : limiter'.settings = settingsOf B
  maxConnections_eq : limiter'.maxConnections = limiter.maxConnections
  size_le : limiter.size ≤ limiter.bound
  entries : ∀ k, Alike B now (limiter.entry k) (limiter'.entry k)

namespace AlikeLimiters

variable {limiter limiter' : ConnectionLimiter ConnId} {now now' : TimePoint}

theorem later (h : AlikeLimiters B now limiter limiter') (hnow : now ≤ now') :
    AlikeLimiters B now' limiter limiter' :=
  ⟨h.settings_eq, h.settings_eq', h.maxConnections_eq, h.size_le,
    fun k => (h.entries k).later hnow⟩

theorem mem_of_mem (h : AlikeLimiters B now limiter limiter') {k : ConnId}
    (hk : k ∈ limiter'.buckets) : k ∈ limiter.buckets := by
  obtain ⟨e', he'⟩ := KeyedMap.lookup_isSome_of_mem hk
  have halike := h.entries k
  rw [show limiter'.entry k = some e' from he'] at halike
  cases hentry : limiter.entry k with
  | none =>
      rw [hentry] at halike
      cases halike
  | some e => exact ConnectionLimiter.mem_buckets_of_entry hentry

/-- If the second run had to evict an entry, so would the first. -/
theorem evicts (h : AlikeLimiters B now limiter limiter') {call : Call ConnId}
    (hevicts : limiter'.Evicts call) : limiter.Evicts call := by
  obtain ⟨stage, hstage, htouch, hnew, hfull, hpos⟩ := hevicts
  have hsize : limiter'.size ≤ limiter.size :=
    KeyedMap.size_le_of_keys_subset (fun k hk => h.mem_of_mem hk)
  refine ⟨stage, hstage, htouch, ?_, ?_, hpos.trans_le hsize⟩
  · -- an entry only the first run has would make its map exceed the bound
    by_contra htracked
    obtain ⟨e, he⟩ := Option.ne_none_iff_exists'.mp htracked
    have hstrict : limiter'.size ≤ KeyedMap.size (limiter.buckets.erase stage.conn) :=
      KeyedMap.size_le_of_keys_subset (fun k hk => by
        rw [AList.mem_erase]
        refine ⟨?_, h.mem_of_mem hk⟩
        rintro rfl
        exact AList.lookup_eq_none.mp hnew hk)
    have herase := KeyedMap.size_erase_of_mem (ConnectionLimiter.mem_buckets_of_entry he)
    have hbound := h.size_le
    have hmax := h.maxConnections_eq
    rw [ConnectionLimiter.bound] at hbound
    have hdef : limiter.size = KeyedMap.size limiter.buckets := rfl
    omega
  · rw [← h.maxConnections_eq]
    exact hfull.trans hsize

/-- A sweep only the second run makes. -/
theorem sweepSecond {t : LimiterTransition ConnId} (hstep : LimiterStep t) {idleFor : ℚ}
    (hlabel : t.label = .sweepIdle now idleFor) (hidle : B.capacity / B.rate ≤ idleFor)
    (h : AlikeLimiters B now limiter t.source) : AlikeLimiters B now limiter t.target := by
  have hsettings := hstep.settings_eq
  refine ⟨h.settings_eq, hsettings.1.trans h.settings_eq',
    hsettings.2.trans h.maxConnections_eq, h.size_le, fun k => ?_⟩
  have hentry := hstep.entry_of_not_evicts (fun hevicts => by
    obtain ⟨_, hstage, _⟩ := hevicts
    rw [hlabel] at hstage
    cases hstage) k
  rw [hentry, hlabel]
  exact (h.entries k).sweepSecond hidle

/-- A call both runs make: it returns the same, and the limiters stay alike. -/
theorem callBoth {t t' : LimiterTransition ConnId} (hstep : LimiterStep t)
    (hstep' : LimiterStep t') (hlabel : t'.label = t.label)
    (hnow : ∀ time, t.label.now? = some time → time = now)
    (hevicts : ¬ t.source.Evicts t.label) (h : AlikeLimiters B now t.source t'.source) :
    t.output = t'.output ∧ AlikeLimiters B now t.target t'.target := by
  have hsettings := hstep.settings_eq
  have hsettings' := hstep'.settings_eq
  constructor
  · cases hconn : t.label.conn? with
    | none =>
        rw [hstep.output_of_sweep hconn, hstep'.output_of_sweep (hlabel ▸ hconn)]
    | some c =>
        rw [hstep.output hconn, hstep'.output (hlabel ▸ hconn), h.settings_eq, h.settings_eq',
          hlabel]
        exact ((h.entries c).soloStep c hnow).1
  · refine ⟨hsettings.1.trans h.settings_eq, hsettings'.1.trans h.settings_eq', ?_,
      hstep.size_le h.size_le, fun k => ?_⟩
    · rw [hsettings.2, hsettings'.2, h.maxConnections_eq]
    · have hevicts' : ¬ t'.source.Evicts t'.label := fun hevict =>
        hevicts (h.evicts (hlabel ▸ hevict))
      rw [hstep.entry_of_not_evicts hevicts k, hstep'.entry_of_not_evicts hevicts' k,
        h.settings_eq, h.settings_eq', hlabel]
      exact ((h.entries k).soloStep k hnow).2

end AlikeLimiters

/-- From limiters that are alike, the run with the additional sweeps returns the
same decisions. -/
theorem outputsOf_eq_of_alike {calls swept : List (Call ConnId)}
    (hinserted : SweepsInserted (settingsOf B) calls swept) :
    ∀ {now : TimePoint} {limiter limiter' last last' : ConnectionLimiter ConnId}
      {trace trace' : List (LimiterTransition ConnId)},
      LimiterRun limiter trace last → LimiterRun limiter' trace' last' →
      trace.map (·.label) = calls → trace'.map (·.label) = swept →
      (timesOf swept).Pairwise (· ≤ ·) → (∀ time ∈ timesOf swept, now ≤ time) →
      EvictsNothing trace → AlikeLimiters B now limiter limiter' →
      outputsOf trace' = outputsOf trace := by
  induction hinserted with
  | nil =>
      intro now limiter limiter' last last' trace trace' _ _ hcalls hswept _ _ _ _
      rw [List.map_eq_nil_iff.mp hcalls, List.map_eq_nil_iff.mp hswept]
  | @keep call calls swept _ ih =>
      intro now limiter limiter' last last' trace trace' hrun hrun' hcalls hswept hascend
        hpast hevicts halike
      obtain ⟨t, trace, rfl, rfl, hrest⟩ := List.map_eq_cons_iff.mp hcalls
      obtain ⟨t', trace', rfl, hlabel, hrest'⟩ := List.map_eq_cons_iff.mp hswept
      obtain ⟨rfl, hstep, hrun⟩ := Run.cons_iff.mp hrun
      obtain ⟨rfl, hstep', hrun'⟩ := Run.cons_iff.mp hrun'
      -- the time of the call, or still `now` if it has no time stamp
      obtain ⟨now', hnow, htime, hpast', hascend'⟩ :
          ∃ now', now ≤ now' ∧ (∀ time, t.label.now? = some time → time = now') ∧
            (∀ time ∈ timesOf swept, now' ≤ time) ∧ (timesOf swept).Pairwise (· ≤ ·) := by
        cases htime : t.label.now? with
        | none =>
            rw [timesOf, List.filterMap_cons_none htime] at hascend hpast
            exact ⟨now, le_rfl, by simp, hpast, hascend⟩
        | some time =>
            rw [timesOf, List.filterMap_cons_some htime] at hascend hpast
            exact ⟨time, hpast time List.mem_cons_self, by simp,
              (List.pairwise_cons.mp hascend).1, (List.pairwise_cons.mp hascend).2⟩
      obtain ⟨hsame, halike'⟩ := (halike.later hnow).callBoth hstep hstep' hlabel htime
        (hevicts t List.mem_cons_self)
      have hlater := ih hrun hrun' hrest hrest' hascend' hpast'
        (fun t ht => hevicts t (.tail _ ht)) halike'
      unfold outputsOf at hlater ⊢
      rw [List.filterMap_cons, List.filterMap_cons, hsame, hlater]
  | @sweep time idleFor hidle calls swept _ ih =>
      intro now limiter limiter' last last' trace trace' hrun hrun' hcalls hswept hascend
        hpast hevicts halike
      obtain ⟨t', trace', rfl, hlabel, hswept⟩ := List.map_eq_cons_iff.mp hswept
      obtain ⟨rfl, hstep', hrun'⟩ := Run.cons_iff.mp hrun'
      have htimes : timesOf (.sweepIdle time idleFor :: swept) = time :: timesOf swept := rfl
      rw [htimes] at hascend hpast
      obtain ⟨hlater, hascend'⟩ := List.pairwise_cons.mp hascend
      have halike' := (halike.later (hpast time List.mem_cons_self)).sweepSecond hstep' hlabel
        hidle
      have hrest := ih hrun hrun' hcalls hswept hascend' hlater hevicts halike'
      have hnone : t'.output = none := hstep'.output_of_sweep (by rw [hlabel]; rfl)
      rw [← hrest, outputsOf, List.filterMap_cons_none hnone]
      rfl

/-- Sweeps of entries idle for the time a bucket takes to fill up, made at any
points of a run that evicts nothing, change no decision. -/
theorem outputsOf_sweepsInserted (settings : BucketSettings) (hcapacity : 0 < settings.capacity)
    (hrate : 0 < settings.refillRatePerSecond) (maxConnections : Nat)
    (trace swept : List (LimiterTransition ConnId))
    (limiter limiter' : ConnectionLimiter ConnId)
    (hrun : LimiterRun (.create settings maxConnections) trace limiter)
    (hevicts : EvictsNothing trace)
    (hswept : LimiterRun (.create settings maxConnections) swept limiter')
    (hinserted : SweepsInserted settings (trace.map (·.label)) (swept.map (·.label)))
    (hascend : (timesOf (swept.map (·.label))).Pairwise (· ≤ ·)) :
    outputsOf swept = outputsOf trace := by
  have hfirst : ∀ time ∈ timesOf (swept.map (·.label)),
      (timesOf (swept.map (·.label))).head?.getD 0 ≤ time := by
    cases htimes : timesOf (swept.map (·.label)) with
    | nil => simp
    | cons first times =>
        rw [htimes] at hascend
        intro time htime
        rcases List.mem_cons.mp htime with rfl | htime
        · exact le_rfl
        · exact (List.pairwise_cons.mp hascend).1 time htime
  exact outputsOf_eq_of_alike (B := settings.toRate hcapacity hrate) hinserted hrun hswept rfl
    rfl hascend hfirst hevicts ⟨rfl, rfl, rfl, Nat.zero_le _, fun _ => .untracked⟩

/-- Two messages with a long pause between them. -/
def pausedCalls : List (Call Nat) :=
  [.admitPre (.flat 8 7) 1 .empty 0, .admitPre (.flat 8 10) 1 .empty 12]

/-- The same with a sweep in the pause, which erases the connection's entry. -/
def sweptCalls : List (Call Nat) :=
  [.admitPre (.flat 8 7) 1 .empty 0, .sweepIdle 11 10, .admitPre (.flat 8 10) 1 .empty 12]

theorem sweptCalls_outputsOf :
    outputsOf ((ConnectionLimiter.create ⟨10, 1⟩ 2).trace sweptCalls) =
      outputsOf ((ConnectionLimiter.create ⟨10, 1⟩ 2).trace pausedCalls) :=
  outputsOf_sweepsInserted ⟨10, 1⟩ (by decide) (by decide) 2 _ _ _ _
    (ConnectionLimiter.trace_run _ pausedCalls) (by decide +kernel)
    (ConnectionLimiter.trace_run _ sweptCalls)
    (.keep _ (.sweep 11 (by decide +kernel) (.keep _ .nil))) (by decide +kernel)

end RpcSpec.Admission
