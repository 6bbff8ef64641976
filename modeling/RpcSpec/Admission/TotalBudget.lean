import RpcSpec.Admission.RateBound
import RpcSpec.Admission.Tracking
set_option autoImplicit false

/-!
# The budget of all connections together

What the limiter lets through over any stretch of a run, whoever asks for it and whatever is
evicted meanwhile: the full buckets of the connections tracked at its start and of the
entries created in it, and the refill of as many buckets as may be tracked at once.  The time
stamps have to ascend, as the source asks of its callers.
-/

namespace RpcSpec.Admission

open RpcSpec.Foundation

variable {ConnId : Type} [DecidableEq ConnId]

/-- The tokens a call takes from the bucket of its connection. -/
def debitOf (t : LimiterTransition ConnId) : ℚ :=
  match t.label.stage? with
  | some stage =>
      ((debit? stage.conn t).map (·.2)).getD 0
  | none => 0

/-- The call creates an entry for its connection. -/
def creates (t : LimiterTransition ConnId) : Bool :=
  t.label.stage?.any fun stage =>
    (t.source.entry stage.conn).isNone && (t.target.entry stage.conn).isSome

section Tokens

variable (B : BucketRate ℚ)

namespace ConnectionLimiter

/-- The tokens in all buckets. -/
def tokens (limiter : ConnectionLimiter ConnId) (now : TimePoint) : ℚ :=
  KeyedMap.total (·.tokens B now) limiter.buckets

/-- No bucket was last empty after this time. -/
def Past (limiter : ConnectionLimiter ConnId) (now : TimePoint) : Prop :=
  ∀ entry ∈ limiter.buckets.entries, entry.2.zero ≤ now

variable {limiter : ConnectionLimiter ConnId} {now now' : TimePoint}

omit [DecidableEq ConnId] in
theorem Past.tokens_nonneg (h : limiter.Past now) :
    ∀ entry ∈ limiter.buckets.entries, 0 ≤ entry.2.tokens B now :=
  fun entry hentry => B.level_nonneg (h entry hentry)

omit [DecidableEq ConnId] in
theorem tokens_le_capacity (limiter : ConnectionLimiter ConnId) (now : TimePoint) :
    limiter.tokens B now ≤ limiter.size * B.capacity := by
  have hle : limiter.tokens B now ≤ KeyedMap.total (fun _ => (0 : ℚ)) limiter.buckets +
      KeyedMap.size limiter.buckets • B.capacity :=
    KeyedMap.total_le_total_add fun entry _ => by
      rw [zero_add]
      exact B.level_le_capacity
  have hempty : KeyedMap.total (fun _ => (0 : ℚ)) limiter.buckets = 0 := by
    simp [KeyedMap.total]
  rwa [hempty, zero_add, nsmul_eq_mul] at hle

omit [DecidableEq ConnId] in
/-- Time passing refills as many buckets as there are. -/
theorem tokens_later_le (limiter : ConnectionLimiter ConnId) (h : now ≤ now') :
    limiter.tokens B now' ≤
      limiter.tokens B now + limiter.size * (B.rate * (now' - now)) := by
  have hle : limiter.tokens B now' ≤ limiter.tokens B now +
      KeyedMap.size limiter.buckets • (B.rate * (now' - now)) :=
    KeyedMap.total_le_total_add fun entry _ => B.level_le_add h
  rwa [nsmul_eq_mul] at hle

/-! ## A call -/

/-- Making room takes tokens away, if anything. -/
theorem total_roomFor_le (limiter : ConnectionLimiter ConnId) (conn : ConnId)
    (hpast : limiter.Past now) :
    KeyedMap.total (·.tokens B now) (limiter.roomFor conn) ≤ limiter.tokens B now := by
  by_cases hfull : limiter.entry conn = none ∧
      limiter.maxConnections ≤ limiter.size ∧ 0 < limiter.size
  · obtain ⟨oldest, e, -, -, hroom⟩ := limiter.roomFor_of_full hfull.1 hfull.2.1 hfull.2.2
    rw [hroom]
    exact KeyedMap.total_erase_le (hpast.tokens_nonneg B) oldest
  · rw [limiter.roomFor_of_room hfull]
    rfl

/-- Touching pays for the debit out of the tokens there are, or those of the new entry. -/
theorem touchAndConsume_tokens {limiter : ConnectionLimiter ConnId}
    (hsound : SoundLimiter B limiter) (conn : ConnId) (cost : ℚ) (now : TimePoint)
    (hpast : limiter.Past now) :
    (if 0 < cost ∧ cost ≤ B.level (zeroFor B (limiter.entry conn) now) now then cost else 0) +
        (limiter.touchAndConsume conn cost now).2.tokens B now ≤
      limiter.tokens B now + if limiter.entry conn = none then B.capacity else 0 := by
  have hentry := hsound.entries conn
  have hconsumed : (if 0 < cost ∧ cost ≤ B.level (zeroFor B (limiter.entry conn) now) now
      then cost else 0) + (consumeEntry (settingsOf B) (limiter.entry conn) cost now).2.tokens B
        now = B.level (zeroFor B (limiter.entry conn) now) now := by
    rw [consumeEntry_zero hentry]
    split
    · rename_i hpay
      change cost + B.level (B.take _ now cost) now = _
      rw [B.level_take_of_nonneg hpay.1.le]
      ring
    · exact zero_add _
  rw [touchAndConsume_eq, hsound.settings_eq]
  simp only [tokens, KeyedMap.total_insert]
  rw [← add_assoc, hconsumed]
  cases hnew : limiter.entry conn with
  | some e =>
      have hroom : limiter.roomFor conn = limiter.buckets :=
        limiter.roomFor_of_room fun hall => by rw [hnew] at hall; cases hall.1
      rw [hroom, if_neg (by simp), add_zero]
      exact (KeyedMap.total_erase_of_lookup (·.tokens B now) hnew).le
  | none =>
      have hgone : (limiter.roomFor conn).lookup conn = none :=
        AList.lookup_eq_none.mpr (limiter.notMem_roomFor hnew)
      rw [zeroFor_none, B.level_full, KeyedMap.total_erase_of_notMem _ hgone, if_pos rfl,
        add_comm]
      exact add_le_add_left (limiter.total_roomFor_le B conn hpast) _

omit [DecidableEq ConnId] in
theorem Rearranged.tokens_eq {arranged : ConnectionLimiter ConnId}
    (h : limiter.Rearranged arranged) (now : TimePoint) :
    arranged.tokens B now = limiter.tokens B now :=
  (KeyedMap.total_perm _ h.entries_perm).symm

omit [DecidableEq ConnId] in
theorem Rearranged.past {arranged : ConnectionLimiter ConnId}
    (h : limiter.Rearranged arranged) (hpast : limiter.Past now) : arranged.Past now :=
  fun entry hentry => hpast entry (h.entries_perm.mem_iff.mpr hentry)

theorem past_iff : limiter.Past now ↔ ∀ c e, limiter.entry c = some e → e.zero ≤ now := by
  constructor
  · intro h c e hentry
    exact h ⟨c, e⟩ (KeyedMap.mem_entries_iff.mpr hentry)
  · intro h entry hentry
    exact h entry.1 entry.2 (KeyedMap.mem_entries_iff.mp hentry)

end ConnectionLimiter

variable {B} {t : LimiterTransition ConnId} {now : TimePoint}

theorem ConnectionLimiter.Rearranged.sound {limiter arranged : ConnectionLimiter ConnId}
    (h : limiter.Rearranged arranged) (hsound : SoundLimiter B limiter) :
    SoundLimiter B arranged :=
  ⟨h.settings_eq.trans hsound.settings_eq, fun c => by rw [h.entry_eq]; exact hsound.entries c⟩

/-- Where a call takes tokens, in terms of the level. -/
theorem debitOf_of_stage (h : LimiterStep t) (hsound : SoundLimiter B t.source)
    {stage : Call.Stage ConnId} (hstage : t.label.stage? = some stage) :
    debitOf t =
      if 0 < stage.decision.tokenCost ∧ stage.decision.tokenCost ≤
        B.level (zeroFor B (t.source.entry stage.conn) stage.now) stage.now then
      stage.decision.tokenCost else 0 := by
  have hown : t.label.stageOf? stage.conn = some stage :=
    Call.stageOf?_eq_some.mpr ⟨hstage, rfl⟩
  simp only [debitOf, hstage, h.debit?_eq, hsound.settings_eq]
  rw [payment?_of_stageOf (hsound.entries stage.conn) hown]
  split <;> rfl

omit [DecidableEq ConnId] in
theorem now?_of_stage {call : Call ConnId} {stage : Call.Stage ConnId}
    (h : call.stage? = some stage) : call.now? = some stage.now := by
  cases call <;> cases h <;> rfl

/-- A call pays its debit out of the tokens there are, or those of the entry it creates. -/
theorem LimiterStep.tokens_le (h : LimiterStep t) (hsound : SoundLimiter B t.source)
    (hpast : t.source.Past now) (hnow : ∀ time, t.label.now? = some time → time = now) :
    debitOf t + t.target.tokens B now ≤
      t.source.tokens B now + if creates t then B.capacity else 0 := by
  have ⟨arranged, harranged, hexec⟩ := h
  have htarget : t.target = (arranged.exec t.label).2 := by rw [hexec]
  have hpast' : arranged.Past now := harranged.past hpast
  rw [← harranged.tokens_eq B now]
  have hgift : (0 : ℚ) ≤ if creates t then B.capacity else 0 := by
    split
    · exact B.capacity_pos.le
    · exact le_refl 0
  cases hstage : t.label.stage? with
  | some stage =>
      obtain rfl := hnow _ (now?_of_stage hstage)
      rw [ConnectionLimiter.exec_of_stage hstage, ConnectionLimiter.settle_limiter] at htarget
      rw [debitOf_of_stage h hsound hstage]
      split at htarget
      · have hpays := arranged.touchAndConsume_tokens B (harranged.sound hsound) stage.conn
          stage.decision.tokenCost stage.now hpast'
        rw [harranged.entry_eq, ← htarget] at hpays
        have htracked : t.target.entry stage.conn ≠ none := by
          rw [htarget, ConnectionLimiter.touchAndConsume_entry_self]
          exact Option.some_ne_none _
        have hcreates : creates t = true ↔ t.source.entry stage.conn = none := by
          simp [creates, hstage, Option.isSome_iff_ne_none, htracked]
        simpa only [hcreates] using hpays
      · rename_i hfree
        have hcost : ¬ 0 < stage.decision.tokenCost := fun hpos => hfree fun _ => hpos
        rw [if_neg fun hpay => hcost hpay.1, htarget, zero_add]
        exact le_add_of_nonneg_right hgift
  | none =>
      have hdebit : debitOf t = 0 := by simp [debitOf, hstage]
      have hfewer : t.target.tokens B now ≤ arranged.tokens B now := by
        cases hlabel : t.label with
        | admitPre spec conn payload now => rw [hlabel] at hstage; cases hstage
        | admit_ spec conn visitor now => rw [hlabel] at hstage; cases hstage
        | onDisconnect conn =>
            rw [htarget, hlabel]
            exact KeyedMap.total_erase_le (hpast'.tokens_nonneg B) conn
        | sweepIdle time idleFor =>
            rw [htarget, hlabel]
            exact KeyedMap.total_eraseIf_le (f := fun e : BucketEntry => e.tokens B now)
              (hpast'.tokens_nonneg B) _
      rw [hdebit, zero_add]
      exact hfewer.trans (le_add_of_nonneg_right hgift)

/-- A call does not move a bucket's zero time past its time stamp. -/
theorem LimiterStep.past (h : LimiterStep t) (hsound : SoundLimiter B t.source)
    (hpast : t.source.Past now) (hnow : ∀ time, t.label.now? = some time → time ≤ now) :
    t.target.Past now := by
  rw [ConnectionLimiter.past_iff] at hpast ⊢
  intro c e hentry
  rcases h.entry c with hsolo | ⟨-, hnone, -⟩
  · rw [hsolo, hsound.settings_eq] at hentry
    refine soloStep_past c (hsound.entries c) (hpast c) (fun stage hstage => ?_) e hentry
    exact hnow _ (now?_of_stage (Call.stageOf?_eq_some.mp hstage).1)
  · rw [hnone] at hentry
    cases hentry

end Tokens

/-! ## Runs -/

/-- The time stamps of the calls, in order. -/
def stampsOf (trace : List (LimiterTransition ConnId)) : List TimePoint :=
  trace.filterMap (·.label.now?)

omit [DecidableEq ConnId] in
theorem stampsOf_cons (t : LimiterTransition ConnId) (trace : List (LimiterTransition ConnId)) :
    stampsOf (t :: trace) = t.label.now?.toList ++ stampsOf trace := by
  unfold stampsOf
  rw [List.filterMap_cons]
  cases t.label.now? <;> rfl

section Budget

variable {B : BucketRate ℚ} {limiter limiter' : ConnectionLimiter ConnId}
  {trace : List (LimiterTransition ConnId)}

/-- What a run takes is paid from the tokens at its beginning, the entries it creates, and
the refill of the entries there may be at once. -/
theorem debits_le_of_run {maxConnections : Nat} {latest : TimePoint}
    (hrun : LimiterRun limiter trace limiter') : ∀ {now : TimePoint}, SoundLimiter B limiter →
      limiter.Past now → limiter.size ≤ limiter.bound →
      limiter.maxConnections = maxConnections → (stampsOf trace).Pairwise (· ≤ ·) →
      now ≤ latest → (∀ time ∈ stampsOf trace, now ≤ time ∧ time ≤ latest) →
      (trace.map debitOf).sum ≤ limiter.tokens B now + trace.countP creates * B.capacity +
        max 1 maxConnections * (B.rate * (latest - now)) := by
  induction hrun with
  | nil limiter =>
      intro now _ hpast _ _ _ hlatest _
      have htokens : 0 ≤ limiter.tokens B now := KeyedMap.total_nonneg (hpast.tokens_nonneg B)
      have hrefill : 0 ≤ (max 1 maxConnections : ℕ) * (B.rate * (latest - now)) :=
        mul_nonneg (Nat.cast_nonneg _) (mul_nonneg B.rate_pos.le (sub_nonneg.mpr hlatest))
      simp only [List.map_nil, List.sum_nil, List.countP_nil]
      push_cast at hrefill ⊢
      linarith
  | @cons t trace limiter' hstep _ ih =>
      intro now hsound hpast hsize hmax hascending hlatest htimes
      rw [stampsOf_cons] at hascending htimes
      obtain ⟨-, hrest, hlater⟩ := List.pairwise_append.mp hascending
      have hall : ∀ stamp ∈ stampsOf trace, now ≤ stamp ∧ stamp ≤ latest :=
        fun stamp h => htimes stamp (List.mem_append_right _ h)
      -- A call without a time stamp is made when the last one was.
      obtain ⟨time, hnow, htime, hstamp, hnext⟩ :
          ∃ time, now ≤ time ∧ time ≤ latest ∧
            (∀ stamp, t.label.now? = some stamp → stamp = time) ∧
            ∀ stamp ∈ stampsOf trace, time ≤ stamp ∧ stamp ≤ latest := by
        cases hlabel : t.label.now? with
        | none => exact ⟨now, le_refl now, hlatest, fun _ h => (by cases h), hall⟩
        | some time =>
            rw [hlabel] at htimes hlater
            obtain ⟨hfirst, hlast⟩ := htimes time List.mem_cons_self
            exact ⟨time, hfirst, hlast, fun _ h => (Option.some.inj h).symm, fun stamp h =>
              ⟨hlater time List.mem_cons_self stamp h, (hall stamp h).2⟩⟩
      have hpast' : t.source.Past time := fun entry hentry => (hpast entry hentry).trans hnow
      have hpays := hstep.tokens_le hsound hpast' hstamp
      have hrefill := t.source.tokens_later_le B hnow
      have hend := ih (hstep.sound hsound)
        (hstep.past hsound hpast' fun stamp h => (hstamp stamp h).le) (hstep.size_le hsize)
        (hstep.settings_eq.2.trans hmax) hrest htime hnext
      have hfew : (t.source.size : ℚ) ≤ (max 1 maxConnections : ℕ) := by
        rw [ConnectionLimiter.bound, hmax] at hsize
        exact_mod_cast hsize
      have hgain := mul_le_mul_of_nonneg_right hfew
        (mul_nonneg B.rate_pos.le (sub_nonneg.mpr hnow))
      have hsplit : (max 1 maxConnections : ℕ) * (B.rate * (latest - now)) =
          (max 1 maxConnections : ℕ) * (B.rate * (time - now)) +
            (max 1 maxConnections : ℕ) * (B.rate * (latest - time)) := by ring
      have hcreated : ((trace.countP creates + if creates t then 1 else 0 : ℕ) : ℚ) * B.capacity =
          trace.countP creates * B.capacity + if creates t then B.capacity else 0 := by
        split <;> push_cast <;> ring
      rw [List.map_cons, List.sum_cons, List.countP_cons, hcreated]
      push_cast at hgain hend hsplit ⊢
      linarith

theorem ConnectionLimiter.Past.run {latest : TimePoint} (hrun : LimiterRun limiter trace limiter')
    (hsound : SoundLimiter B limiter) (hpast : limiter.Past latest)
    (htimes : ∀ time ∈ stampsOf trace, time ≤ latest) : limiter'.Past latest := by
  induction hrun with
  | nil limiter => exact hpast
  | @cons t trace limiter' hstep _ ih =>
      rw [stampsOf_cons] at htimes
      refine ih (hstep.sound hsound) (hstep.past hsound hpast fun stamp h => ?_)
        fun time h => htimes time (List.mem_append_right _ h)
      exact htimes stamp (List.mem_append_left _ (by simp [h]))

end Budget

/-- A limiter with one place, which is taken. -/
def takenLimiter : ConnectionLimiter Nat :=
  (ConnectionLimiter.create ⟨10, 1⟩ 1).execAll [.admitPre (.flat 8 3) 0 .empty 5]

/-- Three connections that take turns in the place. -/
def turnCalls : List (Call Nat) :=
  [.admitPre (.flat 8 9) 1 .empty 6, .admitPre (.flat 8 9) 2 .empty 7, .onDisconnect 2,
    .admitPre (.flat 8 4) 3 .empty 7, .admitPre (.flat 8 8) 3 .empty 9, .sweepIdle 20 5]

end RpcSpec.Admission
