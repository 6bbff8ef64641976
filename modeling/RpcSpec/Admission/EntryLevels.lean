import RpcSpec.Admission.SoloConnection
set_option autoImplicit false

/-!
# Entries as lazily refilled buckets

A limiter whose capacity and refill rate are positive only ever holds buckets
with these parameters, so that an entry comes down to its zero time and the time
it was last seen.  The lemmas here say what touching, charging and sweeping an
entry do to the two.
-/

namespace RpcSpec.Admission

open RpcSpec.Foundation

variable {ConnId : Type} [DecidableEq ConnId] (B : BucketRate ℚ)

/-! ## Sound entries -/

namespace BucketEntry

/-- The zero time of the entry's bucket. -/
def zero (entry : BucketEntry) : ℚ := entry.bucket.bucket.tokenBucket.zeroTime

/-- The entry's bucket has the limiter's parameters. -/
def Sound (entry : BucketEntry) : Prop := entry.bucket = bucketAt B entry.zero

/-- The tokens of the entry at a point in time. -/
def tokens (entry : BucketEntry) (now : TimePoint) : ℚ := B.level entry.zero now

end BucketEntry

/-- The settings a limiter with these buckets is created with. -/
def settingsOf : BucketSettings := ⟨B.capacity, B.rate⟩

/-- The zero time a connection is charged from: that of its entry, or that of the
full bucket it would get. -/
def zeroFor (entry : Option BucketEntry) (now : TimePoint) : ℚ :=
  (entry.map (·.zero)).getD (B.full now)

@[simp] theorem zeroFor_some (entry : BucketEntry) (now : TimePoint) :
    zeroFor B (some entry) now = entry.zero := rfl

@[simp] theorem zeroFor_none (now : TimePoint) : zeroFor B none now = B.full now := rfl

/-- The entry of one connection, if there is one, is sound. -/
def SoundEntry (entry : Option BucketEntry) : Prop :=
  ∀ e, entry = some e → e.Sound B

theorem SoundEntry.none : SoundEntry B none := by
  intro e h
  cases h

variable {B}

theorem soundEntry_some {e : BucketEntry} : SoundEntry B (some e) ↔ e.Sound B := by
  simp [SoundEntry]

/-! ## Consuming -/

/-- What touching leaves is a sound bucket with the zero time of `zeroFor`. -/
theorem getD_fresh_bucket {entry : Option BucketEntry} (h : SoundEntry B entry)
    (now : TimePoint) :
    (entry.getD (ConnectionLimiter.freshEntry (settingsOf B) now)).bucket =
      bucketAt B (zeroFor B entry now) := by
  cases entry with
  | none => exact create_eq_bucketAt B now
  | some e => exact soundEntry_some.mp h

/-- A cost that is not positive is always paid, with nothing. -/
theorem consumeEntry_of_nonpos {entry : Option BucketEntry} (h : SoundEntry B entry)
    {cost : ℚ} (hcost : cost ≤ 0) (now : TimePoint) :
    consumeEntry (settingsOf B) entry cost now =
      (true, ⟨bucketAt B (zeroFor B entry now), now⟩) := by
  rw [consumeEntry, getD_fresh_bucket h, TokenBucket.tryConsume_of_nonpos _ hcost]

/-- A positive cost is paid when there are that many tokens. -/
theorem consumeEntry_of_pos {entry : Option BucketEntry} (h : SoundEntry B entry)
    {cost : ℚ} (hcost : 0 < cost) (now : TimePoint) :
    consumeEntry (settingsOf B) entry cost now =
      if cost ≤ B.level (zeroFor B entry now) now then
        (true, ⟨bucketAt B (B.take (zeroFor B entry now) now cost), now⟩)
      else (false, ⟨bucketAt B (zeroFor B entry now), now⟩) := by
  rw [consumeEntry, getD_fresh_bucket h, tryConsume_bucketAt B _ hcost]
  by_cases hpay : cost ≤ B.level (zeroFor B entry now) now
  · rw [if_pos hpay, if_pos hpay]
  · rw [if_neg hpay, if_neg hpay]

/-- The zero time after trying to take `cost` tokens. -/
theorem consumeEntry_zero {entry : Option BucketEntry} (h : SoundEntry B entry) (cost : ℚ)
    (now : TimePoint) :
    (consumeEntry (settingsOf B) entry cost now).2 =
      ⟨bucketAt B (if 0 < cost ∧ cost ≤ B.level (zeroFor B entry now) now then
        B.take (zeroFor B entry now) now cost else zeroFor B entry now), now⟩ := by
  by_cases hcost : 0 < cost
  · rw [consumeEntry_of_pos h hcost]
    by_cases hpay : cost ≤ B.level (zeroFor B entry now) now <;> simp [hcost, hpay]
  · rw [consumeEntry_of_nonpos h (not_lt.mp hcost)]
    simp [hcost]

/-- Trying to take `cost` tokens succeeds when there is nothing to take or there
are enough. -/
theorem consumeEntry_ok {entry : Option BucketEntry} (h : SoundEntry B entry) (cost : ℚ)
    (now : TimePoint) :
    (consumeEntry (settingsOf B) entry cost now).1 =
      decide (cost ≤ 0 ∨ cost ≤ B.level (zeroFor B entry now) now) := by
  by_cases hcost : 0 < cost
  · rw [consumeEntry_of_pos h hcost]
    by_cases hpay : cost ≤ B.level (zeroFor B entry now) now <;>
      simp [hpay, not_le.mpr hcost]
  · rw [consumeEntry_of_nonpos h (not_lt.mp hcost)]
    simp [not_lt.mp hcost]

theorem consumeEntry_sound {entry : Option BucketEntry} (h : SoundEntry B entry) (cost : ℚ)
    (now : TimePoint) : (consumeEntry (settingsOf B) entry cost now).2.Sound B := by
  rw [consumeEntry_zero h]
  rfl

/-! ## Soundness is preserved -/

/-- An admission touches the entry or leaves it. -/
theorem settleEntry_entry (settings : BucketSettings) (entry : Option BucketEntry)
    (decision : AdmissionDecision) (now : TimePoint) :
    (settleEntry settings entry decision now).2 =
      if decision.dropped = true → 0 < decision.tokenCost then
        some (consumeEntry settings entry decision.tokenCost now).2
      else entry := by
  unfold settleEntry
  cases hdrop : decision.dropped with
  | true => simp
  | false => simp

theorem soloStep_sound (c : ConnId) {entry : Option BucketEntry} (h : SoundEntry B entry)
    (call : Call ConnId) : SoundEntry B (soloStep (settingsOf B) c entry call).2 := by
  cases hstage : call.stageOf? c with
  | some stage =>
      rw [soloStep_of_stageOf hstage, settleEntry_entry]
      split
      · exact soundEntry_some.mpr (consumeEntry_sound h _ _)
      · exact h
  | none =>
      rcases (soloStep_of_no_stageOf _ _ hstage).2 with hsame | hgone
      · rwa [hsame]
      · rw [hgone]
        exact .none B

/-- A call does not move the zero time past its time stamp. -/
theorem soloStep_past (c : ConnId) {entry : Option BucketEntry} (h : SoundEntry B entry)
    {call : Call ConnId} {now : TimePoint} (hpast : ∀ e, entry = some e → e.zero ≤ now)
    (hnow : ∀ stage, call.stageOf? c = some stage → stage.now ≤ now) :
    ∀ e, (soloStep (settingsOf B) c entry call).2 = some e → e.zero ≤ now := by
  intro e hentry
  cases hstage : call.stageOf? c with
  | none =>
      rcases (soloStep_of_no_stageOf (settingsOf B) entry hstage).2 with hsame | hgone
      · exact hpast e (hsame ▸ hentry)
      · rw [hgone] at hentry
        cases hentry
  | some stage =>
      have htime := hnow stage hstage
      rw [soloStep_of_stageOf hstage, settleEntry_entry] at hentry
      split at hentry
      · rw [← Option.some.inj hentry, consumeEntry_zero h]
        change (if _ then _ else _) ≤ now
        split
        · rename_i hpay
          exact (B.take_le hpay.2).trans htime
        · cases entry with
          | none => exact B.full_le.trans htime
          | some old => exact hpast old rfl
      · exact hpast e hentry

variable (B) in
/-- A limiter that was created with the parameters of `B`: all its entries are
sound. -/
structure SoundLimiter (limiter : ConnectionLimiter ConnId) : Prop where
  settings_eq : limiter.settings = settingsOf B
  entries : ∀ c, SoundEntry B (limiter.entry c)

theorem SoundLimiter.create (maxConnections : Nat) :
    SoundLimiter B (.create (settingsOf B) maxConnections : ConnectionLimiter ConnId) :=
  ⟨rfl, fun _ => .none B⟩

theorem LimiterStep.sound {t : LimiterTransition ConnId} (h : LimiterStep t)
    (hsound : SoundLimiter B t.source) : SoundLimiter B t.target := by
  refine ⟨h.settings_eq.1.trans hsound.settings_eq, ?_⟩
  intro c
  rcases h.entry c with hsolo | ⟨_, hnone, _⟩
  · rw [hsolo, hsound.settings_eq]
    exact soloStep_sound c (hsound.entries c) t.label
  · rw [hnone]
    exact .none B

theorem SoundLimiter.run {limiter limiter' : ConnectionLimiter ConnId}
    {trace : List (LimiterTransition ConnId)} (hsound : SoundLimiter B limiter)
    (h : LimiterRun limiter trace limiter') : SoundLimiter B limiter' :=
  h.invariant (fun _ hstep => hstep.sound) hsound

end RpcSpec.Admission
