import RpcSpec.Admission.EntryLevels
set_option autoImplicit false

/-!
# The eager bucket

The reference a limiter is compared with: a bucket that stores its balance and
adds the refill before every operation.  As long as time does not go back, the
stored zero time and the stored balance stand for the same tokens, and every
decision is the same.
-/

namespace RpcSpec.Admission

open RpcSpec.Foundation

variable {ConnId : Type} [DecidableEq ConnId]

/-! ## The reference -/

/-- A bucket with an explicit balance, as of a point in time. -/
structure EagerBucket where
  balance : ℚ
  time : TimePoint
  deriving DecidableEq

namespace EagerBucket

/-- Add the refill for the time elapsed. -/
def refill (settings : BucketSettings) (bucket : EagerBucket) (now : TimePoint) :
    EagerBucket where
  balance := min settings.capacity
    (bucket.balance + settings.refillRatePerSecond * (now - bucket.time))
  time := now

/-- Takes the cost off the balance. -/
def debit (bucket : EagerBucket) (cost : ℚ) : EagerBucket :=
  { bucket with balance := bucket.balance - cost }

/-- The bucket an operation works on: the refilled one, or a full one for a
connection that has none yet. -/
def current (settings : BucketSettings) (bucket : Option EagerBucket) (now : TimePoint) :
    EagerBucket :=
  match bucket with
  | none => ⟨settings.capacity, now⟩
  | some bucket => bucket.refill settings now

/-- The reference's answer to the decision of a stage.  `payFor` is what an
admitted cost is debited with. -/
def settle (payFor : ℚ → ℚ) (settings : BucketSettings) (bucket : Option EagerBucket)
    (decision : AdmissionDecision) (now : TimePoint) :
    AdmissionDecision × Option EagerBucket :=
  let refilled := current settings bucket now
  let cost := decision.tokenCost
  if decision.dropped then
    (decision,
      if 0 < cost then
        some (if cost ≤ refilled.balance then refilled.debit cost else refilled)
      else bucket.map (fun bucket => bucket.refill settings now))
  else if cost ≤ 0 ∨ cost ≤ refilled.balance then
    (.admit_ cost, some (refilled.debit (payFor cost)))
  else (.drop "connection rate limit exceeded" 0, some refilled)

/-- The decisions of the reference for the admissions of one connection. -/
def decisions (payFor : ℚ → ℚ) (settings : BucketSettings) :
    Option EagerBucket → List (Call.Stage ConnId) → List AdmissionDecision
  | _, [] => []
  | bucket, stage :: stages =>
      let settled := settle payFor settings bucket stage.decision stage.now
      settled.1 :: decisions payFor settings settled.2 stages

end EagerBucket

/-- The limiter decides for `c` as the reference does that debits `payFor cost`
for an admitted cost. -/
def DecidesEagerly (payFor : ℚ → ℚ) (settings : BucketSettings) (c : ConnId)
    (trace : List (LimiterTransition ConnId)) : Prop :=
  decisionsOf c trace = EagerBucket.decisions payFor settings none (stagesOf c trace)

instance (payFor : ℚ → ℚ) (settings : BucketSettings) (c : ConnId)
    (trace : List (LimiterTransition ConnId)) :
    Decidable (DecidesEagerly payFor settings c trace) :=
  inferInstanceAs (Decidable (_ = _))

/-- The time stamps of the admissions of `c` do not go back. -/
def TimesAscend (c : ConnId) (trace : List (LimiterTransition ConnId)) : Prop :=
  ((stagesOf c trace).map (·.now)).Pairwise (· ≤ ·)

instance (c : ConnId) (trace : List (LimiterTransition ConnId)) :
    Decidable (TimesAscend c trace) :=
  inferInstanceAs (Decidable (List.Pairwise _ _))

/-! ## The simulation -/

variable {B : BucketRate ℚ}

/-- The entry and the reference's bucket hold the same tokens. -/
inductive Mirrors (B : BucketRate ℚ) : Option BucketEntry → Option EagerBucket → Prop
  | untracked : Mirrors B none none
  | tracked {e : BucketEntry} {bucket : EagerBucket} (hsound : e.Sound B)
      (hbalance : e.tokens B bucket.time = bucket.balance) :
      Mirrors B (some e) (some bucket)

namespace Mirrors

variable {entry : Option BucketEntry} {bucket : Option EagerBucket}

theorem sound (h : Mirrors B entry bucket) : SoundEntry B entry := by
  cases h with
  | untracked => exact .none B
  | tracked hsound _ => exact soundEntry_some.mpr hsound

/-- The refilled balance is the tokens the entry has by then. -/
theorem current_eq (h : Mirrors B entry bucket) {now : TimePoint}
    (hnow : ∀ b, bucket = some b → b.time ≤ now) :
    EagerBucket.current (settingsOf B) bucket now = ⟨B.level (zeroFor B entry now) now, now⟩ := by
  cases h with
  | untracked => simp [EagerBucket.current, settingsOf, B.level_full]
  | @tracked e b hsound hbalance =>
      have hadvance := B.level_advance (z := e.zero) (hnow b rfl)
      have htokens : B.level e.zero b.time = b.balance := hbalance
      rw [zeroFor_some, hadvance, htokens]
      rfl

/-- An entry with a zero time mirrors a bucket that has its tokens. -/
theorem of_level {zero now lastSeen balance : ℚ} (h : B.level zero now = balance) :
    Mirrors B (some ⟨bucketAt B zero, lastSeen⟩) (some ⟨balance, now⟩) :=
  .tracked rfl h

/-- Settling keeps entry and reference alike, and the decisions are the same. -/
theorem settle (h : Mirrors B entry bucket) (decision : AdmissionDecision)
    {now : TimePoint} (hnow : ∀ b, bucket = some b → b.time ≤ now) :
    (settleEntry (settingsOf B) entry decision now).1 =
        (EagerBucket.settle (max 0) (settingsOf B) bucket decision now).1 ∧
      Mirrors B (settleEntry (settingsOf B) entry decision now).2
        (EagerBucket.settle (max 0) (settingsOf B) bucket decision now).2 ∧
      ∀ b, (EagerBucket.settle (max 0) (settingsOf B) bucket decision now).2 = some b →
        b.time = now := by
  have hok := consumeEntry_ok h.sound decision.tokenCost now
  have hzero := consumeEntry_zero h.sound decision.tokenCost now
  unfold settleEntry EagerBucket.settle
  simp only [h.current_eq hnow]
  generalize hlevel : B.level (zeroFor B entry now) now = balance at hok hzero
  cases hdrop : decision.dropped with
  | true =>
      by_cases hpos : 0 < decision.tokenCost
      · by_cases hpay : decision.tokenCost ≤ balance
        · rw [if_pos ⟨hpos, hpay⟩] at hzero
          simp only [hpos, hpay, if_true, hzero]
          refine ⟨trivial, .of_level ?_, fun b hb => by rw [← Option.some.inj hb]; rfl⟩
          rw [B.level_take_of_nonneg hpos.le, hlevel]
        · rw [if_neg (fun hboth => hpay hboth.2)] at hzero
          simp only [hpos, hpay, if_true, if_false, hzero]
          exact ⟨trivial, .of_level hlevel, fun b hb => by rw [← Option.some.inj hb]⟩
      · simp only [gt_iff_lt, hpos, if_true, if_false]
        refine ⟨trivial, ?_, ?_⟩
        · cases h with
          | untracked => exact .untracked
          | @tracked e b hsound hbalance =>
              have hcurrent := (Mirrors.tracked hsound hbalance).current_eq hnow
              refine .tracked hsound ?_
              exact (congrArg EagerBucket.balance hcurrent).symm
        · intro b hb
          obtain ⟨b', _, rfl⟩ := Option.map_eq_some_iff.mp hb
          rfl
  | false =>
      simp only [Bool.false_eq_true, if_false, hok, decide_eq_true_eq]
      by_cases hadmit : decision.tokenCost ≤ 0 ∨ decision.tokenCost ≤ balance
      · simp only [if_pos hadmit, hzero]
        refine ⟨trivial, .of_level ?_, fun b hb => by rw [← Option.some.inj hb]; rfl⟩
        by_cases hpos : 0 < decision.tokenCost
        · have hpay := hadmit.resolve_left (not_le.mpr hpos)
          rw [if_pos ⟨hpos, hpay⟩, B.level_take_of_nonneg hpos.le, hlevel, max_eq_right hpos.le]
        · rw [if_neg (fun hboth => hpos hboth.1), hlevel, max_eq_left (not_lt.mp hpos), sub_zero]
      · rw [if_neg (fun hboth => hadmit (.inr hboth.2))] at hzero
        simp only [if_neg hadmit, hzero]
        exact ⟨trivial, .of_level hlevel, fun b hb => by rw [← Option.some.inj hb]⟩

end Mirrors

/-- From a limiter and a reference that hold the same tokens, the decisions of a
run that keeps the entry are those of the reference. -/
theorem decisionsOf_eq_of_mirrors {limiter limiter' : ConnectionLimiter ConnId}
    {trace : List (LimiterTransition ConnId)} (hrun : LimiterRun limiter trace limiter')
    (c : ConnId) :
    ∀ {bucket : Option EagerBucket}, limiter.settings = settingsOf B →
      Mirrors B (limiter.entry c) bucket → KeepsEntry c trace → TimesAscend c trace →
      (∀ b, bucket = some b → ∀ stage ∈ stagesOf c trace, b.time ≤ stage.now) →
      decisionsOf c trace =
        EagerBucket.decisions (max 0) (settingsOf B) bucket (stagesOf c trace) := by
  induction hrun with
  | nil s => intros; rfl
  | @cons t trace s hstep hrest ih =>
      intro bucket hsettings hmirrors hkeeps hascend hpast
      have hkept := hkeeps t List.mem_cons_self
      have hkeeps' : KeepsEntry c trace := fun t' ht' => hkeeps t' (.tail _ ht')
      have hsettings' := hstep.settings_eq.1.trans hsettings
      have hentry := hstep.entry_of_kept hkept
      have hdecision := hstep.decisionsOf_singleton c
      rw [hsettings] at hentry hdecision
      rw [decisionsOf_cons, hdecision]
      cases hstage : t.label.stageOf? c with
      | some stage =>
          have hstages : stagesOf c (t :: trace) = stage :: stagesOf c trace := by
            rw [stagesOf_cons, hstage]
            rfl
          rw [soloStep_of_stageOf hstage] at hentry ⊢
          rw [TimesAscend, hstages, List.map_cons, List.pairwise_cons] at hascend
          rw [hstages] at hpast ⊢
          obtain ⟨hsame, hmirrors', htime⟩ := hmirrors.settle stage.decision
            (fun b hb => hpast b hb stage List.mem_cons_self)
          have hlater := ih hsettings' (hentry ▸ hmirrors') hkeeps' hascend.2
            (fun b hb later hlater => by
              rw [htime b hb]
              exact hascend.1 _ (List.mem_map_of_mem hlater))
          rw [EagerBucket.decisions, hlater, ← hsame]
          rfl
      | none =>
          have hstages : stagesOf c (t :: trace) = stagesOf c trace := by
            rw [stagesOf_cons, hstage]
            rfl
          obtain ⟨hnone, hstays⟩ := soloStep_of_no_stageOf (settingsOf B)
            (t.source.entry c) hstage
          -- the entry cannot have been erased: it is kept or was not there
          have hsame : t.target.entry c = t.source.entry c := by
            rcases hstays with hstays | hgone
            · exact hentry.trans hstays
            · rw [hgone] at hentry
              by_contra hne
              exact hkept (fun hnone' => hne (hentry.trans hnone'.symm)) hentry
          rw [TimesAscend, hstages] at hascend
          rw [hstages] at hpast
          rw [hstages, hnone]
          exact ih hsettings' (hsame ▸ hmirrors) hkeeps' hascend hpast

/-- The decisions for a connection whose entry is kept, and whose time stamps do
not go back, are those of the eager reference that debits a positive cost and
nothing for any other. -/
theorem decidesEagerly (settings : BucketSettings) (hcapacity : 0 < settings.capacity)
    (hrate : 0 < settings.refillRatePerSecond) (maxConnections : Nat)
    (trace : List (LimiterTransition ConnId)) (limiter' : ConnectionLimiter ConnId)
    (hrun : LimiterRun (.create settings maxConnections) trace limiter') (c : ConnId)
    (hkeeps : KeepsEntry c trace) (hascend : TimesAscend c trace) :
    DecidesEagerly (max 0) settings c trace :=
  decisionsOf_eq_of_mirrors (B := settings.toRate hcapacity hrate) hrun c rfl .untracked
    hkeeps hascend (fun _ hnone => by cases hnone)

/-- A charge, a penalty that can be paid and one that cannot, a penalty of
nothing, and a pause that fills the bucket. -/
def mixedCalls : List (Call Nat) :=
  [.admitPre (.flat 8 7) 1 .empty 0, .admit_ (.flat 8 0) 1 (fun _ _ => .drop "" 2) 1,
    .admit_ (.flat 8 0) 1 (fun _ _ => .drop "" 8) 1,
    .admit_ (.flat 8 0) 1 (fun _ _ => .drop "" 0) 2,
    .admitPre (.flat 8 9) 1 .empty 2, .admitPre (.flat 8 10) 1 .empty 40]

theorem mixedCalls_decidesEagerly :
    DecidesEagerly (max 0) ⟨10, 2⟩ 1
      ((ConnectionLimiter.create ⟨10, 2⟩ 4).trace mixedCalls) :=
  decidesEagerly ⟨10, 2⟩ (by decide) (by decide) 4 _ _
    (ConnectionLimiter.trace_run _ mixedCalls) 1 (by decide +kernel) (by decide +kernel)

/-- A message with a negative cost between two that empty the bucket and ask for
more. -/
def negativeCostCalls : List (Call Nat) :=
  [.admitPre (.flat 8 10) 1 .empty 0, .admit_ (.flat 8 0) 1 (fun _ _ => .admit_ (-5)) 0,
    .admitPre (.flat 8 3) 1 .empty 0]

/-- A reference that debits a negative cost, and so adds tokens, admits the last
of these messages; the limiter drops it. -/
theorem negativeCostCalls_not_decidesEagerly :
    LimiterRun (.create ⟨10, 1⟩ 4) ((ConnectionLimiter.create ⟨10, 1⟩ 4).trace negativeCostCalls)
        ((ConnectionLimiter.create ⟨10, 1⟩ 4).execAll negativeCostCalls) ∧
      KeepsEntry 1 ((ConnectionLimiter.create ⟨10, 1⟩ 4).trace negativeCostCalls) ∧
      TimesAscend 1 ((ConnectionLimiter.create ⟨10, 1⟩ 4).trace negativeCostCalls) ∧
      ¬ DecidesEagerly id ⟨10, 1⟩ 1
        ((ConnectionLimiter.create ⟨10, 1⟩ 4).trace negativeCostCalls) :=
  ⟨ConnectionLimiter.trace_run _ negativeCostCalls, by decide +kernel, by decide +kernel,
    by decide +kernel⟩

end RpcSpec.Admission
