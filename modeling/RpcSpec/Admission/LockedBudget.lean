import RpcSpec.Admission.LockedLimiter
import RpcSpec.Admission.RateBound
import Mathlib.Algebra.BigOperators.Ring.Finset
import Mathlib.Algebra.BigOperators.Ring.List
set_option autoImplicit false

/-!
# What a connection gets out of a shared limiter

The rate bound for threads: however they interleave, and whatever times they pass, a
connection is let through no more than a full bucket and the refill of the time its calls
span, and as much again whenever its entry is removed.  There have to be places for all
connections, as nobody sees an eviction.
-/

namespace RpcSpec.Admission

open RpcSpec.Foundation

variable {ConnId : Type} [DecidableEq ConnId]

/-! ## What the callers see of it -/

/-- The cost of a message of the connection that was let through. -/
def grantedTo (c : ConnId) : LimiterOp ConnId → LimiterAnswer → ℚ
  | .call call, .returned (some decision) =>
      if call.conn? = some c ∧ decision.admitted then max decision.tokenCost 0 else 0
  | _, _ => 0

/-- Whether the call may remove the entry of the connection. -/
def removals (c : ConnId) : LimiterOp ConnId → ℕ
  | .call (.onDisconnect conn) => if conn = c then 1 else 0
  | .call (.sweepIdle _ _) => 1
  | _ => 0

theorem grantedTo_nonneg (c : ConnId) (op : LimiterOp ConnId) (answer : LimiterAnswer) :
    0 ≤ grantedTo c op answer := by
  unfold grantedTo
  split
  · split
    · exact le_max_right _ _
    · exact le_refl 0
  · exact le_refl 0

/-- The tokens a connection was granted by calls of this thread that were answered. -/
def tokensGrantedTo {T : Type} [DecidableEq T] (c : ConnId) (thread : T)
    (history : List (CallEvent T (LimiterOp ConnId) LimiterAnswer)) : ℚ :=
  (List.zipWith (grantedTo c) (invoked thread history) (responded thread history)).sum

/-! ## Places for all -/

/-- There is a place for each of the connections, and no other is tracked. -/
structure ConnectionLimiter.Roomy (conns : Finset ConnId) (limiter : ConnectionLimiter ConnId) :
    Prop where
  tracked : ∀ k, limiter.entry k ≠ none → k ∈ conns
  enough : conns.card ≤ limiter.maxConnections

section Steps

variable {conns : Finset ConnId} {c : ConnId}

namespace ConnectionLimiter.Roomy

variable {limiter : ConnectionLimiter ConnId}

theorem not_evicts (h : limiter.Roomy conns) {call : Call ConnId}
    (hconn : ∀ stage, call.stage? = some stage → stage.conn ∈ conns) :
    ¬ limiter.Evicts call := by
  rintro ⟨stage, hstage, -, hnew, hfull, -⟩
  have hkeys : limiter.buckets.keys.toFinset ⊆ conns.erase stage.conn := by
    intro k hk
    have hmem : k ∈ limiter.buckets := AList.mem_keys.mp (List.mem_toFinset.mp hk)
    have htracked : limiter.entry k ≠ none :=
      Option.isSome_iff_ne_none.mp (AList.lookup_isSome.mpr hmem)
    refine Finset.mem_erase.mpr ⟨?_, h.tracked k htracked⟩
    rintro rfl
    exact htracked hnew
  have hsize : limiter.size = limiter.buckets.keys.toFinset.card := by
    rw [List.toFinset_card_of_nodup limiter.buckets.keys_nodup]
    exact KeyedMap.size_eq_keys _
  have hcard := Finset.card_le_card hkeys
  have hpos := Finset.card_pos.mpr ⟨_, hconn stage hstage⟩
  rw [Finset.card_erase_of_mem (hconn stage hstage)] at hcard
  have henough := h.enough
  omega

theorem step {t : LimiterTransition ConnId} (h : t.source.Roomy conns) (hstep : LimiterStep t)
    (hconn : ∀ stage, t.label.stage? = some stage → stage.conn ∈ conns) :
    t.target.Roomy conns := by
  refine ⟨fun k hk => ?_, h.enough.trans hstep.settings_eq.2.ge⟩
  rw [hstep.entry_of_not_evicts (h.not_evicts hconn)] at hk
  cases hstage : t.label.stageOf? k with
  | some stage =>
      obtain ⟨hcall, rfl⟩ := Call.stageOf?_eq_some.mp hstage
      exact hconn stage hcall
  | none =>
      rcases (soloStep_of_no_stageOf t.source.settings (t.source.entry k) hstage).2 with
        hsame | hgone
      · rw [hsame] at hk
        exact h.tracked k hk
      · exact absurd hgone hk

end ConnectionLimiter.Roomy

/-! ## The tokens still to be had -/

variable (B : BucketRate ℚ) (earliest latest : TimePoint)

/-- A full bucket and the refill of the whole span. -/
def spanBudget : ℚ := B.capacity + B.rate * (latest - earliest)

/-- What the entry can still be charged until the latest time. -/
def tokensLeft : Option BucketEntry → ℚ
  | none => spanBudget B earliest latest
  | some entry => B.rate * (latest - entry.zero)

variable {B earliest latest}

theorem tokensLeft_touched {now : TimePoint} (hnow : earliest ≤ now)
    (entry : Option BucketEntry) :
    B.rate * (latest - zeroFor B entry now) ≤ tokensLeft B earliest latest entry := by
  cases entry with
  | some e => exact le_refl _
  | none =>
      have hrate := B.rate_pos
      have hfull : B.rate * (latest - B.full now) = B.capacity + B.rate * (latest - now) := by
        rw [BucketRate.full]
        field_simp
        ring
      rw [zeroFor_none, hfull, tokensLeft, spanBudget]
      have hspan : B.rate * (latest - now) ≤ B.rate * (latest - earliest) :=
        mul_le_mul_of_nonneg_left (by linarith) hrate.le
      linarith

/-- What is consumed is taken from the tokens that were left. -/
theorem consumeEntry_pays {entry : Option BucketEntry} (hsound : SoundEntry B entry) (cost : ℚ)
    {now : TimePoint} (hnow : earliest ≤ now) :
    (if 0 < cost ∧ cost ≤ B.level (zeroFor B entry now) now then cost else 0) +
        tokensLeft B earliest latest (some (consumeEntry (settingsOf B) entry cost now).2) ≤
      tokensLeft B earliest latest entry := by
  have hrate := B.rate_pos
  have htouched : B.rate * (latest - zeroFor B entry now) ≤ tokensLeft B earliest latest entry :=
    tokensLeft_touched hnow entry
  rw [consumeEntry_zero hsound]
  split
  · have htake := B.add_le_take (z := zeroFor B entry now) (t := now) (c := cost)
    have hmoved : B.rate * (latest - B.take (zeroFor B entry now) now cost) ≤
        B.rate * (latest - (zeroFor B entry now + cost / B.rate)) :=
      mul_le_mul_of_nonneg_left (by linarith) hrate.le
    have hpaid : B.rate * (latest - (zeroFor B entry now + cost / B.rate)) =
        B.rate * (latest - zeroFor B entry now) - cost := by
      field_simp
      ring
    change cost + B.rate * (latest - B.take (zeroFor B entry now) now cost) ≤ _
    linarith
  · exact (zero_add _).trans_le htouched

/-- So is what is granted. -/
theorem settleEntry_pays {entry : Option BucketEntry} (hsound : SoundEntry B entry)
    (decision : AdmissionDecision) {now : TimePoint} (hnow : earliest ≤ now) :
    (if (settleEntry (settingsOf B) entry decision now).1.admitted then
        max (settleEntry (settingsOf B) entry decision now).1.tokenCost 0 else 0) +
        tokensLeft B earliest latest (settleEntry (settingsOf B) entry decision now).2 ≤
      tokensLeft B earliest latest entry := by
  have hpays := @consumeEntry_pays B earliest latest entry hsound decision.tokenCost now hnow
  have hok := consumeEntry_ok hsound decision.tokenCost now
  cases hdrop : decision.dropped with
  | true =>
      have hrefused : decision.admitted = false := by
        simpa [AdmissionDecision.dropped_eq_not_admitted] using hdrop
      simp only [settleEntry, hdrop, if_true, hrefused, Bool.false_eq_true, if_false, zero_add]
      split
      · refine le_trans (le_add_of_nonneg_left ?_) hpays
        split
        · rename_i hpay
          exact hpay.1.le
        · exact le_refl 0
      · exact le_refl _
  | false =>
      simp only [settleEntry, hdrop, Bool.false_eq_true, if_false]
      refine (le_of_eq ?_).trans hpays
      congr 1
      by_cases hpos : 0 < decision.tokenCost
      · by_cases hpay : decision.tokenCost ≤ B.level (zeroFor B entry now) now
        · simp [hok, hpos, hpay, hpos.le]
        · simp [hok, hpos, hpay, not_le.mpr hpos]
      · simp [hok, hpos, not_lt.mp hpos]

/-! ## Calls and runs -/

variable (conns c earliest latest) in
/-- The call is about one of the connections, and within the span if it is about `c`. -/
def Admissible (op : LimiterOp ConnId) : Prop :=
  ∀ call, op = .call call → ∀ stage, call.stage? = some stage →
    stage.conn ∈ conns ∧ (stage.conn = c → earliest ≤ stage.now ∧ stage.now ≤ latest)

variable (conns c B latest) in
/-- What holds between the calls: the entry of `c` was last empty before the latest time. -/
structure Charged (limiter : ConnectionLimiter ConnId) : Prop where
  sound : SoundLimiter B limiter
  roomy : limiter.Roomy conns
  past : ∀ e, limiter.entry c = some e → e.zero ≤ latest

theorem Charged.rearranged {limiter arranged : ConnectionLimiter ConnId}
    (h : Charged conns c B latest limiter) (harranged : limiter.Rearranged arranged) :
    Charged conns c B latest arranged where
  sound := ⟨harranged.settings_eq.trans h.sound.settings_eq, fun k => by
    rw [harranged.entry_eq]
    exact h.sound.entries k⟩
  roomy := ⟨fun k => by rw [harranged.entry_eq]; exact h.roomy.tracked k,
    h.roomy.enough.trans harranged.maxConnections_eq.ge⟩
  past := by
    rw [harranged.entry_eq]
    exact h.past

theorem Charged.tokensLeft_nonneg {limiter : ConnectionLimiter ConnId}
    (h : Charged conns c B latest limiter) (hspan : earliest ≤ latest) :
    0 ≤ tokensLeft B earliest latest (limiter.entry c) := by
  have hrate := B.rate_pos
  cases hentry : limiter.entry c with
  | some e => exact mul_nonneg hrate.le (sub_nonneg.mpr (h.past e hentry))
  | none => exact add_nonneg B.capacity_pos.le (mul_nonneg hrate.le (sub_nonneg.mpr hspan))

/-- A call that is no admission of the connection leaves its entry, or is one that may remove
it. -/
theorem soloStep_removal (settings : BucketSettings) (entry : Option BucketEntry)
    {call : Call ConnId} (hstage : call.stageOf? c = none) :
    (soloStep settings c entry call).2 = entry ∨
      (soloStep settings c entry call).2 = none ∧ removals c (.call call) = 1 := by
  cases call with
  | admitPre spec conn payload now =>
      have hother : conn ≠ c := by simpa [Call.stageOf?, Call.stage?] using hstage
      exact .inl (by simp [soloStep, Call.stage?, hother])
  | admit_ spec conn visitor now =>
      have hother : conn ≠ c := by simpa [Call.stageOf?, Call.stage?] using hstage
      exact .inl (by simp [soloStep, Call.stage?, hother])
  | onDisconnect conn =>
      by_cases hconn : conn = c
      · exact .inr (by simp [soloStep, Call.stage?, removals, hconn])
      · exact .inl (by simp [soloStep, Call.stage?, hconn])
  | sweepIdle now idleFor =>
      exact (soloStep_of_no_stageOf settings entry hstage).2.imp_right fun hgone => ⟨hgone, rfl⟩

/-- Every call pays for what it grants, with a new budget where it removes the entry. -/
theorem Charged.step {t : Transition (ConnectionLimiter ConnId) (LimiterOp ConnId) LimiterAnswer}
    (hspan : earliest ≤ latest) (hstep : LimiterOpStep t)
    (hadmissible : Admissible conns c earliest latest t.label)
    (h : Charged conns c B latest t.source) :
    Charged conns c B latest t.target ∧
      grantedTo c t.label t.output + tokensLeft B earliest latest (t.target.entry c) ≤
        tokensLeft B earliest latest (t.source.entry c) +
          removals c t.label * spanBudget B earliest latest := by
  obtain ⟨limiter, op, answer, limiter'⟩ := t
  simp only [LimiterOpStep] at hstep hadmissible h ⊢
  cases op with
  | size =>
      obtain ⟨rfl, harranged⟩ := hstep
      refine ⟨h.rearranged harranged, ?_⟩
      rw [harranged.entry_eq]
      simp [grantedTo, removals]
  | call call =>
      obtain ⟨decision, rfl, hlimiter⟩ := hstep
      have hconn : ∀ stage, call.stage? = some stage → stage.conn ∈ conns :=
        fun stage hstage => (hadmissible call rfl stage hstage).1
      have htimes : ∀ stage, call.stageOf? c = some stage →
          earliest ≤ stage.now ∧ stage.now ≤ latest := fun stage hstage =>
        have hof := Call.stageOf?_eq_some.mp hstage
        (hadmissible call rfl stage hof.1).2 hof.2
      have hentry := hlimiter.entry_of_not_evicts (h.roomy.not_evicts hconn) c
      have hpast := soloStep_past c (h.sound.entries c) h.past fun stage hstage =>
        (htimes stage hstage).2
      rw [h.sound.settings_eq] at hentry
      refine ⟨⟨hlimiter.sound h.sound, h.roomy.step hlimiter hconn, hentry ▸ hpast⟩, ?_⟩
      simp only at hentry ⊢
      rw [hentry]
      cases hstage : call.stageOf? c with
      | some stage =>
          obtain ⟨hcall, rfl⟩ := Call.stageOf?_eq_some.mp hstage
          have hmine := Call.conn?_of_stage hcall
          have hdecision := hlimiter.output hmine
          have hpays := @settleEntry_pays B earliest latest _ (h.sound.entries stage.conn)
            stage.decision _ (htimes stage hstage).1
          rw [h.sound.settings_eq, soloStep_of_stageOf hstage] at hdecision
          simp only at hdecision
          have hkeeps : removals stage.conn (.call call) = 0 := by
            cases call <;> cases hcall <;> rfl
          rw [hdecision, hkeeps, soloStep_of_stageOf hstage]
          simpa [grantedTo, hmine] using hpays
      | none =>
          have hbudget : 0 ≤ spanBudget B earliest latest :=
            add_nonneg B.capacity_pos.le (mul_nonneg B.rate_pos.le (sub_nonneg.mpr hspan))
          have hgranted : grantedTo c (.call call) (.returned decision) = 0 := by
            cases decision with
            | none => rfl
            | some decision =>
                refine if_neg fun hall => ?_
                have hdecision := hlimiter.output hall.1
                rw [(soloStep_of_no_stageOf _ _ hstage).1] at hdecision
                cases hdecision
          rw [hgranted, zero_add]
          rcases soloStep_removal (settingsOf B) (limiter.entry c) hstage with
            hsame | ⟨hgone, hremoval⟩
          · rw [hsame]
            exact le_add_of_nonneg_right (mul_nonneg (Nat.cast_nonneg _) hbudget)
          · rw [hgone, hremoval, Nat.cast_one, one_mul]
            exact le_add_of_nonneg_left (h.tokensLeft_nonneg hspan)

/-- So a run grants at most the budget of the span, and that once more for every call that
may remove the entry. -/
theorem Charged.sum_grantedTo_le {limiter limiter' : ConnectionLimiter ConnId}
    {calls : List (Transition (ConnectionLimiter ConnId) (LimiterOp ConnId) LimiterAnswer)}
    (hspan : earliest ≤ latest) (hrun : Run LimiterOpStep limiter calls limiter')
    (hadmissible : ∀ t ∈ calls, Admissible conns c earliest latest t.label)
    (h : Charged conns c B latest limiter) (hnew : limiter.entry c = none) :
    (calls.map fun t => grantedTo c t.label t.output).sum ≤
      (1 + (calls.map fun t => removals c t.label).sum) * spanBudget B earliest latest := by
  have hrun' := hrun.and_of_forall hadmissible
  let left (limiter : ConnectionLimiter ConnId) := tokensLeft B earliest latest (limiter.entry c)
  have hstep : ∀ t, LimiterOpStep t ∧ Admissible conns c earliest latest t.label →
      Charged conns c B latest t.source → Charged conns c B latest t.target ∧
        grantedTo c t.label t.output + left t.target ≤
          left t.source + removals c t.label * spanBudget B earliest latest :=
    fun t ht => Charged.step hspan ht.1 ht.2
  have hpays := hrun'.potential hstep h
  have hend : Charged conns c B latest limiter' :=
    hrun'.invariant (fun t ht hI => (Charged.step hspan ht.1 ht.2 hI).1) h
  have hleft : 0 ≤ left limiter' := hend.tokensLeft_nonneg hspan
  have hstart : left limiter = spanBudget B earliest latest := by
    simp only [left, hnew, tokensLeft]
  rw [List.sum_map_mul_right, hstart] at hpays
  rw [Nat.cast_list_sum, List.map_map, add_mul, one_mul]
  exact (le_add_of_nonneg_right hleft).trans hpays

end Steps

/-- A call that spends tokens of connection 1. -/
def spendingOp (cost : ℚ) (now : TimePoint) : LimiterOp Nat :=
  .call (.admitPre (.flat 8 cost) 1 .empty now)

/-- Two threads that spend them, each while the other does. -/
def spendingMoves : List (Bool × Option (LimiterOp Nat)) :=
  [(false, some (spendingOp 6 5)), (true, some (spendingOp 7 4)), (false, none), (true, none)] ++
    List.replicate 6 (false, none) ++ List.replicate 5 (true, none) ++
    [(true, none), (false, none)]

end RpcSpec.Admission
