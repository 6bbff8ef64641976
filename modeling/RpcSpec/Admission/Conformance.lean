import RpcSpec.Admission.EagerBucket
import RpcSpec.Admission.RateBound
set_option autoImplicit false

/-!
# The limiter refuses nothing it could let pass

The rate bound says how much a connection can spend; here is the converse.  A cost is
refused only where paying it would break the bound: together with what was debited since
some earlier debit it would be more than a full bucket and the refill since then.  So what
is let through is decided by the debits made so far alone, whatever the other connections
do.
-/

namespace RpcSpec.Admission

open RpcSpec.Foundation

variable {ConnId : Type} [DecidableEq ConnId] {B : BucketRate ℚ} {c : ConnId}

/-! ## The books of an entry -/

variable (B) in
/-- The payments have brought a bucket that was full at some time before them to the zero
time of the entry, one after the other and all before the times that come later. -/
def Books (payments : List (TimePoint × ℚ)) (later : List TimePoint) :
    Option BucketEntry → Prop
  | none => payments = [] ∧ later.Pairwise (· ≤ ·)
  | some entry => ∃ start z, B.level z start = B.capacity ∧
      B.Payments z payments entry.zero ∧ (∀ payment ∈ payments, 0 ≤ payment.2) ∧
      (start :: (payments.map (·.1) ++ later)).Pairwise (· ≤ ·)

namespace Books

variable {payments : List (TimePoint × ℚ)} {later : List TimePoint} {now : TimePoint}
  {entry : Option BucketEntry}

/-- The entry of a connection that is charged now, which may be a new one. -/
theorem touched (h : Books B payments (now :: later) entry) : ∃ start z,
    B.level z start = B.capacity ∧ B.Payments z payments (zeroFor B entry now) ∧
      (∀ payment ∈ payments, 0 ≤ payment.2) ∧
      (start :: (payments.map (·.1) ++ now :: later)).Pairwise (· ≤ ·) := by
  cases entry with
  | some e => exact h
  | none =>
      obtain ⟨rfl, hlater⟩ := h
      refine ⟨now, B.full now, B.level_full, .nil _, List.forall_mem_nil _, ?_⟩
      exact List.pairwise_cons.mpr ⟨List.forall_mem_cons.mpr
        ⟨le_refl now, (List.pairwise_cons.mp hlater).1⟩, hlater⟩

/-- The bucket pays what conforms with the payments made. -/
theorem le_level_iff (h : Books B payments (now :: later) entry) (cost : ℚ) :
    cost ≤ B.level (zeroFor B entry now) now ↔ B.Conforms payments cost now := by
  obtain ⟨start, z, hfull, hpayments, hnonneg, hascending⟩ := h.touched
  rw [← List.cons_append] at hascending
  obtain ⟨htimes, -, hbefore⟩ := List.pairwise_append.mp hascending
  exact hpayments.le_level_iff_conforms hfull hnonneg htimes fun time htime =>
    hbefore time htime now List.mem_cons_self

/-- A call of the connection enters its debit, if it makes one. -/
theorem consume (h : Books B payments (now :: later) entry) (hsound : SoundEntry B entry)
    (cost : ℚ) :
    Books B (payments ++ (if 0 < cost ∧ cost ≤ B.level (zeroFor B entry now) now then
      some (now, cost) else none).toList) later
      (some (consumeEntry (settingsOf B) entry cost now).2) := by
  obtain ⟨start, z, hfull, hpayments, hnonneg, hascending⟩ := h.touched
  rw [consumeEntry_zero hsound]
  split
  · rename_i hpay
    refine ⟨start, z, hfull, hpayments.append (.cons hpay.2 (.nil _)), ?_, ?_⟩
    · intro payment hpayment
      rcases List.mem_append.mp hpayment with hold | hnew
      · exact hnonneg payment hold
      · rw [List.mem_singleton.mp hnew]
        exact hpay.1.le
    · simpa using hascending
  · rw [Option.toList_none, List.append_nil]
    refine ⟨start, z, hfull, hpayments, hnonneg, hascending.sublist ?_⟩
    exact ((List.sublist_cons_self now later).append_left _).cons_cons start

theorem drop_now (h : Books B payments (now :: later) entry) : Books B payments later entry := by
  cases entry with
  | none => exact ⟨h.1, (List.pairwise_cons.mp h.2).2⟩
  | some e =>
      obtain ⟨start, z, hfull, hpayments, hnonneg, hascending⟩ := h
      refine ⟨start, z, hfull, hpayments, hnonneg, hascending.sublist ?_⟩
      exact ((List.sublist_cons_self now later).append_left _).cons_cons start

end Books

/-! ## Runs -/

/-- One call keeps the books. -/
theorem Books.step {t : LimiterTransition ConnId} {payments : List (TimePoint × ℚ)}
    {later : List TimePoint} (hstep : LimiterStep t) (hsound : SoundLimiter B t.source)
    (hkept : t.source.entry c ≠ none → t.target.entry c ≠ none)
    (h : Books B payments ((t.label.stageOf? c).toList.map (·.now) ++ later)
      (t.source.entry c)) :
    Books B (payments ++ (debit? c t).toList) later
      (t.target.entry c) := by
  have hentry := hstep.entry_of_kept hkept
  rw [hstep.debit?_eq]
  rw [hsound.settings_eq] at hentry ⊢
  cases hstage : t.label.stageOf? c with
  | none =>
      rw [payment?_of_no_stageOf hstage, Option.toList_none, List.append_nil]
      rw [hstage] at h
      have hsame : t.target.entry c = t.source.entry c := by
        rcases (soloStep_of_no_stageOf (settingsOf B) (t.source.entry c) hstage).2 with
          hsame | hgone
        · rw [hentry, hsame]
        · rw [hgone] at hentry
          rw [hentry]
          by_contra hne
          exact hkept (Ne.symm hne) hentry
      rw [hsame]
      exact h
  | some stage =>
      rw [hstage] at h
      have hsoundEntry := hsound.entries c
      rw [soloStep_of_stageOf hstage, settleEntry_entry] at hentry
      rw [payment?_of_stageOf hsoundEntry hstage, hentry]
      by_cases htouch : stage.decision.dropped = true → 0 < stage.decision.tokenCost
      · rw [if_pos htouch]
        exact h.consume hsoundEntry stage.decision.tokenCost
      · have hfree : ¬ 0 < stage.decision.tokenCost := fun hpos => htouch fun _ => hpos
        rw [if_neg htouch, if_neg fun hpay => hfree hpay.1, Option.toList_none, List.append_nil]
        exact h.drop_now

theorem Books.run {limiter limiter' : ConnectionLimiter ConnId}
    {segment : List (LimiterTransition ConnId)} (hrun : LimiterRun limiter segment limiter') :
    ∀ {payments : List (TimePoint × ℚ)} {later : List TimePoint}, SoundLimiter B limiter →
      KeepsEntry c segment →
      Books B payments ((stagesOf c segment).map (·.now) ++ later) (limiter.entry c) →
      Books B (payments ++ debitsOf c segment) later (limiter'.entry c) := by
  induction hrun with
  | nil limiter =>
      intro payments later _ _ h
      simpa [debitsOf, stagesOf] using h
  | @cons t trace limiter' hstep _ ih =>
      intro payments later hsound hkeeps h
      rw [stagesOf_cons, List.map_append, List.append_assoc] at h
      have hnext := h.step hstep hsound (hkeeps t List.mem_cons_self)
      have hend := ih (hstep.sound hsound) (fun t' ht' => hkeeps t' (.tail _ ht')) hnext
      rwa [debitsOf_cons, ← List.append_assoc]

/-- Two connections that have spent most of their tokens. -/
def spendingCalls : List (Call Nat) :=
  [.admitPre (.flat 8 9) 1 .empty 5, .admitPre (.flat 8 8) 0 .empty 3,
    .admitPre (.flat 8 2) 1 .empty 7]

/-- The limiter they leave. -/
def spentLimiter : ConnectionLimiter Nat :=
  (ConnectionLimiter.create ⟨10, 1⟩ 4).execAll spendingCalls

/-- A call that comes too early to be paid. -/
def earlyCall : LimiterTransition Nat :=
  ⟨spentLimiter, .admitPre (.flat 8 4) 1 .empty 9,
    (spentLimiter.exec (.admitPre (.flat 8 4) 1 .empty 9)).1,
    (spentLimiter.exec (.admitPre (.flat 8 4) 1 .empty 9)).2⟩

end RpcSpec.Admission
