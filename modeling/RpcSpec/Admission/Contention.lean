import RpcSpec.Admission.SharedBucket
import Mathlib.Algebra.Order.BigOperators.Group.Finset
import Mathlib.Algebra.Order.BigOperators.Group.List
import Mathlib.Algebra.Module.NatInt
import Mathlib.Data.Fintype.Card
set_option autoImplicit false

/-!
# What threads get out of a shared bucket

However the threads interleave and whatever times they pass, together they are granted at
most a full bucket and the refill of the time their calls span.  A compare-and-swap that
need not fail fails only because another thread's succeeded, so that the threads cannot keep
each other in their loops: their calls have a bounded number of accesses together.
-/

namespace RpcSpec.Admission

open RpcSpec.Foundation BucketRate

/-! ## Tokens granted -/

/-- The tokens a call takes that got the answer. -/
def grantedTokens : BucketCall → BucketAnswer → ℚ
  | .tryConsume cost _, .consumed true => max cost 0
  | _, _ => 0

theorem grantedTokens_nonneg (call : BucketCall) (answer : BucketAnswer) :
    0 ≤ grantedTokens call answer := by
  unfold grantedTokens
  split
  · exact le_max_right _ _
  · exact le_refl 0

/-- The tokens granted to a thread: of the calls it was answered. -/
def tokensGranted {T : Type} [DecidableEq T] (thread : T)
    (history : List (CallEvent T BucketCall BucketAnswer)) : ℚ :=
  (List.zipWith grantedTokens (invoked thread history) (responded thread history)).sum

section Sequential

variable {B : BucketRate ℚ} {z : ℚ} {t : Transition TokenBucket BucketCall BucketAnswer}

/-- A call pays for what it grants. -/
theorem BucketStep.payments (h : BucketStep t) (hsource : t.source = bucketAt B z) :
    ∃ payments z', B.Payments z payments z' ∧ t.target = bucketAt B z' ∧
      paid payments = grantedTokens t.label t.output ∧
      ∀ payment ∈ payments, t.label = .tryConsume payment.2 payment.1 := by
  obtain ⟨source, call, answer, target⟩ := t
  simp only [BucketStep] at h hsource ⊢
  subst hsource
  cases call with
  | available now =>
      cases h
      exact ⟨[], z, .nil z, rfl, rfl, by simp⟩
  | tryConsume cost now =>
      by_cases hcost : 0 < cost
      · simp only [TokenBucket.call, tryConsume_bucketAt B z hcost] at h
        split at h
        · rename_i hpay
          cases h
          refine ⟨[(now, cost)], _, .cons hpay (.nil _), rfl, ?_, by simp⟩
          simp [paid, grantedTokens, hcost.le]
        · cases h
          exact ⟨[], z, .nil z, rfl, rfl, by simp⟩
      · have hnonpos : cost ≤ 0 := not_lt.mp hcost
        simp only [TokenBucket.call, TokenBucket.tryConsume_of_nonpos _ hnonpos] at h
        cases h
        exact ⟨[], z, .nil z, rfl, by simp [paid, grantedTokens, hnonpos], by simp⟩

theorem run_payments {final : TokenBucket}
    {calls : List (Transition TokenBucket BucketCall BucketAnswer)} {bucket : TokenBucket}
    (h : Run BucketStep bucket calls final) : ∀ {z : ℚ}, bucket = bucketAt B z →
      ∃ payments z', B.Payments z payments z' ∧
        paid payments = (calls.map fun t => grantedTokens t.label t.output).sum ∧
        ∀ payment ∈ payments, ∃ t ∈ calls, t.label = .tryConsume payment.2 payment.1 := by
  induction h with
  | nil bucket =>
      intro z _
      exact ⟨[], z, .nil z, rfl, by simp⟩
  | @cons t calls final ht _ ih =>
      intro z hz
      obtain ⟨payments, mid, hpayments, hmid, hpaid, hcalls⟩ := ht.payments hz
      obtain ⟨later, z', hlater, hpaidLater, hcallsLater⟩ := ih hmid
      refine ⟨payments ++ later, z', hpayments.append hlater, ?_, ?_⟩
      · rw [paid_append, hpaid, hpaidLater, List.map_cons, List.sum_cons]
      · intro payment hpayment
        rcases List.mem_append.mp hpayment with hmem | hmem
        · exact ⟨t, List.mem_cons_self, hcalls payment hmem⟩
        · obtain ⟨t', ht', hlabel⟩ := hcallsLater payment hmem
          exact ⟨t', .tail _ ht', hlabel⟩

end Sequential

namespace BucketPoint

/-- The accesses a thread may still make, of so many threads: a success pays two to every
other thread, for its failure and for reading again. -/
def accessesLeft (threads : ℕ) (bucket : TokenBucket) : BucketPoint → ℕ
  | .called _ => 2 * threads + 1
  | .looping _ _ => 2 * threads
  | .swapping _ _ _ zeroTimeOld _ =>
      if bucket.zeroTime = zeroTimeOld then 2 * threads - 1 else 2 * threads + 1
  | .idle | .returning _ => 0

/-- Another zero time sends a thread back once. -/
theorem accessesLeft_le (threads : ℕ) (bucket bucket' : TokenBucket) (point : BucketPoint) :
    point.accessesLeft threads bucket' ≤ point.accessesLeft threads bucket + 2 := by
  cases point with
  | swapping cost now consumed zeroTimeOld zeroTimeNew =>
      simp only [accessesLeft]
      split <;> split <;> omega
  | _ => simp [accessesLeft]

end BucketPoint

namespace BucketMove

/-- Accesses of the zero time. -/
def accesses : BucketMove → ℕ
  | .advance | .failSpuriously => 1
  | .invoke _ | .respond => 0

/-- The move begins a call. -/
def isInvoke : BucketMove → Bool
  | .invoke _ => true
  | _ => false

/-- What a move adds to the accesses that may still be made. -/
def allows (threads : ℕ) : BucketMove → ℕ
  | .invoke _ => 2 * threads + 1
  | .failSpuriously => 2
  | .advance | .respond => 0

end BucketMove

namespace SharedBucket

variable {T : Type} [DecidableEq T] [Fintype T] {shared shared' : SharedBucket T} {thread : T}
  {bucketMove : BucketMove} {event : Option (CallEvent T BucketCall BucketAnswer)}

/-- The accesses the threads may still make. -/
def accessesLeft (shared : SharedBucket T) : ℕ :=
  ∑ thread : T, (shared.point thread).accessesLeft (Fintype.card T) shared.bucket

theorem accessesLeft_eq (shared : SharedBucket T) (thread : T) :
    shared.accessesLeft = (shared.point thread).accessesLeft (Fintype.card T) shared.bucket +
      ∑ other ∈ Finset.univ.erase thread,
        (shared.point other).accessesLeft (Fintype.card T) shared.bucket :=
  (Finset.add_sum_erase _ _ (Finset.mem_univ thread)).symm

/-- What a thread gives up or gets by going to another point. -/
theorem accessesLeft_goTo (shared : SharedBucket T) (thread : T) (point : BucketPoint) :
    (shared.goTo thread point).accessesLeft +
        (shared.point thread).accessesLeft (Fintype.card T) shared.bucket =
      shared.accessesLeft + point.accessesLeft (Fintype.card T) shared.bucket := by
  have hothers : ∀ other ∈ Finset.univ.erase thread,
      ((shared.goTo thread point).point other).accessesLeft (Fintype.card T) shared.bucket =
        (shared.point other).accessesLeft (Fintype.card T) shared.bucket := by
    intro other hother
    simp [goTo, Function.update_of_ne (Finset.ne_of_mem_erase hother)]
  have hmover : (shared.goTo thread point).point thread = point := Function.update_self ..
  have hbucket : (shared.goTo thread point).bucket = shared.bucket := rfl
  rw [accessesLeft_eq _ thread, accessesLeft_eq shared thread, hbucket,
    Finset.sum_congr rfl hothers, hmover]
  omega

/-- Another zero time sends every other thread back once. -/
theorem accessesLeft_withZeroTime_le (shared : SharedBucket T) (zeroTime : ℚ) (thread : T) :
    accessesLeft { shared with bucket := shared.bucket.withZeroTime zeroTime } +
        (shared.point thread).accessesLeft (Fintype.card T) shared.bucket ≤
      shared.accessesLeft + 2 * (Fintype.card T - 1) +
        (shared.point thread).accessesLeft (Fintype.card T)
          (shared.bucket.withZeroTime zeroTime) := by
  have hothers := calc
    ∑ other ∈ Finset.univ.erase thread, (shared.point other).accessesLeft (Fintype.card T)
        (shared.bucket.withZeroTime zeroTime)
      ≤ ∑ other ∈ Finset.univ.erase thread,
          ((shared.point other).accessesLeft (Fintype.card T) shared.bucket + 2) :=
        Finset.sum_le_sum fun other _ => BucketPoint.accessesLeft_le _ _ _ _
    _ = ∑ other ∈ Finset.univ.erase thread,
          (shared.point other).accessesLeft (Fintype.card T) shared.bucket +
            2 * (Fintype.card T - 1) := by
        rw [Finset.sum_add_distrib, Finset.sum_const, Finset.card_erase_of_mem
          (Finset.mem_univ thread), Finset.card_univ, smul_eq_mul, mul_comm]
  rw [accessesLeft_eq _ thread, accessesLeft_eq shared thread]
  simp only
  omega

theorem pays_of_goTo {point : BucketPoint}
    (h : bucketMove.accesses + point.accessesLeft (Fintype.card T) shared.bucket ≤
      (shared.point thread).accessesLeft (Fintype.card T) shared.bucket +
        bucketMove.allows (Fintype.card T)) :
    bucketMove.accesses + (shared.goTo thread point).accessesLeft ≤
      shared.accessesLeft + bucketMove.allows (Fintype.card T) := by
  have hgo := shared.accessesLeft_goTo thread point
  omega

/-- Every access is paid for, by the accesses still allowed or by the move. -/
theorem pays_of_moved (h : BucketMoved shared thread bucketMove event shared') :
    bucketMove.accesses + shared'.accessesLeft ≤
      shared.accessesLeft + bucketMove.allows (Fintype.card T) := by
  have hsome : 0 < Fintype.card T := Fintype.card_pos_iff.mpr ⟨thread⟩
  cases h with
  | invoke call hpoint =>
      apply pays_of_goTo
      simp [hpoint, BucketPoint.accessesLeft, BucketMove.accesses, BucketMove.allows]
  | answer hpoint hcall =>
      apply pays_of_goTo
      simp [hpoint, BucketPoint.accessesLeft, BucketMove.accesses, BucketMove.allows]
  | enter hcost hpoint =>
      apply pays_of_goTo
      simp only [hpoint, BucketPoint.accessesLeft, BucketMove.accesses, BucketMove.allows]
      omega
  | refuse hpoint hcall =>
      apply pays_of_goTo
      simp only [hpoint, BucketPoint.accessesLeft, BucketMove.accesses, BucketMove.allows]
      omega
  | load hpoint hsound =>
      apply pays_of_goTo
      simp only [hpoint, BucketPoint.accessesLeft, BucketMove.accesses, BucketMove.allows,
        if_true]
      omega
  | @swap cost now zeroTimeNew hpoint hcall =>
      -- The thread gives up its own accesses, two for each of the others.
      have hothers := shared.accessesLeft_withZeroTime_le zeroTimeNew thread
      have hgo := accessesLeft_goTo
        { shared with bucket := shared.bucket.withZeroTime zeroTimeNew } thread
        (.returning (.consumed true))
      have hown : (shared.point thread).accessesLeft (Fintype.card T) shared.bucket =
          2 * Fintype.card T - 1 := by simp [hpoint, BucketPoint.accessesLeft]
      simp only [BucketPoint.accessesLeft, BucketMove.accesses, BucketMove.allows] at *
      omega
  | lose hcost hpoint hold =>
      apply pays_of_goTo
      simp only [hpoint, BucketPoint.accessesLeft, BucketMove.accesses, BucketMove.allows,
        if_neg hold]
      omega
  | failSpuriously hcost hpoint =>
      apply pays_of_goTo
      simp only [hpoint, BucketPoint.accessesLeft, BucketMove.accesses, BucketMove.allows]
      split <;> omega
  | respond hpoint =>
      apply pays_of_goTo
      simp [hpoint, BucketPoint.accessesLeft, BucketMove.accesses, BucketMove.allows]

end SharedBucket

theorem sum_allows {T : Type} (threads : ℕ) (trace : List (SharedTransition T)) :
    (trace.map fun t => t.label.2.allows threads).sum =
      (2 * threads + 1) * trace.countP (fun t => t.label.2.isInvoke) +
        2 * trace.countP (fun t => t.label.2 = .failSpuriously) := by
  induction trace with
  | nil => simp
  | cons t trace ih =>
      rw [List.map_cons, List.sum_cons, ih, List.countP_cons, List.countP_cons]
      cases t.label.2 <;> simp [BucketMove.allows, BucketMove.isInvoke] <;> ring

/-- However the threads interleave, their calls have at most two accesses for every call and
thread and one more for every call, and two more for every swap that failed for no reason. -/
theorem accesses_le {T : Type} [DecidableEq T] [Fintype T] (bucket : TokenBucket)
    (trace : List (SharedTransition T)) (shared : SharedBucket T)
    (hrun : SharedRun (.fresh bucket) trace shared) :
    (trace.map fun t => t.label.2.accesses).sum ≤
      (2 * Fintype.card T + 1) * trace.countP (fun t => t.label.2.isInvoke) +
        2 * trace.countP (fun t => t.label.2 = .failSpuriously) := by
  have hpays : (trace.map fun t => t.label.2.accesses).sum + shared.accessesLeft ≤
      (SharedBucket.fresh bucket : SharedBucket T).accessesLeft +
        (trace.map fun t => t.label.2.allows (Fintype.card T)).sum :=
    Run.potential (I := SharedBucket.Sound)
      (fun t ht hsound => ⟨(SharedBucket.refines t ht hsound).1,
        SharedBucket.pays_of_moved (SharedBucket.move_cases (hsound _) ht)⟩)
      hrun (SharedBucket.sound_fresh bucket)
  have hnone : (SharedBucket.fresh bucket : SharedBucket T).accessesLeft = 0 :=
    Finset.sum_eq_zero fun thread _ => rfl
  rw [← sum_allows]
  omega

theorem racing_accesses_le : ∃ trace shared,
    SharedRun (.fresh (.create 10 1 5)) trace shared ∧ trace.map (·.label) = racingMoves ∧
      (trace.map fun t => t.label.2.accesses).sum ≤
        (2 * Fintype.card Bool + 1) * trace.countP (fun t => t.label.2.isInvoke) +
          2 * trace.countP (fun t => t.label.2 = .failSpuriously) := by
  obtain ⟨trace, shared, hrun, -, hlabels⟩ := exists_racing_run
  exact ⟨trace, shared, hrun, hlabels, accesses_le _ trace shared hrun⟩

end RpcSpec.Admission
