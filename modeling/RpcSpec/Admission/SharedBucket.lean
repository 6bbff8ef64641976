import RpcSpec.Admission.TokenBucket
import RpcSpec.Foundation.Linearization
set_option autoImplicit false

/-!
# A bucket shared by threads (`admissionspec/folly/TokenBucket.hpp`)

The bucket is lock-free: a thread reads the zero time, computes what it would be after
the debit, and puts that in place by a compare-and-swap, from the beginning again when
another thread was faster.  Here every access of the zero time is a step of its own, which
any thread may take at any time.

The accesses of one atomic variable are totally ordered whatever their memory order, and
the threads share nothing else.  A weak compare-and-swap may fail for no reason.
-/

namespace RpcSpec.Admission

open RpcSpec.Foundation

/-! ## Calls -/

/-- A call of a member function that threads may make at the same time. -/
inductive BucketCall where
  | tryConsume (cost : ℚ) (now : TimePoint)
  | available (now : TimePoint)
  deriving DecidableEq

/-- What a call of the bucket returns. -/
inductive BucketAnswer where
  | consumed (ok : Bool)
  | tokens (available : ℚ)
  deriving DecidableEq

/-- A call with nothing in between. -/
def TokenBucket.call (bucket : TokenBucket) : BucketCall → BucketAnswer × TokenBucket
  | .tryConsume cost now =>
      let (ok, bucket') := bucket.tryConsume cost now
      (.consumed ok, bucket')
  | .available now => (.tokens (bucket.available now), bucket)

/-- The bucket as it is meant: one call after another. -/
def BucketStep (t : Transition TokenBucket BucketCall BucketAnswer) : Prop :=
  t.source.call t.label = (t.output, t.target)

/-! ## Threads -/

/-- Where a thread is: outside, or before its next access of the zero time. -/
inductive BucketPoint where
  | idle
  | called (call : BucketCall)
  /-- At the head of the loop in `TokenBucketStorage::consume`. -/
  | looping (cost : ℚ) (now : TimePoint)
  /-- Before the compare-and-swap at its end. -/
  | swapping (cost : ℚ) (now : TimePoint) (consumed zeroTimeOld zeroTimeNew : ℚ)
  | returning (answer : BucketAnswer)
  deriving DecidableEq

namespace BucketPoint

/-- The thread goes on to before its next access.  A compare-and-swap replaces the zero
time when that is the one the thread has read. -/
def advance (bucket : TokenBucket) : BucketPoint → Option (TokenBucket × BucketPoint)
  | .called (.tryConsume cost now) =>
      if cost ≤ 0 then some (bucket, .returning (.consumed true))
      else if bucket.bucket.balance now < 0 then some (bucket, .returning (.consumed false))
      else some (bucket, .looping cost now)
  | .called (.available now) => some (bucket, .returning (.tokens (bucket.available now)))
  | .looping cost now =>
      let zeroTimeOld := bucket.zeroTime
      let tokens := min ((now - zeroTimeOld) * bucket.bucket.rate) bucket.bucket.burstSize
      let consumed := if tokens < cost then 0 else cost
      let tokensNew := tokens - consumed
      if consumed = 0 then some (bucket, .returning (.consumed (decide (consumed = cost))))
      else some (bucket, .swapping cost now consumed zeroTimeOld
        (now - tokensNew / bucket.bucket.rate))
  | .swapping cost now consumed zeroTimeOld zeroTimeNew =>
      if bucket.zeroTime = zeroTimeOld then
        some (bucket.withZeroTime zeroTimeNew, .returning (.consumed (decide (consumed = cost))))
      else some (bucket, .looping cost now)
  | _ => none

end BucketPoint

/-- A bucket, and where the threads that use it are. -/
structure SharedBucket (T : Type) where
  bucket : TokenBucket
  point : T → BucketPoint

/-- What a thread may do next. -/
inductive BucketMove where
  | invoke (call : BucketCall)
  | advance
  /-- The compare-and-swap fails although it need not. -/
  | failSpuriously
  | respond
  deriving DecidableEq

namespace SharedBucket

variable {T : Type} [DecidableEq T]

/-- A bucket nobody uses. -/
def fresh (bucket : TokenBucket) : SharedBucket T := ⟨bucket, fun _ => .idle⟩

/-- One thread moves on and leaves the bucket as it was. -/
def goTo (shared : SharedBucket T) (thread : T) (point : BucketPoint) : SharedBucket T :=
  { shared with point := Function.update shared.point thread point }

/-- A thread makes a move, if it can. -/
def move (shared : SharedBucket T) (thread : T) :
    BucketMove → Option (Option (CallEvent T BucketCall BucketAnswer) × SharedBucket T)
  | .invoke call =>
      match shared.point thread with
      | .idle => some (some (.invoke thread call), shared.goTo thread (.called call))
      | _ => none
  | .advance =>
      match (shared.point thread).advance shared.bucket with
      | some (bucket, point) => some (none, { shared with bucket := bucket }.goTo thread point)
      | none => none
  | .failSpuriously =>
      match shared.point thread with
      | .swapping cost now _ _ _ => some (none, shared.goTo thread (.looping cost now))
      | _ => none
  | .respond =>
      match shared.point thread with
      | .returning answer => some (some (.respond thread answer), shared.goTo thread .idle)
      | _ => none

end SharedBucket

section Steps

variable {T : Type} [DecidableEq T]

/-- A transition of the bucket with the threads. -/
abbrev SharedTransition (T : Type) :=
  Transition (SharedBucket T) (T × BucketMove) (Option (CallEvent T BucketCall BucketAnswer))

/-- Some thread makes a move. -/
def SharedStep (t : SharedTransition T) : Prop :=
  t.source.move t.label.1 t.label.2 = some (t.output, t.target)

/-- A run of the threads, in any interleaving. -/
abbrev SharedRun (shared : SharedBucket T) (trace : List (SharedTransition T))
    (shared' : SharedBucket T) : Prop :=
  Run SharedStep shared trace shared'

/-- The threads make these moves, in this order: what is seen of them, if they can. -/
def SharedBucket.moves (shared : SharedBucket T) : List (T × BucketMove) →
    Option (List (CallEvent T BucketCall BucketAnswer) × SharedBucket T)
  | [] => some ([], shared)
  | (thread, bucketMove) :: rest =>
      (shared.move thread bucketMove).bind fun moved =>
        (moved.2.moves rest).map fun later => (moved.1.toList ++ later.1, later.2)

theorem SharedBucket.run_of_moves {labels : List (T × BucketMove)} :
    ∀ {shared shared' : SharedBucket T} {history : List (CallEvent T BucketCall BucketAnswer)},
      shared.moves labels = some (history, shared') →
        ∃ trace, SharedRun shared trace shared' ∧ historyOf trace = history ∧
          trace.map (·.label) = labels := by
  induction labels with
  | nil =>
      intro shared shared' history h
      cases h
      exact ⟨[], .nil _, rfl, rfl⟩
  | cons label rest ih =>
      intro shared shared' history h
      obtain ⟨⟨event, mid⟩, hmove, hrest⟩ := Option.bind_eq_some_iff.mp h
      obtain ⟨⟨later, final⟩, hlater, heq⟩ := Option.map_eq_some_iff.mp hrest
      cases heq
      obtain ⟨trace, hrun, rfl, rfl⟩ := ih hlater
      refine ⟨⟨shared, label, event, mid⟩ :: trace, Run.cons_iff.mpr ⟨rfl, hmove, hrun⟩, ?_, rfl⟩
      cases event <;> rfl

end Steps

/-! ## What a move does -/

namespace BucketPoint

/-- What a thread knows at a point: that it pays for something, and what it computed from
the zero time it read. -/
def Sound (bucket : TokenBucket) : BucketPoint → Prop
  | .looping cost _ => 0 < cost
  | .swapping cost now consumed zeroTimeOld zeroTimeNew =>
      0 < cost ∧ consumed = cost ∧ cost ≤ (bucket.withZeroTime zeroTimeOld).bucket.balance now ∧
        zeroTimeNew = bucket.zeroTimeWith now
          ((bucket.withZeroTime zeroTimeOld).bucket.balance now - cost)
  | _ => True

/-- What the thread knows does not depend on the present zero time. -/
theorem sound_withZeroTime {bucket : TokenBucket} {point : BucketPoint} (zeroTime : ℚ) :
    point.Sound (bucket.withZeroTime zeroTime) ↔ point.Sound bucket := by
  cases point <;> rfl

end BucketPoint

/-- A move of a thread, from what it knows. -/
inductive BucketMoved {T : Type} [DecidableEq T] (shared : SharedBucket T) (thread : T) :
    BucketMove → Option (CallEvent T BucketCall BucketAnswer) → SharedBucket T → Prop
  | invoke (call : BucketCall) (hpoint : shared.point thread = .idle) :
      BucketMoved shared thread (.invoke call) (some (.invoke thread call))
        (shared.goTo thread (.called call))
  /-- A call that changes nothing is answered at once. -/
  | answer {call : BucketCall} {answer : BucketAnswer}
      (hpoint : shared.point thread = .called call)
      (hcall : shared.bucket.call call = (answer, shared.bucket)) :
      BucketMoved shared thread .advance none (shared.goTo thread (.returning answer))
  | enter {cost : ℚ} {now : TimePoint} (hcost : 0 < cost)
      (hpoint : shared.point thread = .called (.tryConsume cost now)) :
      BucketMoved shared thread .advance none (shared.goTo thread (.looping cost now))
  | refuse {cost : ℚ} {now : TimePoint} (hpoint : shared.point thread = .looping cost now)
      (hcall : shared.bucket.tryConsume cost now = (false, shared.bucket)) :
      BucketMoved shared thread .advance none (shared.goTo thread (.returning (.consumed false)))
  /-- The thread has read the present zero time. -/
  | load {cost : ℚ} {now : TimePoint} {zeroTimeNew : ℚ}
      (hpoint : shared.point thread = .looping cost now)
      (hsound : BucketPoint.Sound shared.bucket
        (.swapping cost now cost shared.bucket.zeroTime zeroTimeNew)) :
      BucketMoved shared thread .advance none
        (shared.goTo thread (.swapping cost now cost shared.bucket.zeroTime zeroTimeNew))
  | swap {cost : ℚ} {now : TimePoint} {zeroTimeNew : ℚ}
      (hpoint : shared.point thread =
        .swapping cost now cost shared.bucket.zeroTime zeroTimeNew)
      (hcall : shared.bucket.tryConsume cost now =
        (true, shared.bucket.withZeroTime zeroTimeNew)) :
      BucketMoved shared thread .advance none
        ({ shared with bucket := shared.bucket.withZeroTime zeroTimeNew }.goTo thread
          (.returning (.consumed true)))
  /-- Another thread was faster. -/
  | lose {cost : ℚ} {now : TimePoint} {consumed zeroTimeOld zeroTimeNew : ℚ} (hcost : 0 < cost)
      (hpoint : shared.point thread = .swapping cost now consumed zeroTimeOld zeroTimeNew)
      (hold : shared.bucket.zeroTime ≠ zeroTimeOld) :
      BucketMoved shared thread .advance none (shared.goTo thread (.looping cost now))
  | failSpuriously {cost : ℚ} {now : TimePoint} {consumed zeroTimeOld zeroTimeNew : ℚ}
      (hcost : 0 < cost)
      (hpoint : shared.point thread = .swapping cost now consumed zeroTimeOld zeroTimeNew) :
      BucketMoved shared thread .failSpuriously none (shared.goTo thread (.looping cost now))
  | respond {answer : BucketAnswer} (hpoint : shared.point thread = .returning answer) :
      BucketMoved shared thread .respond (some (.respond thread answer))
        (shared.goTo thread .idle)

namespace TokenBucket

theorem call_tryConsume {bucket bucket' : TokenBucket} {cost : ℚ} {now : TimePoint} {ok : Bool}
    (h : bucket.tryConsume cost now = (ok, bucket')) :
    bucket.call (.tryConsume cost now) = (.consumed ok, bucket') := by
  simp only [call, h]

theorem tryConsume_of_short {bucket : TokenBucket} {cost : ℚ} (hcost : 0 < cost)
    {now : TimePoint} (hshort : bucket.bucket.balance now < cost) :
    bucket.tryConsume cost now = (false, bucket) := by
  rw [tryConsume_of_pos _ hcost, if_neg (not_le.mpr hshort)]

end TokenBucket

namespace SharedBucket

variable {T : Type} [DecidableEq T] {shared shared' : SharedBucket T} {thread : T}
  {event : Option (CallEvent T BucketCall BucketAnswer)}

theorem moved_of_called {call : BucketCall} (hpoint : shared.point thread = .called call)
    (h : shared.move thread .advance = some (event, shared')) :
    BucketMoved shared thread .advance event shared' := by
  cases call with
  | available now =>
      simp only [move, hpoint, BucketPoint.advance, Option.some.injEq, Prod.mk.injEq] at h
      obtain ⟨rfl, rfl⟩ := h
      exact .answer hpoint rfl
  | tryConsume cost now =>
      simp only [move, hpoint, BucketPoint.advance] at h
      by_cases hcost : cost ≤ 0
      · simp only [if_pos hcost, Option.some.injEq, Prod.mk.injEq] at h
        obtain ⟨rfl, rfl⟩ := h
        exact .answer hpoint
          (TokenBucket.call_tryConsume (shared.bucket.tryConsume_of_nonpos hcost now))
      have hpos : 0 < cost := not_le.mp hcost
      by_cases hdebt : shared.bucket.bucket.balance now < 0
      · simp only [if_neg hcost, if_pos hdebt, Option.some.injEq, Prod.mk.injEq] at h
        obtain ⟨rfl, rfl⟩ := h
        exact .answer hpoint (TokenBucket.call_tryConsume
          (TokenBucket.tryConsume_of_short hpos (hdebt.trans hpos)))
      · simp only [if_neg hcost, if_neg hdebt, Option.some.injEq, Prod.mk.injEq] at h
        obtain ⟨rfl, rfl⟩ := h
        exact .enter hpos hpoint

theorem moved_of_looping {cost : ℚ} {now : TimePoint} (hcost : 0 < cost)
    (hpoint : shared.point thread = .looping cost now)
    (h : shared.move thread .advance = some (event, shared')) :
    BucketMoved shared thread .advance event shared' := by
  have hbalance : min ((now - shared.bucket.zeroTime) * shared.bucket.bucket.rate)
      shared.bucket.bucket.burstSize = shared.bucket.bucket.balance now := rfl
  simp only [move, hpoint, BucketPoint.advance, hbalance] at h
  by_cases hshort : shared.bucket.bucket.balance now < cost
  · have hne : (0 : ℚ) ≠ cost := hcost.ne
    simp only [if_pos hshort, if_true, hne, decide_false, Option.some.injEq,
      Prod.mk.injEq] at h
    obtain ⟨rfl, rfl⟩ := h
    exact .refuse hpoint (TokenBucket.tryConsume_of_short hcost hshort)
  · simp only [if_neg hshort, if_neg hcost.ne', Option.some.injEq, Prod.mk.injEq] at h
    obtain ⟨rfl, rfl⟩ := h
    exact .load hpoint ⟨hcost, rfl, not_lt.mp hshort, rfl⟩

theorem moved_of_swapping {cost : ℚ} {now : TimePoint} {consumed zeroTimeOld zeroTimeNew : ℚ}
    (hsound : BucketPoint.Sound shared.bucket
      (.swapping cost now consumed zeroTimeOld zeroTimeNew))
    (hpoint : shared.point thread = .swapping cost now consumed zeroTimeOld zeroTimeNew)
    (h : shared.move thread .advance = some (event, shared')) :
    BucketMoved shared thread .advance event shared' := by
  obtain ⟨hcost, rfl, hpay, hnew⟩ := hsound
  simp only [move, hpoint, BucketPoint.advance] at h
  by_cases hsame : shared.bucket.zeroTime = zeroTimeOld
  · simp only [if_pos hsame, decide_true, Option.some.injEq, Prod.mk.injEq] at h
    obtain ⟨rfl, rfl⟩ := h
    subst hsame
    refine .swap hpoint ?_
    have hpay : consumed ≤ shared.bucket.bucket.balance now := hpay
    rw [TokenBucket.tryConsume_of_pos _ hcost, if_pos hpay, hnew]
    rfl
  · simp only [if_neg hsame, Option.some.injEq, Prod.mk.injEq] at h
    obtain ⟨rfl, rfl⟩ := h
    exact .lose hcost hpoint hsame

/-- What a move of a thread can do. -/
theorem move_cases {bucketMove : BucketMove}
    (hsound : (shared.point thread).Sound shared.bucket)
    (h : shared.move thread bucketMove = some (event, shared')) :
    BucketMoved shared thread bucketMove event shared' := by
  cases hpoint : shared.point thread with
  | idle =>
      cases bucketMove with
      | invoke call =>
          simp only [move, hpoint, Option.some.injEq, Prod.mk.injEq] at h
          obtain ⟨rfl, rfl⟩ := h
          exact .invoke call hpoint
      | _ => simp [move, hpoint, BucketPoint.advance] at h
  | called call =>
      cases bucketMove with
      | advance => exact moved_of_called hpoint h
      | _ => simp [move, hpoint] at h
  | looping cost now =>
      rw [hpoint] at hsound
      cases bucketMove with
      | advance => exact moved_of_looping hsound hpoint h
      | _ => simp [move, hpoint] at h
  | swapping cost now consumed zeroTimeOld zeroTimeNew =>
      rw [hpoint] at hsound
      cases bucketMove with
      | advance => exact moved_of_swapping hsound hpoint h
      | failSpuriously =>
          simp only [move, hpoint, Option.some.injEq, Prod.mk.injEq] at h
          obtain ⟨rfl, rfl⟩ := h
          exact .failSpuriously hsound.1 hpoint
      | _ => simp [move, hpoint] at h
  | returning answer =>
      cases bucketMove with
      | respond =>
          simp only [move, hpoint, Option.some.injEq, Prod.mk.injEq] at h
          obtain ⟨rfl, rfl⟩ := h
          exact .respond hpoint
      | _ => simp [move, hpoint, BucketPoint.advance] at h

end SharedBucket

/-! ## The view of a bucket that does a call in one step -/

/-- The call of a thread takes effect where it is decided: at the compare-and-swap that
succeeds, or at the read that refuses it. -/
def BucketPoint.phase : BucketPoint → CallPhase BucketCall BucketAnswer
  | .idle => .idle
  | .called call => .pending call
  | .looping cost now => .pending (.tryConsume cost now)
  | .swapping cost now _ _ _ => .pending (.tryConsume cost now)
  | .returning answer => .done answer

namespace SharedBucket

variable {T : Type} [DecidableEq T] {shared shared' : SharedBucket T} {thread : T}
  {event : Option (CallEvent T BucketCall BucketAnswer)}

/-- Every thread is at a point that fits the bucket. -/
def Sound (shared : SharedBucket T) : Prop :=
  ∀ thread, (shared.point thread).Sound shared.bucket

def view (shared : SharedBucket T) : AtomicObject TokenBucket T BucketCall BucketAnswer :=
  ⟨shared.bucket, BucketPoint.phase ∘ shared.point⟩

theorem view_goTo (shared : SharedBucket T) (thread : T) (point : BucketPoint) :
    (shared.goTo thread point).view =
      ⟨shared.bucket, Function.update shared.view.phase thread point.phase⟩ := by
  rw [view, goTo, Function.comp_update]
  rfl

/-- A thread that stays in its call is seen to do nothing. -/
theorem view_goTo_of_phase {point : BucketPoint}
    (h : point.phase = (shared.point thread).phase) :
    (shared.goTo thread point).view = shared.view := by
  rw [view_goTo, h]
  exact congrArg _ (Function.update_eq_self thread _)

theorem Sound.goTo {point : BucketPoint} (hsound : shared.Sound)
    (hpoint : point.Sound shared.bucket) : (shared.goTo thread point).Sound := by
  intro other
  by_cases hother : other = thread
  · subst hother
    simpa [SharedBucket.goTo] using hpoint
  · simpa [SharedBucket.goTo, Function.update_of_ne hother] using hsound other

omit [DecidableEq T] in
theorem Sound.withZeroTime (hsound : shared.Sound) (zeroTime : ℚ) :
    Sound { shared with bucket := shared.bucket.withZeroTime zeroTime } :=
  fun thread => (BucketPoint.sound_withZeroTime zeroTime).mpr (hsound thread)

/-- A thread takes effect and goes on to return. -/
theorem commits {call : BucketCall} {answer : BucketAnswer} {bucket' : TokenBucket}
    (hphase : (shared.point thread).phase = .pending call)
    (hcall : shared.bucket.call call = (answer, bucket')) :
    ∃ commit, AtomicStep BucketStep shared.view none commit
      ({ shared with bucket := bucket' }.goTo thread (.returning answer)).view := by
  let taken : Transition TokenBucket BucketCall BucketAnswer :=
    ⟨shared.bucket, call, answer, bucket'⟩
  have hstep : AtomicStep BucketStep shared.view none (some (thread, taken))
      ⟨bucket', Function.update shared.view.phase thread (.done answer)⟩ :=
    .commit (t := taken) hcall hphase
  exact ⟨_, by rwa [view_goTo]⟩

/-- A move is a step of the bucket that does a call in one step, or none. -/
theorem refined_of_moved {bucketMove : BucketMove} (hsound : shared.Sound)
    (h : BucketMoved shared thread bucketMove event shared') :
    shared'.Sound ∧ (event = none ∧ shared'.view = shared.view ∨
      ∃ commit, AtomicStep BucketStep shared.view event commit shared'.view) := by
  have hphase {point : BucketPoint} (hpoint : shared.point thread = point) :
      (shared.point thread).phase = point.phase := congrArg _ hpoint
  cases h with
  | invoke call hpoint =>
      refine ⟨hsound.goTo trivial, .inr ⟨none, ?_⟩⟩
      rw [view_goTo]
      exact .invoke call (hphase hpoint)
  | answer hpoint hcall => exact ⟨hsound.goTo trivial, .inr (commits (hphase hpoint) hcall)⟩
  | enter hcost hpoint =>
      exact ⟨hsound.goTo hcost, .inl ⟨rfl, view_goTo_of_phase (hphase hpoint).symm⟩⟩
  | refuse hpoint hcall =>
      exact ⟨hsound.goTo trivial,
        .inr (commits (hphase hpoint) (TokenBucket.call_tryConsume hcall))⟩
  | load hpoint hknown =>
      exact ⟨hsound.goTo hknown, .inl ⟨rfl, view_goTo_of_phase (hphase hpoint).symm⟩⟩
  | swap hpoint hcall =>
      exact ⟨(hsound.withZeroTime _).goTo trivial,
        .inr (commits (hphase hpoint) (TokenBucket.call_tryConsume hcall))⟩
  | lose hcost hpoint hold =>
      exact ⟨hsound.goTo hcost, .inl ⟨rfl, view_goTo_of_phase (hphase hpoint).symm⟩⟩
  | failSpuriously hcost hpoint =>
      exact ⟨hsound.goTo hcost, .inl ⟨rfl, view_goTo_of_phase (hphase hpoint).symm⟩⟩
  | respond hpoint =>
      refine ⟨hsound.goTo trivial, .inr ⟨none, ?_⟩⟩
      rw [view_goTo]
      exact .respond (hphase hpoint)

theorem refines : Refines (SharedStep (T := T)) BucketStep Sound view :=
  fun _ ht hsound => refined_of_moved hsound (move_cases (hsound _) ht)

omit [DecidableEq T] in
theorem sound_fresh (bucket : TokenBucket) : (fresh bucket : SharedBucket T).Sound :=
  fun _ => trivial

end SharedBucket

/-- Threads that share a bucket see it consume and refuse as if it served one call after
another, in an order that agrees with their own. -/
theorem sharedBucket_linearizable {T : Type} [DecidableEq T] (bucket : TokenBucket)
    (trace : List (SharedTransition T)) (shared : SharedBucket T)
    (hrun : SharedRun (.fresh bucket) trace shared) :
    Linearizable BucketStep bucket (historyOf trace) :=
  SharedBucket.refines.linearizable (SharedBucket.sound_fresh bucket) (fun _ => rfl) hrun

/-- Two threads that read the same zero time: the second to swap reads again and is
refused. -/
def racingMoves : List (Bool × BucketMove) :=
  [(false, .invoke (.tryConsume 6 5)), (true, .invoke (.tryConsume 6 5)), (false, .advance),
    (true, .advance), (false, .advance), (true, .advance), (true, .advance), (false, .advance),
    (false, .advance), (false, .respond), (true, .respond)]

/-- Two threads ask for the same tokens and both are answered. -/
def racingHistory : List (CallEvent Bool BucketCall BucketAnswer) :=
  [.invoke false (.tryConsume 6 5), .invoke true (.tryConsume 6 5),
    .respond false (.consumed false), .respond true (.consumed true)]

theorem exists_racing_run : ∃ trace shared,
    SharedRun (.fresh (.create 10 1 5)) trace shared ∧ historyOf trace = racingHistory ∧
      trace.map (·.label) = racingMoves := by
  have hmoves : (((SharedBucket.fresh (.create 10 1 5)).moves racingMoves).map (·.1)) =
      some racingHistory := by decide +kernel
  obtain ⟨⟨history, shared⟩, hmoved, rfl⟩ := Option.map_eq_some_iff.mp hmoves
  obtain ⟨trace, hrun, hhistory, hlabels⟩ := SharedBucket.run_of_moves hmoved
  exact ⟨trace, shared, hrun, hhistory, hlabels⟩

theorem racing_linearizable : Linearizable BucketStep (.create 10 1 5) racingHistory := by
  obtain ⟨trace, shared, hrun, hhistory, -⟩ := exists_racing_run
  rw [← hhistory]
  exact sharedBucket_linearizable _ trace shared hrun

end RpcSpec.Admission
