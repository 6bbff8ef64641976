import RpcSpec.Admission.Tracking
import RpcSpec.Foundation.Monitor
set_option autoImplicit false

/-!
# The limiter under its mutex

The member functions of the limiter as threads run them: a stage decides without the lock,
and the lock is held for the rest.  Under the lock every statement that touches the map is a
step of its own, the scan for the oldest entry one step an entry.  An iterator is the key it
stands at, and every statement that goes through one looks the key up: where it is not found
there is no next step.  So that a thread can go on (`lockedLimiter_safe`) says of the scan too
that `it` and `oldest` are in the map.
-/

namespace RpcSpec.Admission

open RpcSpec.Foundation

variable {ConnId : Type} [DecidableEq ConnId]

/-! ## Calls -/

/-- A call of any public member function. -/
inductive LimiterOp (ConnId : Type) : Type 1 where
  | call (call : Call ConnId)
  | size

/-- What an operation returns. -/
inductive LimiterAnswer where
  | returned (decision : Option AdmissionDecision)
  | counted (size : Nat)
  deriving DecidableEq

/-- The limiter as it is meant: one call after another. -/
def LimiterOpStep
    (t : Transition (ConnectionLimiter ConnId) (LimiterOp ConnId) LimiterAnswer) : Prop :=
  match t.label with
  | .call call => ∃ decision, t.output = .returned decision ∧
      LimiterStep ⟨t.source, call, decision, t.target⟩
  | .size => t.output = .counted t.source.size ∧ t.source.Rearranged t.target

/-! ## Statements under the lock -/

/-- Before which statement a thread is that holds the lock. -/
inductive LimiterPoint (ConnId : Type) where
  /-- `buckets.find(conn)` in `touchBucket`. -/
  | find (stage : Call.Stage ConnId)
  /-- The beginning of `evictOldest`. -/
  | evict (stage : Call.Stage ConnId)
  /-- Its loop, with the iterators `oldest` and, at the head of `rest`, `it`. -/
  | scan (stage : Call.Stage ConnId) (oldest : ConnId) (rest : List ConnId)
  | emplace (stage : Call.Stage ConnId)
  /-- `it->second.lastSeen = now`. -/
  | stamp (stage : Call.Stage ConnId)
  /-- `it->second.bucket.tryConsume(decision.tokenCost, now)`. -/
  | consume (stage : Call.Stage ConnId)
  | erase (conn : ConnId)
  | sweep (now : TimePoint) (idleFor : ℚ)
  | count
  /-- The end of the scope of the lock. -/
  | leave (answer : LimiterAnswer)

namespace Call.Stage

variable (stage : Call.Stage ConnId)

/-- A drop without a cost takes no lock. -/
def start : LimiterAnswer ⊕ LimiterPoint ConnId :=
  if stage.decision.dropped then
    if stage.decision.tokenCost > 0 then .inr (.find stage)
    else .inl (.returned (some stage.decision))
  else .inr (.find stage)

/-- What `penalize` or `charge` returns when the bucket was asked. -/
def settled (ok : Bool) : AdmissionDecision :=
  if stage.decision.dropped then stage.decision
  else if ok then .admit_ stage.decision.tokenCost
  else .drop "connection rate limit exceeded" 0

end Call.Stage

namespace LimiterOp

/-- Until the lock is asked for. -/
def prelude : LimiterOp ConnId → LimiterAnswer ⊕ LimiterPoint ConnId
  | .call (.admitPre spec conn payload now) =>
      Call.Stage.start ⟨conn, spec.preAdmit payload spec.resolved, now⟩
  | .call (.admit_ spec conn visitor now) =>
      Call.Stage.start ⟨conn, visitor (spec.makeChecker spec.resolved) spec.initial, now⟩
  | .call (.onDisconnect conn) => .inr (.erase conn)
  | .call (.sweepIdle now idleFor) => .inr (.sweep now idleFor)
  | .size => .inr .count

end LimiterOp

namespace LimiterPoint

/-- One statement. -/
def advance (limiter : ConnectionLimiter ConnId) : LimiterPoint ConnId →
    Option (ConnectionLimiter ConnId × (LimiterPoint ConnId ⊕ LimiterAnswer))
  | .find stage =>
      if (limiter.entry stage.conn).isSome then some (limiter, .inl (.stamp stage))
      else if limiter.size ≥ limiter.maxConnections then some (limiter, .inl (.evict stage))
      else some (limiter, .inl (.emplace stage))
  | .evict stage =>
      match limiter.buckets.keys with
      | [] => some (limiter, .inl (.emplace stage))
      | first :: rest => some (limiter, .inl (.scan stage first (first :: rest)))
  | .scan stage oldest [] =>
      match limiter.entry oldest with
      | none => none
      | some _ =>
          some ({ limiter with buckets := limiter.buckets.erase oldest }, .inl (.emplace stage))
  | .scan stage oldest (it :: rest) =>
      match limiter.entry it, limiter.entry oldest with
      | some entry, some oldestEntry =>
          let oldest := if entry.lastSeen < oldestEntry.lastSeen then it else oldest
          some (limiter, .inl (.scan stage oldest rest))
      | _, _ => none
  | .emplace stage =>
      let entry := ConnectionLimiter.freshEntry limiter.settings stage.now
      some ({ limiter with buckets := limiter.buckets.insert stage.conn entry },
        .inl (.stamp stage))
  | .stamp stage =>
      match limiter.entry stage.conn with
      | none => none
      | some entry =>
          let entry := { entry with lastSeen := stage.now }
          some ({ limiter with buckets := limiter.buckets.insert stage.conn entry },
            .inl (.consume stage))
  | .consume stage =>
      match limiter.entry stage.conn with
      | none => none
      | some entry =>
          let (ok, bucket) := entry.bucket.tryConsume stage.decision.tokenCost stage.now
          let entry := { entry with bucket := bucket }
          some ({ limiter with buckets := limiter.buckets.insert stage.conn entry },
            .inl (.leave (.returned (some (stage.settled ok)))))
  | .erase conn => some (limiter.onDisconnect conn, .inl (.leave (.returned none)))
  | .sweep now idleFor => some (limiter.sweepIdle now idleFor, .inl (.leave (.returned none)))
  | .count => some (limiter, .inl (.leave (.counted limiter.size)))
  | .leave answer => some (limiter, .inr answer)

end LimiterPoint

/-- The member functions as threads run them. -/
def limiterProgram : MonitorProgram (ConnectionLimiter ConnId) (LimiterOp ConnId) LimiterAnswer
    (LimiterPoint ConnId) where
  prelude := LimiterOp.prelude
  advance := fun limiter point => point.advance limiter
  rearranged := ConnectionLimiter.Rearranged

/-! ## What a critical section amounts to -/

namespace ConnectionLimiter

/-- Stamp and debit the entry, and put it into these buckets. -/
def settleInto (limiter : ConnectionLimiter ConnId) (stage : Call.Stage ConnId)
    (buckets : KeyedMap ConnId BucketEntry) (entry : Option BucketEntry) :
    LimiterAnswer × ConnectionLimiter ConnId :=
  let consumed := consumeEntry limiter.settings entry stage.decision.tokenCost stage.now
  (.returned (some (stage.settled consumed.1)),
    { limiter with buckets := buckets.insert stage.conn consumed.2 })

end ConnectionLimiter

namespace LimiterPoint

/-- What the thread will have answered and done when it gives the lock back. -/
def outcome (limiter : ConnectionLimiter ConnId) :
    LimiterPoint ConnId → LimiterAnswer × ConnectionLimiter ConnId
  | .find stage =>
      limiter.settleInto stage (limiter.roomFor stage.conn) (limiter.entry stage.conn)
  | .evict stage =>
      limiter.settleInto stage (ConnectionLimiter.evictOldest limiter.buckets) none
  | .scan stage oldest rest =>
      limiter.settleInto stage
        (limiter.buckets.erase (KeyedMap.scanKeys limiter.buckets (·.lastSeen) oldest rest)) none
  | .emplace stage => limiter.settleInto stage limiter.buckets none
  | .stamp stage | .consume stage =>
      limiter.settleInto stage limiter.buckets (limiter.entry stage.conn)
  | .erase conn => (.returned none, limiter.onDisconnect conn)
  | .sweep now idleFor => (.returned none, limiter.sweepIdle now idleFor)
  | .count => (.counted limiter.size, limiter)
  | .leave answer => (answer, limiter)

/-- What a thread knows before a statement, besides that the map is within its bound. -/
def Knows (limiter : ConnectionLimiter ConnId) : LimiterPoint ConnId → Prop
  | .evict stage =>
      limiter.entry stage.conn = none ∧ limiter.maxConnections ≤ limiter.size
  | .scan stage oldest rest => limiter.entry stage.conn = none ∧
      ∀ it ∈ oldest :: rest, ∃ entry, limiter.entry it = some entry
  | .emplace stage => limiter.entry stage.conn = none ∧ limiter.size + 1 ≤ limiter.bound
  | .stamp stage => limiter.entry stage.conn ≠ none
  | .consume stage => ∃ entry, limiter.entry stage.conn = some entry ∧ entry.lastSeen = stage.now
  | _ => True

/-- The statements until the lock is given back. -/
def stepsLeft (limiter : ConnectionLimiter ConnId) : LimiterPoint ConnId → ℕ
  | .find _ => limiter.size + 7
  | .evict _ => limiter.size + 6
  | .scan _ _ rest => rest.length + 5
  | .emplace _ => 4
  | .stamp _ => 3
  | .consume _ => 2
  | .erase _ | .sweep _ _ | .count => 2
  | .leave _ => 1

end LimiterPoint

/-- Within the bound, which is the limiter's own. -/
structure ConnectionLimiter.Bounded (maxConnections : Nat) (limiter : ConnectionLimiter ConnId) :
    Prop where
  maxConnections_eq : limiter.maxConnections = maxConnections
  size_le : limiter.size ≤ limiter.bound

/-- A thread before a statement, with what it knows. -/
structure LimiterPoint.Sound (maxConnections : Nat) (limiter : ConnectionLimiter ConnId)
    (point : LimiterPoint ConnId) : Prop where
  bounded : limiter.Bounded maxConnections
  knows : point.Knows limiter

/-- A statement does its part of the critical section, and knows what the next one needs. -/
structure LimiterPoint.GoesOn (maxConnections : Nat) (limiter : ConnectionLimiter ConnId)
    (point : LimiterPoint ConnId) (limiter' : ConnectionLimiter ConnId)
    (point' : LimiterPoint ConnId) : Prop where
  sound : point'.Sound maxConnections limiter'
  outcome_eq : point'.outcome limiter' = point.outcome limiter
  stepsLeft_lt : point'.stepsLeft limiter' < point.stepsLeft limiter

section Statements

variable {maxConnections : Nat} {limiter limiter' : ConnectionLimiter ConnId}
  {stage : Call.Stage ConnId} {point point' : LimiterPoint ConnId}

namespace LimiterPoint

theorem goesOn_of_find (hbounded : limiter.Bounded maxConnections)
    (h : advance limiter (.find stage) = some (limiter', .inl point')) :
    GoesOn maxConnections limiter (.find stage) limiter' point' := by
  simp only [advance] at h
  split at h
  · rename_i htracked
    cases h
    have hroom : limiter.roomFor stage.conn = limiter.buckets :=
      limiter.roomFor_of_room fun hall => by simp [hall.1] at htracked
    refine ⟨⟨hbounded, Option.isSome_iff_ne_none.mp htracked⟩, ?_, by simp [stepsLeft]⟩
    simp only [outcome, hroom]
  · rename_i hnew
    have hnew : limiter.entry stage.conn = none := Option.not_isSome_iff_eq_none.mp hnew
    split at h
    · rename_i hfull
      cases h
      have hroom : limiter.roomFor stage.conn = ConnectionLimiter.evictOldest limiter.buckets :=
        if_pos ⟨hnew, hfull⟩
      refine ⟨⟨hbounded, hnew, hfull⟩, ?_, by simp [stepsLeft]⟩
      simp only [outcome, hnew, hroom]
    · rename_i hroom
      cases h
      have hfree : limiter.size + 1 ≤ limiter.bound := by
        unfold ConnectionLimiter.bound
        omega
      have hsame : limiter.roomFor stage.conn = limiter.buckets :=
        limiter.roomFor_of_room fun hall => hroom hall.2.1
      refine ⟨⟨hbounded, hnew, hfree⟩, ?_, by simp [stepsLeft]⟩
      simp only [outcome, hnew, hsame]

theorem goesOn_of_evict (hsound : Sound maxConnections limiter (.evict stage))
    (h : advance limiter (.evict stage) = some (limiter', .inl point')) :
    GoesOn maxConnections limiter (.evict stage) limiter' point' := by
  obtain ⟨hbounded, hnew, hfull⟩ := hsound
  have hkeys : limiter.buckets.keys = limiter.buckets.entries.map (·.1) := rfl
  simp only [advance, hkeys] at h
  cases hentries : limiter.buckets.entries with
  | nil =>
      rw [hentries] at h
      cases h
      have hempty : limiter.size = 0 := by
        rw [ConnectionLimiter.size, KeyedMap.size, hentries]
        rfl
      refine ⟨⟨hbounded, hnew, ?_⟩, ?_, by simp [stepsLeft]⟩
      · rw [hempty, ConnectionLimiter.bound]
        exact le_max_left 1 _
      · simp only [outcome, ConnectionLimiter.evictOldest, KeyedMap.least?, hentries]
  | cons first rest =>
      rw [hentries] at h
      cases h
      have hmem : ∀ entry ∈ first :: first :: rest, entry ∈ limiter.buckets.entries := by
        intro entry hentry
        rw [hentries]
        rcases List.mem_cons.mp hentry with rfl | hentry
        · exact List.mem_cons_self
        · exact hentry
      have hlength : limiter.size = rest.length + 1 := by
        rw [ConnectionLimiter.size, KeyedMap.size, hentries]
        rfl
      refine ⟨⟨hbounded, hnew, ?_⟩, ?_, ?_⟩
      · intro it hit
        change it ∈ (first :: first :: rest).map (·.1) at hit
        obtain ⟨entry, hentry, rfl⟩ := List.mem_map.mp hit
        exact ⟨entry.2, KeyedMap.mem_entries_iff.mp (hmem entry hentry)⟩
      · have hscan := KeyedMap.scanKeys_eq (·.lastSeen) (first :: rest) first hmem
        simp only [List.map_cons] at hscan
        simp only [outcome, ConnectionLimiter.evictOldest, KeyedMap.least?, hentries, hscan]
      · simp only [stepsLeft, hlength, List.length_cons, List.length_map]
        omega

theorem goesOn_of_scan {oldest : ConnId} {rest : List ConnId}
    (hsound : Sound maxConnections limiter (.scan stage oldest rest))
    (h : advance limiter (.scan stage oldest rest) = some (limiter', .inl point')) :
    GoesOn maxConnections limiter (.scan stage oldest rest) limiter' point' := by
  obtain ⟨hbounded, hnew, hthere⟩ := hsound
  obtain ⟨oldestEntry, holdest⟩ := hthere oldest List.mem_cons_self
  cases rest with
  | nil =>
      simp only [advance, holdest] at h
      cases h
      have hsize := KeyedMap.size_erase_of_mem (ConnectionLimiter.mem_buckets_of_entry holdest)
      have hle := hbounded.size_le
      refine ⟨⟨⟨hbounded.maxConnections_eq, ?_⟩, ?_, ?_⟩, rfl, by simp [stepsLeft]⟩
      · exact (Nat.le_of_succ_le hsize.le).trans hle
      · by_cases hconn : stage.conn = oldest
        · rw [ConnectionLimiter.entry, hconn]
          exact AList.lookup_erase _ _
        · exact (AList.lookup_erase_ne hconn).trans hnew
      · exact hsize.le.trans hle
  | cons it rest =>
      obtain ⟨entry, hit⟩ := hthere it (.tail _ List.mem_cons_self)
      simp only [advance, hit, holdest] at h
      cases h
      have hbefore : KeyedMap.ranksBefore limiter.buckets (·.lastSeen) it oldest =
          decide (entry.lastSeen < oldestEntry.lastSeen) := by
        have hit' : limiter.buckets.lookup it = some entry := hit
        have holdest' : limiter.buckets.lookup oldest = some oldestEntry := holdest
        rw [KeyedMap.ranksBefore, hit', holdest']
      refine ⟨⟨hbounded, hnew, ?_⟩, ?_, by simp [stepsLeft]⟩
      · intro other hother
        rcases List.mem_cons.mp hother with rfl | hother
        · split
          · exact ⟨entry, hit⟩
          · exact ⟨oldestEntry, holdest⟩
        · exact hthere other (.tail _ (.tail _ hother))
      · simp only [outcome, KeyedMap.scanKeys, List.foldl_cons, hbefore, decide_eq_true_eq]

theorem goesOn_of_emplace (hsound : Sound maxConnections limiter (.emplace stage))
    (h : advance limiter (.emplace stage) = some (limiter', .inl point')) :
    GoesOn maxConnections limiter (.emplace stage) limiter' point' := by
  obtain ⟨hbounded, hnew, hroom⟩ := hsound
  simp only [advance] at h
  cases h
  have hsize := KeyedMap.size_insert_of_notMem (AList.lookup_eq_none.mp hnew)
    (ConnectionLimiter.freshEntry limiter.settings stage.now)
  refine ⟨⟨⟨hbounded.maxConnections_eq, hsize.le.trans hroom⟩, ?_⟩, ?_, by simp [stepsLeft]⟩
  · simp [Knows, ConnectionLimiter.entry]
  · simp [outcome, ConnectionLimiter.settleInto, consumeEntry, ConnectionLimiter.entry,
      AList.insert_insert]

theorem goesOn_of_stamp (hsound : Sound maxConnections limiter (.stamp stage))
    (h : advance limiter (.stamp stage) = some (limiter', .inl point')) :
    GoesOn maxConnections limiter (.stamp stage) limiter' point' := by
  obtain ⟨hbounded, htracked⟩ := hsound
  obtain ⟨entry, hentry⟩ := Option.ne_none_iff_exists'.mp htracked
  simp only [advance, hentry] at h
  cases h
  have hsize := KeyedMap.size_insert_of_mem (ConnectionLimiter.mem_buckets_of_entry hentry)
    { entry with lastSeen := stage.now }
  refine ⟨⟨⟨hbounded.maxConnections_eq, hsize.le.trans hbounded.size_le⟩, ?_⟩, ?_,
    by simp [stepsLeft]⟩
  · exact ⟨{ entry with lastSeen := stage.now }, AList.lookup_insert _, rfl⟩
  · have hinserted : (limiter.buckets.insert stage.conn
        { entry with lastSeen := stage.now }).lookup stage.conn =
        some { entry with lastSeen := stage.now } := AList.lookup_insert _
    have hlookup : limiter.buckets.lookup stage.conn = some entry := hentry
    simp [outcome, ConnectionLimiter.settleInto, consumeEntry, ConnectionLimiter.entry,
      hinserted, hlookup, AList.insert_insert]

theorem goesOn_of_consume (hsound : Sound maxConnections limiter (.consume stage))
    (h : advance limiter (.consume stage) = some (limiter', .inl point')) :
    GoesOn maxConnections limiter (.consume stage) limiter' point' := by
  obtain ⟨hbounded, entry, hentry, hstamped⟩ := hsound
  simp only [advance, hentry] at h
  cases h
  have hsize := KeyedMap.size_insert_of_mem (ConnectionLimiter.mem_buckets_of_entry hentry)
    { entry with bucket :=
        (entry.bucket.tryConsume stage.decision.tokenCost stage.now).2 }
  refine ⟨⟨⟨hbounded.maxConnections_eq, hsize.le.trans hbounded.size_le⟩, trivial⟩, ?_,
    by simp [stepsLeft]⟩
  simp [outcome, ConnectionLimiter.settleInto, consumeEntry, hentry, hstamped]

/-- What a statement of any function does. -/
theorem goesOn_of_advance (hsound : Sound maxConnections limiter point)
    (h : advance limiter point = some (limiter', .inl point')) :
    GoesOn maxConnections limiter point limiter' point' := by
  cases point with
  | find stage => exact goesOn_of_find hsound.bounded h
  | evict stage => exact goesOn_of_evict hsound h
  | scan stage oldest rest => exact goesOn_of_scan hsound h
  | emplace stage => exact goesOn_of_emplace hsound h
  | stamp stage => exact goesOn_of_stamp hsound h
  | consume stage => exact goesOn_of_consume hsound h
  | erase conn =>
      cases h
      have hfewer : (limiter.onDisconnect conn).size ≤ limiter.size :=
        KeyedMap.size_le_of_keys_subset fun k hk => (AList.mem_erase.mp hk).2
      exact ⟨⟨⟨hsound.bounded.maxConnections_eq, hfewer.trans hsound.bounded.size_le⟩, trivial⟩,
        rfl, by simp [stepsLeft]⟩
  | sweep now idleFor =>
      cases h
      have hfewer : (limiter.sweepIdle now idleFor).size ≤ limiter.size :=
        KeyedMap.size_eraseIf_le limiter.buckets _
      exact ⟨⟨⟨hsound.bounded.maxConnections_eq, hfewer.trans hsound.bounded.size_le⟩, trivial⟩,
        rfl, by simp [stepsLeft]⟩
  | count =>
      cases h
      exact ⟨⟨hsound.bounded, trivial⟩, rfl, by simp [stepsLeft]⟩
  | leave answer => cases h

theorem advance_ne_none (hsound : Sound maxConnections limiter point) :
    point.advance limiter ≠ none := by
  cases point with
  | find stage =>
      simp only [advance]
      split
      · exact Option.some_ne_none _
      · split <;> exact Option.some_ne_none _
  | evict stage =>
      simp only [advance]
      split <;> exact Option.some_ne_none _
  | scan stage oldest rest =>
      obtain ⟨-, hthere⟩ := hsound.knows
      obtain ⟨oldestEntry, holdest⟩ := hthere oldest List.mem_cons_self
      cases rest with
      | nil => simp [advance, holdest]
      | cons it rest =>
          obtain ⟨entry, hit⟩ := hthere it (.tail _ List.mem_cons_self)
          simp [advance, hit, holdest]
  | stamp stage =>
      obtain ⟨entry, hentry⟩ := Option.ne_none_iff_exists'.mp hsound.knows
      simp [advance, hentry]
  | consume stage =>
      obtain ⟨entry, hentry, -⟩ := hsound.knows
      simp [advance, hentry]
  | _ => exact Option.some_ne_none _

/-- The lock is only given back at the end of its scope. -/
theorem eq_leave_of_advance {answer : LimiterAnswer}
    (h : advance limiter point = some (limiter', .inr answer)) :
    point = .leave answer ∧ limiter' = limiter := by
  cases point with
  | find stage =>
      simp only [advance] at h
      split at h
      · cases h
      · split at h <;> cases h
  | evict stage =>
      simp only [advance] at h
      split at h <;> cases h
  | scan stage oldest rest =>
      cases rest with
      | nil =>
          simp only [advance] at h
          split at h <;> cases h
      | cons it rest =>
          simp only [advance] at h
          split at h <;> cases h
  | stamp stage =>
      simp only [advance] at h
      split at h <;> cases h
  | consume stage =>
      simp only [advance] at h
      split at h <;> cases h
  | leave answer' =>
      cases h
      exact ⟨rfl, rfl⟩
  | _ => cases h

end LimiterPoint

/-! ## Calls -/

omit [DecidableEq ConnId] in
theorem LimiterOp.prelude_of_stage {call : Call ConnId} (h : call.stage? = some stage) :
    LimiterOp.prelude (.call call) = stage.start := by
  cases call <;> cases h <;> rfl

namespace Call.Stage

/-- Without the lock a call does what `settle` would. -/
theorem settle_of_answer {answer : LimiterAnswer} (h : stage.start = .inl answer)
    (limiter : ConnectionLimiter ConnId) :
    answer = .returned (some (limiter.settle stage.conn stage.decision stage.now).1) ∧
      (limiter.settle stage.conn stage.decision stage.now).2 = limiter := by
  unfold start at h
  split at h
  · rename_i hdropped
    split at h
    · cases h
    · rename_i hfree
      cases h
      simp [ConnectionLimiter.settle, ConnectionLimiter.penalize, hdropped, hfree]
  · cases h

/-- With the lock it does so by the end of its critical section. -/
theorem settle_of_section {point : LimiterPoint ConnId} (h : stage.start = .inr point)
    (limiter : ConnectionLimiter ConnId) :
    point = .find stage ∧ point.outcome limiter =
      (.returned (some (limiter.settle stage.conn stage.decision stage.now).1),
        (limiter.settle stage.conn stage.decision stage.now).2) := by
  have htouch : point = .find stage ∧
      (stage.decision.dropped = true → 0 < stage.decision.tokenCost) := by
    unfold start at h
    split at h
    · split at h
      · rename_i hcost
        cases h
        exact ⟨rfl, fun _ => hcost⟩
      · cases h
    · rename_i hadmitted
      cases h
      exact ⟨rfl, fun hdropped => absurd hdropped hadmitted⟩
  obtain ⟨rfl, htouch⟩ := htouch
  refine ⟨rfl, ?_⟩
  rw [ConnectionLimiter.settle_limiter, if_pos htouch, limiter.touchAndConsume_eq,
    (limiter.settle_self stage.conn stage.decision stage.now).1]
  simp only [LimiterPoint.outcome, ConnectionLimiter.settleInto, settleEntry, settled]
  split <;> rfl

end Call.Stage

omit [DecidableEq ConnId] in
theorem ConnectionLimiter.Bounded.rearranged {arranged : ConnectionLimiter ConnId}
    (h : limiter.Bounded maxConnections) (harranged : limiter.Rearranged arranged) :
    arranged.Bounded maxConnections := by
  refine ⟨harranged.maxConnections_eq.trans h.maxConnections_eq, ?_⟩
  rw [harranged.size_eq, bound, harranged.maxConnections_eq]
  exact h.size_le

theorem limiterOpStep_of_answer {op : LimiterOp ConnId} {answer : LimiterAnswer}
    (h : op.prelude = .inl answer) (limiter : ConnectionLimiter ConnId) :
    LimiterOpStep ⟨limiter, op, answer, limiter⟩ := by
  cases op with
  | size => cases h
  | call call =>
      cases hstage : call.stage? with
      | none =>
          cases call with
          | admitPre spec conn payload now => cases hstage
          | admit_ spec conn visitor now => cases hstage
          | onDisconnect conn => cases h
          | sweepIdle now idleFor => cases h
      | some stage =>
          rw [LimiterOp.prelude_of_stage hstage] at h
          obtain ⟨rfl, hsame⟩ := stage.settle_of_answer h limiter
          refine ⟨_, rfl, limiter, .refl limiter, ?_⟩
          change limiter.exec call = _
          rw [ConnectionLimiter.exec_of_stage hstage, hsame]

theorem limiterOpStep_of_section {op : LimiterOp ConnId} {arranged : ConnectionLimiter ConnId}
    (h : op.prelude = .inr point) (harranged : limiter.Rearranged arranged) :
    point.Knows arranged ∧
      LimiterOpStep ⟨limiter, op, (point.outcome arranged).1, (point.outcome arranged).2⟩ := by
  cases op with
  | size =>
      cases h
      refine ⟨trivial, ?_, harranged⟩
      change LimiterAnswer.counted arranged.size = _
      rw [harranged.size_eq]
  | call call =>
      cases hstage : call.stage? with
      | none =>
          cases call with
          | admitPre spec conn payload now => cases hstage
          | admit_ spec conn visitor now => cases hstage
          | onDisconnect conn =>
              cases h
              exact ⟨trivial, none, rfl, arranged, harranged, rfl⟩
          | sweepIdle now idleFor =>
              cases h
              exact ⟨trivial, none, rfl, arranged, harranged, rfl⟩
      | some stage =>
          rw [LimiterOp.prelude_of_stage hstage] at h
          obtain ⟨rfl, houtcome⟩ := stage.settle_of_section h arranged
          refine ⟨trivial, _, congrArg Prod.fst houtcome, arranged, harranged, ?_⟩
          change arranged.exec call = _
          rw [ConnectionLimiter.exec_of_stage hstage, houtcome]

theorem stepsLeft_of_section {op : LimiterOp ConnId} (h : op.prelude = .inr point)
    (limiter : ConnectionLimiter ConnId) : point.stepsLeft limiter ≤ limiter.size + 7 := by
  cases op with
  | size =>
      cases h
      exact Nat.le_add_left 2 (limiter.size + 5)
  | call call =>
      cases hstage : call.stage? with
      | none =>
          cases call with
          | admitPre spec conn payload now => cases hstage
          | admit_ spec conn visitor now => cases hstage
          | onDisconnect conn =>
              cases h
              exact Nat.le_add_left 2 (limiter.size + 5)
          | sweepIdle now idleFor =>
              cases h
              exact Nat.le_add_left 2 (limiter.size + 5)
      | some stage =>
          rw [LimiterOp.prelude_of_stage hstage] at h
          obtain ⟨rfl, -⟩ := stage.settle_of_section h limiter
          exact Nat.le_refl _

theorem limiterProgram_implements (maxConnections : Nat) :
    (limiterProgram : MonitorProgram _ (LimiterOp ConnId) _ _).Implements LimiterOpStep
      (ConnectionLimiter.Bounded maxConnections)
      (fun limiter point => point.Sound maxConnections limiter)
      (fun limiter point => point.outcome limiter) where
  answers := fun h limiter => limiterOpStep_of_answer h limiter
  enters := fun h hbounded harranged =>
    ⟨⟨hbounded.rearranged harranged, (limiterOpStep_of_section h harranged).1⟩,
      (limiterOpStep_of_section h harranged).2⟩
  advances := fun hsound h =>
    have hgoes := LimiterPoint.goesOn_of_advance hsound h
    ⟨hgoes.sound, hgoes.outcome_eq⟩
  leaves := by
    intro limiter point limiter' answer hsound h
    obtain ⟨rfl, rfl⟩ := LimiterPoint.eq_leave_of_advance h
    exact ⟨hsound.bounded, rfl⟩

/-- A call has at most as many statements under the lock as there may be entries, and
seven. -/
theorem limiterProgram_paced (maxConnections : Nat) :
    (limiterProgram : MonitorProgram _ (LimiterOp ConnId) _ _).Paced
      (ConnectionLimiter.Bounded maxConnections)
      (fun limiter point => point.Sound maxConnections limiter)
      (fun limiter point => point.stepsLeft limiter) (max 1 maxConnections + 7) where
  finds := fun limiter => .refl limiter
  defined := fun hsound => LimiterPoint.advance_ne_none hsound
  bounded := by
    intro op point limiter arranged h hbounded harranged
    have hsize := (hbounded.rearranged harranged).size_le
    rw [ConnectionLimiter.bound, (hbounded.rearranged harranged).maxConnections_eq] at hsize
    have hsteps := stepsLeft_of_section h arranged
    omega
  advances := fun hsound h => (LimiterPoint.goesOn_of_advance hsound h).stepsLeft_lt
  leaves := by
    intro limiter point limiter' answer hsound h
    obtain ⟨rfl, rfl⟩ := LimiterPoint.eq_leave_of_advance h
    exact Nat.one_pos

omit [DecidableEq ConnId] in
theorem ConnectionLimiter.bounded_create (settings : BucketSettings) (maxConnections : Nat) :
    (ConnectionLimiter.create settings maxConnections :
      ConnectionLimiter ConnId).Bounded maxConnections :=
  ⟨rfl, Nat.zero_le _⟩

end Statements

/-! ## Runs -/

/-- A limiter, its mutex, and the threads that use it. -/
abbrev LockedLimiter (ConnId T : Type) :=
  Monitor (ConnectionLimiter ConnId) T (LimiterOp ConnId) LimiterAnswer (LimiterPoint ConnId)

/-- A transition of the limiter with its threads. -/
abbrev LockedTransition (ConnId T : Type) :=
  MonitorTransition (ConnectionLimiter ConnId) T (LimiterOp ConnId) LimiterAnswer
    (LimiterPoint ConnId)

/-- A run of threads that share a limiter. -/
abbrev LockedRun {T : Type} [DecidableEq T] (settings : BucketSettings) (maxConnections : Nat)
    (trace : List (LockedTransition ConnId T)) (m : LockedLimiter ConnId T) : Prop :=
  MonitorRun limiterProgram (.fresh (.create settings maxConnections)) trace m

/-- Two threads that compete for one place: the second asks for the lock while the first
holds it, and its call evicts what the first has created. -/
def evictingMoves : List (Bool × Option (LimiterOp Nat)) :=
  [(false, some (.call (.admitPre (.flat 8 1) 1 .empty 5))),
    (true, some (.call (.admitPre (.flat 8 1) 2 .empty 4))), (false, none), (true, none)] ++
    List.replicate 6 (false, none) ++ List.replicate 9 (true, none) ++
    [(true, none), (false, none)]

theorem exists_evicting_run :
    ∃ (trace : List (LockedTransition Nat Bool)) (m : LockedLimiter Nat Bool),
      LockedRun ⟨10, 1⟩ 1 trace m ∧ trace.map (·.label) = evictingMoves.map (·.1) := by
  have hmoves : (Monitor.moves limiterProgram
      (.fresh (ConnectionLimiter.create ⟨10, 1⟩ 1)) evictingMoves).isSome := by decide +kernel
  obtain ⟨m, hmoved⟩ := Option.isSome_iff_exists.mp hmoves
  obtain ⟨trace, hrun, hlabels, -⟩ := Monitor.exists_run ConnectionLimiter.Rearranged.refl hmoved
  exact ⟨trace, m, hrun, hlabels⟩

section Threads

variable {T : Type} [DecidableEq T]

/-- Threads that share a limiter see it decide as if it served one call after another, in an
order that agrees with their own. -/
theorem lockedLimiter_linearizable (settings : BucketSettings) (maxConnections : Nat)
    (trace : List (LockedTransition ConnId T)) (m : LockedLimiter ConnId T)
    (hrun : LockedRun settings maxConnections trace m) :
    Linearizable LimiterOpStep (.create settings maxConnections) (historyOf trace) :=
  Monitor.linearizable (limiterProgram_implements maxConnections)
    (ConnectionLimiter.bounded_create settings maxConnections) hrun

theorem evicting_linearizable :
    ∃ (trace : List (LockedTransition Nat Bool)) (m : LockedLimiter Nat Bool),
      LockedRun ⟨10, 1⟩ 1 trace m ∧ trace.map (·.label) = evictingMoves.map (·.1) ∧
        Linearizable LimiterOpStep (.create ⟨10, 1⟩ 1) (historyOf trace) := by
  obtain ⟨trace, m, hrun, hlabels⟩ := exists_evicting_run
  exact ⟨trace, m, hrun, hlabels, lockedLimiter_linearizable ⟨10, 1⟩ 1 trace m hrun⟩

/-- At every moment, in the middle of calls too, the map is within its bound, at most one
thread is under the lock, and every iterator it uses is valid. -/
theorem lockedLimiter_safe (settings : BucketSettings) (maxConnections : Nat)
    (trace : List (LockedTransition ConnId T)) (m : LockedLimiter ConnId T)
    (hrun : LockedRun settings maxConnections trace m) :
    m.object.size ≤ max 1 maxConnections ∧
      (∀ thread thread' point point', m.point thread = .inside point →
        m.point thread' = .inside point' → thread = thread') ∧
      ∀ thread point, m.point thread = .inside point → point.advance m.object ≠ none := by
  have hsound := (Monitor.refines (limiterProgram_implements maxConnections)).invariant
    (Monitor.Sound.fresh (ConnectionLimiter.bounded_create settings maxConnections)) hrun
  have hbounded : m.object.Bounded maxConnections :=
    hsound.always (fun _ hbounded => hbounded) (fun _ _ hknown => hknown.bounded)
  refine ⟨?_, ?_, ?_⟩
  · have hsize := hbounded.size_le
    rwa [ConnectionLimiter.bound, hbounded.maxConnections_eq] at hsize
  · intro thread thread' point point' hpoint hpoint'
    exact hsound.inside_unique hpoint hpoint'
  · intro thread point hpoint
    exact LimiterPoint.advance_ne_none (hsound.known hpoint)

theorem evicting_safe :
    ∃ (trace : List (LockedTransition Nat Bool)) (m : LockedLimiter Nat Bool),
      LockedRun ⟨10, 1⟩ 1 trace m ∧ trace.map (·.label) = evictingMoves.map (·.1) ∧
        m.object.size ≤ 1 := by
  obtain ⟨trace, m, hrun, hlabels⟩ := exists_evicting_run
  exact ⟨trace, m, hrun, hlabels, (lockedLimiter_safe ⟨10, 1⟩ 1 trace m hrun).1⟩

/-- While a call is not answered some thread in a call can move, and the threads make only
so many moves for each call. -/
theorem lockedLimiter_progress [Fintype T] (settings : BucketSettings) (maxConnections : Nat)
    (trace : List (LockedTransition ConnId T)) (m : LockedLimiter ConnId T)
    (hrun : LockedRun settings maxConnections trace m) :
    trace.length ≤
        (max 1 maxConnections + 11) * (historyOf trace).countP CallEvent.isInvoke ∧
      ((∃ thread, m.point thread ≠ .idle) → ∃ thread event m', m.point thread ≠ .idle ∧
        MonitorMoves limiterProgram m thread event m') := by
  have himplements := @limiterProgram_implements ConnId _ maxConnections
  have hpaced := @limiterProgram_paced ConnId _ maxConnections
  have hcreated := @ConnectionLimiter.bounded_create ConnId settings maxConnections
  have hsound := (Monitor.refines himplements).invariant (Monitor.Sound.fresh hcreated) hrun
  exact ⟨Monitor.length_le himplements hpaced hcreated hrun, hsound.exists_moves hpaced⟩

theorem evicting_progress :
    ∃ (trace : List (LockedTransition Nat Bool)) (m : LockedLimiter Nat Bool),
      LockedRun ⟨10, 1⟩ 1 trace m ∧ trace.map (·.label) = evictingMoves.map (·.1) ∧
        trace.length ≤ 12 * (historyOf trace).countP CallEvent.isInvoke := by
  obtain ⟨trace, m, hrun, hlabels⟩ := exists_evicting_run
  exact ⟨trace, m, hrun, hlabels, (lockedLimiter_progress ⟨10, 1⟩ 1 trace m hrun).1⟩

end Threads

end RpcSpec.Admission
