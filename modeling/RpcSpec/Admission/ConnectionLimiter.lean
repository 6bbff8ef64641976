import RpcSpec.Admission.AdmissionSpec
import RpcSpec.Admission.TokenBucket
import RpcSpec.Foundation.KeyedMap
import RpcSpec.Foundation.Transition
set_option autoImplicit false

/-!
# The connection limiter (`admissionspec/ConnectionLimiter.hpp`)

One token bucket a connection, in a map with a bound on its entries.  Each member
function of the class is a function on the state of the limiter, and `step` is
one call of any of them.

`std::unordered_map` promises no iteration order.  The map here has one, and
before every call the entries may stand in any other (`Rearranged`): what is
proved about runs holds for every hash function and every rehash.
-/

namespace RpcSpec.Admission

open RpcSpec.Foundation

/-- The private `BucketEntry` of the limiter. -/
structure BucketEntry where
  bucket : TokenBucket
  lastSeen : TimePoint
  deriving DecidableEq

/-- `ConnectionLimiter<ConnId>`. -/
structure ConnectionLimiter (ConnId : Type) where
  settings : BucketSettings
  maxConnections : Nat
  buckets : KeyedMap ConnId BucketEntry

variable {ConnId : Type} [DecidableEq ConnId]

namespace ConnectionLimiter

/-- `ConnectionLimiter{settings, maxConnections}`. -/
def create (settings : BucketSettings) (maxConnections : Nat) : ConnectionLimiter ConnId :=
  ⟨settings, maxConnections, ∅⟩

/-- The number of currently tracked connections. -/
def size (limiter : ConnectionLimiter ConnId) : Nat := KeyedMap.size limiter.buckets

/-- The entry of a connection, if it is tracked. -/
def entry (limiter : ConnectionLimiter ConnId) (conn : ConnId) : Option BucketEntry :=
  limiter.buckets.lookup conn

theorem mem_buckets_of_entry {limiter : ConnectionLimiter ConnId} {conn : ConnId}
    {e : BucketEntry} (h : limiter.entry conn = some e) : conn ∈ limiter.buckets :=
  AList.lookup_isSome.mp (Option.isSome_of_eq_some h)

/-! ## Private members -/

/-- The entry `touchBucket` creates. -/
def freshEntry (settings : BucketSettings) (now : TimePoint) : BucketEntry :=
  ⟨.create settings.capacity settings.refillRatePerSecond now, now⟩

/-- `evictOldest`: the entry seen least recently goes. -/
def evictOldest (buckets : KeyedMap ConnId BucketEntry) : KeyedMap ConnId BucketEntry :=
  match KeyedMap.least? buckets (·.lastSeen) with
  | none => buckets
  | some oldest => buckets.erase oldest.1

/-- `touchBucket(buckets, conn, now)`: the map afterwards and the entry the
returned iterator points at. -/
def touchBucket (limiter : ConnectionLimiter ConnId) (conn : ConnId) (now : TimePoint) :
    KeyedMap ConnId BucketEntry × BucketEntry :=
  match limiter.entry conn with
  | none =>
      let buckets :=
        if limiter.size ≥ limiter.maxConnections then evictOldest limiter.buckets
        else limiter.buckets
      let entry := { freshEntry limiter.settings now with lastSeen := now }
      (buckets.insert conn entry, entry)
  | some entry =>
      let entry := { entry with lastSeen := now }
      (limiter.buckets.insert conn entry, entry)

/-- `touchBucket` and `tryConsume` on the entry it returns, the part `charge` and
`penalize` have in common. -/
def touchAndConsume (limiter : ConnectionLimiter ConnId) (conn : ConnId) (cost : ℚ)
    (now : TimePoint) : Bool × ConnectionLimiter ConnId :=
  let (buckets, entry) := limiter.touchBucket conn now
  let (ok, bucket) := entry.bucket.tryConsume cost now
  (ok, { limiter with buckets := buckets.insert conn { entry with bucket := bucket } })

/-- `charge`: the cost is taken only when the bucket grants it. -/
def charge (limiter : ConnectionLimiter ConnId) (conn : ConnId)
    (decision : AdmissionDecision) (now : TimePoint) :
    AdmissionDecision × ConnectionLimiter ConnId :=
  let (ok, limiter') := limiter.touchAndConsume conn decision.tokenCost now
  if ok then (.admit_ decision.tokenCost, limiter')
  else (.drop "connection rate limit exceeded" 0, limiter')

/-- `penalize`: a drop with a cost is charged if the bucket grants it, and stays a drop. -/
def penalize (limiter : ConnectionLimiter ConnId) (conn : ConnId)
    (decision : AdmissionDecision) (now : TimePoint) :
    AdmissionDecision × ConnectionLimiter ConnId :=
  if decision.tokenCost > 0 then
    (decision, (limiter.touchAndConsume conn decision.tokenCost now).2)
  else (decision, limiter)

/-! ## Public members -/

/-- The tail `admitPre` and `admit` share: penalize a drop, charge an admit. -/
def settle (limiter : ConnectionLimiter ConnId) (conn : ConnId)
    (decision : AdmissionDecision) (now : TimePoint) :
    AdmissionDecision × ConnectionLimiter ConnId :=
  if decision.dropped then limiter.penalize conn decision now
  else limiter.charge conn decision now

/-- `admitPre<T>(conn, payload, now)`, with `spec` the spec of `T`. -/
def admitPre (limiter : ConnectionLimiter ConnId) (spec : AdmissionSpec) (conn : ConnId)
    (payload : ByteSpan) (now : TimePoint) : AdmissionDecision × ConnectionLimiter ConnId :=
  let decision := spec.preAdmit payload spec.resolved
  limiter.settle conn decision now

/-- `admit<T>(conn, visitor, now)`: the checker is made afresh for this message. -/
def admit_ (limiter : ConnectionLimiter ConnId) (spec : AdmissionSpec) (conn : ConnId)
    (visitor : Visitor spec.State) (now : TimePoint) :
    AdmissionDecision × ConnectionLimiter ConnId :=
  let check := spec.makeChecker spec.resolved
  let decision := visitor check spec.initial
  limiter.settle conn decision now

/-- `onDisconnect`: the connection's entry is erased. -/
def onDisconnect (limiter : ConnectionLimiter ConnId) (conn : ConnId) :
    ConnectionLimiter ConnId :=
  { limiter with buckets := limiter.buckets.erase conn }

/-- `sweepIdle`: entries not seen for `idleFor` are erased. -/
def sweepIdle (limiter : ConnectionLimiter ConnId) (now : TimePoint) (idleFor : ℚ) :
    ConnectionLimiter ConnId :=
  { limiter with
    buckets := KeyedMap.eraseIf limiter.buckets
      (fun entry => decide (now - entry.lastSeen ≥ idleFor)) }

end ConnectionLimiter

/-! ## Calls -/

/-- A call of a public member function. -/
inductive Call (ConnId : Type) : Type 1 where
  | admitPre (spec : AdmissionSpec) (conn : ConnId) (payload : ByteSpan) (now : TimePoint)
  | admit_ (spec : AdmissionSpec) (conn : ConnId) (visitor : Visitor spec.State)
      (now : TimePoint)
  | onDisconnect (conn : ConnId)
  | sweepIdle (now : TimePoint) (idleFor : ℚ)

namespace Call

/-- The connection a call is about; a sweep is about none in particular. -/
def conn? : Call ConnId → Option ConnId
  | .admitPre _ conn _ _ => some conn
  | .admit_ _ conn _ _ => some conn
  | .onDisconnect conn => some conn
  | .sweepIdle _ _ => none

/-- The time stamp of a call. -/
def now? : Call ConnId → Option TimePoint
  | .admitPre _ _ _ now => some now
  | .admit_ _ _ _ now => some now
  | .onDisconnect _ => none
  | .sweepIdle now _ => some now

/-- An admission: the connection, the decision of the stage, and the time. -/
structure Stage (ConnId : Type) where
  conn : ConnId
  decision : AdmissionDecision
  now : TimePoint

/-- What the stage of an `admitPre` or `admit` decides before the bucket is
asked. -/
def stage? : Call ConnId → Option (Stage ConnId)
  | .admitPre spec conn payload now =>
      some ⟨conn, spec.preAdmit payload spec.resolved, now⟩
  | .admit_ spec conn visitor now =>
      some ⟨conn, visitor (spec.makeChecker spec.resolved) spec.initial, now⟩
  | .onDisconnect _ => none
  | .sweepIdle _ _ => none

omit [DecidableEq ConnId] in
theorem conn?_of_stage {call : Call ConnId} {stage : Stage ConnId}
    (h : call.stage? = some stage) : call.conn? = some stage.conn := by
  cases call <;> cases h <;> rfl

/-- The admission a call makes on the connection `c`. -/
def stageOf? (c : ConnId) (call : Call ConnId) : Option (Stage ConnId) :=
  call.stage?.filter (fun stage => stage.conn = c)

theorem stageOf?_eq_some {c : ConnId} {call : Call ConnId} {stage : Stage ConnId} :
    call.stageOf? c = some stage ↔ call.stage? = some stage ∧ stage.conn = c := by
  simp [stageOf?, Option.filter_eq_some_iff]

end Call

namespace ConnectionLimiter

/-- Carry out a call: the decision it returns, if any, and the state after it. -/
def exec (limiter : ConnectionLimiter ConnId) :
    Call ConnId → Option AdmissionDecision × ConnectionLimiter ConnId
  | .admitPre spec conn payload now =>
      let (decision, limiter') := limiter.admitPre spec conn payload now
      (some decision, limiter')
  | .admit_ spec conn visitor now =>
      let (decision, limiter') := limiter.admit_ spec conn visitor now
      (some decision, limiter')
  | .onDisconnect conn => (none, limiter.onDisconnect conn)
  | .sweepIdle now idleFor => (none, limiter.sweepIdle now idleFor)

/-- An admission does with the decision of its stage what `settle` does. -/
theorem exec_of_stage {limiter : ConnectionLimiter ConnId} {call : Call ConnId}
    {stage : Call.Stage ConnId} (h : call.stage? = some stage) :
    limiter.exec call =
      (some (limiter.settle stage.conn stage.decision stage.now).1,
        (limiter.settle stage.conn stage.decision stage.now).2) := by
  cases call <;> cases h <;> rfl

/-- The same limiter with its map in another iteration order. -/
structure Rearranged (limiter limiter' : ConnectionLimiter ConnId) : Prop where
  settings_eq : limiter'.settings = limiter.settings
  maxConnections_eq : limiter'.maxConnections = limiter.maxConnections
  entries_perm : limiter.buckets.entries.Perm limiter'.buckets.entries

omit [DecidableEq ConnId] in
theorem Rearranged.refl (limiter : ConnectionLimiter ConnId) : limiter.Rearranged limiter :=
  ⟨rfl, rfl, List.Perm.refl _⟩

theorem Rearranged.entry_eq {limiter limiter' : ConnectionLimiter ConnId}
    (h : limiter.Rearranged limiter') (conn : ConnId) :
    limiter'.entry conn = limiter.entry conn :=
  (AList.perm_lookup h.entries_perm).symm

omit [DecidableEq ConnId] in
theorem Rearranged.size_eq {limiter limiter' : ConnectionLimiter ConnId}
    (h : limiter.Rearranged limiter') : limiter'.size = limiter.size :=
  (KeyedMap.size_perm h.entries_perm).symm

end ConnectionLimiter

/-- A transition of the limiter. -/
abbrev LimiterTransition (ConnId : Type) :=
  Transition (ConnectionLimiter ConnId) (Call ConnId) (Option AdmissionDecision)

/-- One call, the entries of the map standing in any order. -/
def LimiterStep (t : LimiterTransition ConnId) : Prop :=
  ∃ arranged, t.source.Rearranged arranged ∧ arranged.exec t.label = (t.output, t.target)

/-- A run of the limiter. -/
abbrev LimiterRun (limiter : ConnectionLimiter ConnId)
    (trace : List (LimiterTransition ConnId)) (limiter' : ConnectionLimiter ConnId) : Prop :=
  Run LimiterStep limiter trace limiter'

namespace ConnectionLimiter

/-- The run that carries out these calls with the map as it stands. -/
def trace (limiter : ConnectionLimiter ConnId) :
    List (Call ConnId) → List (LimiterTransition ConnId)
  | [] => []
  | call :: calls =>
      ⟨limiter, call, (limiter.exec call).1, (limiter.exec call).2⟩ ::
        (limiter.exec call).2.trace calls

/-- The limiter after these calls. -/
def execAll (limiter : ConnectionLimiter ConnId) (calls : List (Call ConnId)) :
    ConnectionLimiter ConnId :=
  calls.foldl (fun limiter call => (limiter.exec call).2) limiter

theorem trace_run (limiter : ConnectionLimiter ConnId) (calls : List (Call ConnId)) :
    LimiterRun limiter (limiter.trace calls) (limiter.execAll calls) := by
  induction calls generalizing limiter with
  | nil => exact .nil limiter
  | cons call calls ih => exact Run.cons_iff.mpr ⟨rfl, ⟨limiter, .refl limiter, rfl⟩, ih _⟩

end ConnectionLimiter

end RpcSpec.Admission
