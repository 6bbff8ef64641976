import RpcSpec.Foundation.Linearization
import Mathlib.Algebra.Module.NatInt
import Mathlib.Algebra.Order.BigOperators.Group.Finset
import Mathlib.Data.Fintype.Card
import Mathlib.Tactic.Ring
set_option autoImplicit false

/-!
# Objects under a lock

Threads call the operations of one object.  An operation does something of its own first,
and then at most one critical section, of any number of steps, for which it holds the lock
of the object.  The lock may be given to any thread that waits for it.

What a critical section will have done by its end is known when it begins, for nobody else
touches the object.  So its call may be said to take effect there, and the object under the
lock has the histories of one that does a call in one step.
-/

namespace RpcSpec.Foundation

universe u v w x y

/-! ## Programs -/

/-- Where a thread is with its call; `P` are the points of the critical sections. -/
inductive MonitorPoint (Op : Type v) (R : Type w) (P : Type y) where
  | idle
  | called (op : Op)
  /-- Asks for the lock, to start its critical section at this point. -/
  | waiting (op : Op) (point : P)
  /-- Holds the lock. -/
  | inside (point : P)
  | returning (result : R)

/-- The operations of an object as threads run them. -/
structure MonitorProgram (S : Type x) (Op : Type v) (R : Type w) (P : Type y) where
  /-- What is done before the lock is asked for leads to the result, or to where the
  critical section starts. -/
  prelude : Op → R ⊕ P
  /-- A step under the lock, to another point or out of it with the result.  There is none
  where the behaviour is undefined. -/
  advance : S → P → Option (S × (P ⊕ R))
  /-- What the object may be found as, after it was left. -/
  rearranged : S → S → Prop

/-- The object, the lock, and where the threads are. -/
structure Monitor (S : Type x) (T : Type u) (Op : Type v) (R : Type w) (P : Type y) where
  object : S
  holder : Option T
  point : T → MonitorPoint Op R P

namespace Monitor

variable {S : Type x} {T : Type u} {Op : Type v} {R : Type w} {P : Type y}

/-- An object nobody uses. -/
def fresh (object : S) : Monitor S T Op R P := ⟨object, none, fun _ => .idle⟩

variable [DecidableEq T]

/-- One thread moves on, with object and lock as they were. -/
def goTo (m : Monitor S T Op R P) (thread : T) (point : MonitorPoint Op R P) :
    Monitor S T Op R P :=
  { m with point := Function.update m.point thread point }

/-- The thread that is inside, or gets there, goes on. -/
def proceed (m : Monitor S T Op R P) (thread : T) (object : S) (holder : Option T)
    (point : MonitorPoint Op R P) : Monitor S T Op R P :=
  ⟨object, holder, Function.update m.point thread point⟩

end Monitor

section Steps

variable {S : Type x} {T : Type u} {Op : Type v} {R : Type w} {P : Type y} [DecidableEq T]

/-- A thread makes a move. -/
inductive MonitorMoves (program : MonitorProgram S Op R P) (m : Monitor S T Op R P) (thread : T) :
    Option (CallEvent T Op R) → Monitor S T Op R P → Prop
  | invoke (op : Op) (hpoint : m.point thread = .idle) :
      MonitorMoves program m thread (some (.invoke thread op)) (m.goTo thread (.called op))
  | answer {op : Op} {result : R} (hpoint : m.point thread = .called op)
      (hprelude : program.prelude op = .inl result) :
      MonitorMoves program m thread none (m.goTo thread (.returning result))
  | ask {op : Op} {point : P} (hpoint : m.point thread = .called op)
      (hprelude : program.prelude op = .inr point) :
      MonitorMoves program m thread none (m.goTo thread (.waiting op point))
  | acquire {op : Op} {point : P} {object : S} (hpoint : m.point thread = .waiting op point)
      (hfree : m.holder = none) (hobject : program.rearranged m.object object) :
      MonitorMoves program m thread none
        (m.proceed thread object (some thread) (.inside point))
  | advance {point point' : P} {object : S} (hpoint : m.point thread = .inside point)
      (hadvance : program.advance m.object point = some (object, .inl point')) :
      MonitorMoves program m thread none
        (m.proceed thread object (some thread) (.inside point'))
  | release {point : P} {object : S} {result : R} (hpoint : m.point thread = .inside point)
      (hadvance : program.advance m.object point = some (object, .inr result)) :
      MonitorMoves program m thread none
        (m.proceed thread object none (.returning result))
  | respond {result : R} (hpoint : m.point thread = .returning result) :
      MonitorMoves program m thread (some (.respond thread result)) (m.goTo thread .idle)

/-- A transition of the object with the threads, labelled by the thread that moves. -/
abbrev MonitorTransition (S : Type x) (T : Type u) (Op : Type v) (R : Type w) (P : Type y) :=
  Transition (Monitor S T Op R P) T (Option (CallEvent T Op R))

/-- One move of one thread. -/
def MonitorStep (program : MonitorProgram S Op R P) (t : MonitorTransition S T Op R P) : Prop :=
  MonitorMoves program t.source t.label t.output t.target

/-- A run of the threads, in any interleaving. -/
abbrev MonitorRun (program : MonitorProgram S Op R P) (m : Monitor S T Op R P)
    (trace : List (MonitorTransition S T Op R P)) (m' : Monitor S T Op R P) : Prop :=
  Run (MonitorStep program) m trace m'

end Steps

/-! ## Schedules -/

section Schedules

variable {S : Type x} {T : Type u} {Op : Type v} {R : Type w} {P : Type y} [DecidableEq T]

/-- The move of a thread, if it can make one, when the object is found as it was left; a
thread outside makes the call. -/
def Monitor.move (program : MonitorProgram S Op R P) (m : Monitor S T Op R P) (thread : T)
    (call : Option Op) : Option (Option (CallEvent T Op R) × Monitor S T Op R P) :=
  match m.point thread with
  | .idle => call.map fun op => (some (.invoke thread op), m.goTo thread (.called op))
  | .called op =>
      match program.prelude op with
      | .inl result => some (none, m.goTo thread (.returning result))
      | .inr point => some (none, m.goTo thread (.waiting op point))
  | .waiting _ point =>
      match m.holder with
      | none => some (none, m.proceed thread m.object (some thread) (.inside point))
      | some _ => none
  | .inside point =>
      match program.advance m.object point with
      | none => none
      | some (object, .inl point') =>
          some (none, m.proceed thread object (some thread) (.inside point'))
      | some (object, .inr result) =>
          some (none, m.proceed thread object none (.returning result))
  | .returning result => some (some (.respond thread result), m.goTo thread .idle)

/-- Moves of these threads in this order. -/
def Monitor.moves (program : MonitorProgram S Op R P) (m : Monitor S T Op R P) :
    List (T × Option Op) → Option (Monitor S T Op R P)
  | [] => some m
  | (thread, call) :: rest => (m.move program thread call).bind fun moved =>
      moved.2.moves program rest

theorem MonitorMoves.of_move {program : MonitorProgram S Op R P}
    (hfinds : ∀ s, program.rearranged s s) {m m' : Monitor S T Op R P} {thread : T}
    {call : Option Op} {event : Option (CallEvent T Op R)}
    (h : m.move program thread call = some (event, m')) :
    MonitorMoves program m thread event m' := by
  unfold Monitor.move at h
  split at h
  · rename_i hpoint
    obtain ⟨op, rfl, hmoved⟩ := Option.map_eq_some_iff.mp h
    cases hmoved
    exact .invoke op hpoint
  · rename_i op hpoint
    split at h
    · rename_i hprelude
      cases h
      exact .answer hpoint hprelude
    · rename_i hprelude
      cases h
      exact .ask hpoint hprelude
  · rename_i hpoint
    split at h
    · rename_i hfree
      cases h
      exact .acquire hpoint hfree (hfinds m.object)
    · cases h
  · rename_i hpoint
    split at h
    · cases h
    · rename_i hadvance
      cases h
      exact .advance hpoint hadvance
    · rename_i hadvance
      cases h
      exact .release hpoint hadvance
  · rename_i hpoint
    cases h
    exact .respond hpoint

/-- A thread makes the call it is given. -/
theorem Monitor.call_of_move {program : MonitorProgram S Op R P} {m m' : Monitor S T Op R P}
    {thread caller : T} {call : Option Op} {op : Op}
    (h : m.move program thread call = some (some (.invoke caller op), m')) : call = some op := by
  unfold Monitor.move at h
  split at h
  · obtain ⟨op', rfl, hmoved⟩ := Option.map_eq_some_iff.mp h
    cases hmoved
    rfl
  · split at h <;> cases h
  · split at h <;> cases h
  · split at h <;> cases h
  · cases h

theorem Monitor.exists_run {program : MonitorProgram S Op R P}
    (hfinds : ∀ s, program.rearranged s s) {labels : List (T × Option Op)} :
    ∀ {m m' : Monitor S T Op R P}, m.moves program labels = some m' →
      ∃ trace, MonitorRun program m trace m' ∧ trace.map (·.label) = labels.map (·.1) ∧
        ∀ thread op, .invoke thread op ∈ historyOf trace → some op ∈ labels.map (·.2) := by
  induction labels with
  | nil =>
      intro m m' h
      cases h
      exact ⟨[], .nil _, rfl, fun _ _ hevent => (by cases hevent)⟩
  | cons label rest ih =>
      intro m m' h
      obtain ⟨⟨event, mid⟩, hmove, hrest⟩ := Option.bind_eq_some_iff.mp h
      obtain ⟨trace, hrun, hlabels, hcalls⟩ := ih hrest
      refine ⟨⟨m, label.1, event, mid⟩ :: trace,
        Run.cons_iff.mpr ⟨rfl, .of_move hfinds hmove, hrun⟩, by rw [List.map_cons, hlabels]; rfl,
        fun thread op hevent => ?_⟩
      obtain ⟨t, ht, houtput⟩ := List.mem_filterMap.mp hevent
      rcases List.mem_cons.mp ht with rfl | ht
      · rw [show event = _ from houtput] at hmove
        rw [List.map_cons, Monitor.call_of_move hmove]
        exact List.mem_cons_self
      · exact List.mem_cons_of_mem _ (hcalls thread op (List.mem_filterMap.mpr ⟨t, ht, houtput⟩))

end Schedules

/-! ## Programs that do what they should -/

section Implements

variable {S : Type x} {Op : Type v} {R : Type w} {P : Type y}

/-- The program does to the object what `step` says, with `outcome` what the rest of a
critical section amounts to; `I` holds of the object while nobody uses it, and `K` at the
points of the critical sections. -/
structure MonitorProgram.Implements (program : MonitorProgram S Op R P)
    (step : Transition S Op R → Prop) (I : S → Prop) (K : S → P → Prop)
    (outcome : S → P → R × S) : Prop where
  answers : ∀ {op result}, program.prelude op = .inl result → ∀ s, step ⟨s, op, result, s⟩
  enters : ∀ {op point s s'}, program.prelude op = .inr point → I s → program.rearranged s s' →
    K s' point ∧ step ⟨s, op, (outcome s' point).1, (outcome s' point).2⟩
  advances : ∀ {s point s' point'}, K s point → program.advance s point = some (s', .inl point') →
    K s' point' ∧ outcome s' point' = outcome s point
  leaves : ∀ {s point s' result}, K s point → program.advance s point = some (s', .inr result) →
    I s' ∧ outcome s point = (result, s')

end Implements

section Sound

variable {S : Type x} {T : Type u} {Op : Type v} {R : Type w} {P : Type y} [DecidableEq T]

namespace MonitorPoint

/-- The point of its critical section a thread is at. -/
def inside? : MonitorPoint Op R P → Option P
  | .inside point => some point
  | _ => none

/-- The call of a thread takes effect when it gets the lock. -/
def phase (outcome : P → R) : MonitorPoint Op R P → CallPhase Op R
  | .idle => .idle
  | .called op | .waiting op _ => .pending op
  | .inside point => .done (outcome point)
  | .returning result => .done result

theorem inside?_eq_some {point : MonitorPoint Op R P} {p : P} :
    point.inside? = some p ↔ point = .inside p := by
  cases point <;> simp [inside?]

theorem phase_congr {outcome outcome' : P → R} {point : MonitorPoint Op R P}
    (h : point.inside? = none) : point.phase outcome = point.phase outcome' := by
  cases point with
  | inside p => cases h
  | _ => rfl

end MonitorPoint

/-- Only the thread that holds the lock is inside. -/
structure Monitor.Sound (program : MonitorProgram S Op R P) (I : S → Prop) (K : S → P → Prop)
    (m : Monitor S T Op R P) : Prop where
  inside_iff : ∀ thread, (m.point thread).inside?.isSome ↔ m.holder = some thread
  asked : ∀ {thread op point}, m.point thread = .waiting op point →
    program.prelude op = .inr point
  free : m.holder = none → I m.object
  known : ∀ {thread point}, m.point thread = .inside point → K m.object point

/-- The object with the lock as one that does a call in one step: as the thread inside
will have left it. -/
def Monitor.view (outcome : S → P → R × S) (m : Monitor S T Op R P) : AtomicObject S T Op R where
  state :=
    match m.holder.bind fun thread => (m.point thread).inside? with
    | some point => (outcome m.object point).2
    | none => m.object
  phase := fun thread => (m.point thread).phase fun point => (outcome m.object point).1

variable {program : MonitorProgram S Op R P} {step : Transition S Op R → Prop} {I : S → Prop}
  {K : S → P → Prop} {outcome : S → P → R × S} {m m' : Monitor S T Op R P} {thread : T}
  {event : Option (CallEvent T Op R)}

namespace Monitor

theorem goTo_point_ne (m : Monitor S T Op R P) {other : T} (h : other ≠ thread)
    (point : MonitorPoint Op R P) : (m.goTo thread point).point other = m.point other :=
  Function.update_of_ne h ..

@[simp] theorem goTo_point_self (m : Monitor S T Op R P) (point : MonitorPoint Op R P) :
    (m.goTo thread point).point thread = point := Function.update_self ..

/-! ### Outside -/

/-- A move from one point outside to another. -/
theorem Sound.goTo (h : m.Sound program I K) (hfrom : (m.point thread).inside? = none)
    {point : MonitorPoint Op R P} (hto : point.inside? = none)
    (hasked : ∀ op p, point = .waiting op p → program.prelude op = .inr p) :
    (m.goTo thread point).Sound program I K where
  inside_iff := by
    intro other
    by_cases hother : other = thread
    · subst hother
      have hnot := h.inside_iff other
      rw [hfrom] at hnot
      rwa [goTo_point_self, hto]
    · rw [goTo_point_ne m hother]
      exact h.inside_iff other
  asked := by
    intro other op p hwaiting
    by_cases hother : other = thread
    · subst hother
      exact hasked op p (by rwa [goTo_point_self] at hwaiting)
    · exact h.asked (by rwa [goTo_point_ne m hother] at hwaiting)
  free := h.free
  known := by
    intro other p hinside
    by_cases hother : other = thread
    · subst hother
      rw [goTo_point_self] at hinside
      rw [hinside] at hto
      cases hto
    · exact h.known (by rwa [goTo_point_ne m hother] at hinside)

/-- Nobody else sees it. -/
theorem view_goTo (outcome : S → P → R × S) (hfrom : (m.point thread).inside? = none)
    {point : MonitorPoint Op R P} (hto : point.inside? = none) :
    (m.goTo thread point).view outcome = ⟨(m.view outcome).state,
      Function.update (m.view outcome).phase thread
        (point.phase fun p => (outcome m.object p).1)⟩ := by
  have hsame : ((m.goTo thread point).holder.bind fun other =>
      ((m.goTo thread point).point other).inside?) =
        m.holder.bind fun other => (m.point other).inside? := by
    refine congrArg (Option.bind m.holder) (funext fun other => ?_)
    by_cases hother : other = thread
    · subst hother
      rw [goTo_point_self, hfrom, hto]
    · rw [goTo_point_ne m hother]
  unfold view
  rw [hsame]
  refine congrArg _ (funext fun other => ?_)
  by_cases hother : other = thread
  · subst hother
    rw [goTo_point_self, Function.update_self]
    rfl
  · rw [goTo_point_ne m hother, Function.update_of_ne hother]
    rfl

/-! ### Inside -/

theorem proceed_point_ne (m : Monitor S T Op R P) {other : T} (h : other ≠ thread) {object : S}
    {holder : Option T} {point : MonitorPoint Op R P} :
    (m.proceed thread object holder point).point other = m.point other :=
  Function.update_of_ne h ..

@[simp] theorem proceed_point_self (m : Monitor S T Op R P) {object : S} {holder : Option T}
    {point : MonitorPoint Op R P} :
    (m.proceed thread object holder point).point thread = point := Function.update_self ..

/-- Everybody but this thread is outside. -/
def OnlyInside (m : Monitor S T Op R P) (thread : T) : Prop :=
  ∀ other, other ≠ thread → (m.point other).inside? = none

omit [DecidableEq T] in
theorem Sound.onlyInside (h : m.Sound program I K) (hthread : m.holder = some thread) :
    m.OnlyInside thread := by
  intro other hother
  rw [← Option.not_isSome_iff_eq_none, h.inside_iff, hthread]
  rintro ⟨⟩
  exact hother rfl

omit [DecidableEq T] in
theorem Sound.onlyInside_of_free (h : m.Sound program I K) (hfree : m.holder = none)
    (thread : T) : m.OnlyInside thread := by
  intro other _
  rw [← Option.not_isSome_iff_eq_none, h.inside_iff, hfree]
  exact fun h => by cases h

omit [DecidableEq T] in
theorem Sound.holder_of_inside (h : m.Sound program I K) {point : P}
    (hpoint : m.point thread = .inside point) : m.holder = some thread :=
  (h.inside_iff thread).mp (by rw [hpoint]; rfl)

/-- The thread goes on inside. -/
theorem Sound.held (h : m.Sound program I K) (honly : m.OnlyInside thread) {object : S}
    {point : P} (hknown : K object point) :
    (m.proceed thread object (some thread) (.inside point)).Sound program I K where
  inside_iff := by
    intro other
    by_cases hother : other = thread
    · subst hother
      simp [proceed, MonitorPoint.inside?]
    · rw [m.proceed_point_ne hother]
      simp [proceed, honly other hother, Ne.symm hother]
  asked := by
    intro other op p hwaiting
    by_cases hother : other = thread
    · subst hother
      rw [proceed_point_self] at hwaiting
      cases hwaiting
    · exact h.asked (by rwa [m.proceed_point_ne hother] at hwaiting)
  free := by
    intro hfree
    cases hfree
  known := by
    intro other p hinside
    by_cases hother : other = thread
    · subst hother
      rw [proceed_point_self] at hinside
      cases hinside
      exact hknown
    · have hnone := honly other hother
      rw [m.proceed_point_ne hother] at hinside
      rw [show m.point other = .inside p from hinside] at hnone
      cases hnone

/-- The thread gives the lock back. -/
theorem Sound.freed (h : m.Sound program I K) (honly : m.OnlyInside thread) {object : S}
    {result : R} (hobject : I object) :
    (m.proceed thread object none (.returning result)).Sound program I K where
  inside_iff := by
    intro other
    by_cases hother : other = thread
    · subst hother
      simp [proceed, MonitorPoint.inside?]
    · rw [m.proceed_point_ne hother]
      simp [proceed, honly other hother]
  asked := by
    intro other op p hwaiting
    by_cases hother : other = thread
    · subst hother
      rw [proceed_point_self] at hwaiting
      cases hwaiting
    · exact h.asked (by rwa [m.proceed_point_ne hother] at hwaiting)
  free := fun _ => hobject
  known := by
    intro other p hinside
    by_cases hother : other = thread
    · subst hother
      rw [proceed_point_self] at hinside
      cases hinside
    · have hnone := honly other hother
      rw [m.proceed_point_ne hother] at hinside
      rw [show m.point other = .inside p from hinside] at hnone
      cases hnone

/-- What is seen of the object while the thread is inside, or just out. -/
theorem view_eq_of_only (outcome : S → P → R × S) (honly : m.OnlyInside thread) {object : S}
    {holder : Option T} {point : MonitorPoint Op R P} (s : S) (phase : CallPhase Op R)
    (hstate : (match holder.bind fun other =>
        ((m.proceed thread object holder point).point other).inside? with
      | some p => (outcome object p).2
      | none => object) = s)
    (hphase : (point.phase fun p => (outcome object p).1) = phase) :
    (m.proceed thread object holder point).view outcome =
      ⟨s, Function.update (m.view outcome).phase thread phase⟩ := by
  subst hstate hphase
  refine congrArg _ (funext fun other => ?_)
  by_cases hother : other = thread
  · subst hother
    rw [proceed_point_self, Function.update_self]
    rfl
  · rw [m.proceed_point_ne hother, Function.update_of_ne hother]
    exact MonitorPoint.phase_congr (honly other hother)

/-! ### A step -/

omit [DecidableEq T] in
theorem Sound.fresh {object : S} (h : I object) :
    (Monitor.fresh object : Monitor S T Op R P).Sound program I K where
  inside_iff := fun thread => by simp [Monitor.fresh, MonitorPoint.inside?]
  asked := fun h => by cases h
  free := fun _ => h
  known := fun h => by cases h

/-- A move is a step of the object that does a call in one step, or none. -/
theorem refined_of_moves (himplements : program.Implements step I K outcome)
    (hsound : m.Sound program I K) (h : MonitorMoves program m thread event m') :
    m'.Sound program I K ∧ (event = none ∧ m'.view outcome = m.view outcome ∨
      ∃ commit, AtomicStep step (m.view outcome) event commit (m'.view outcome)) := by
  have hphase {point : MonitorPoint Op R P} (hpoint : m.point thread = point) :
      (m.view outcome).phase thread = point.phase fun p => (outcome m.object p).1 :=
    congrArg (MonitorPoint.phase _) hpoint
  have houtside {point : MonitorPoint Op R P} (hpoint : m.point thread = point)
      (hnone : point.inside? = none) : (m.point thread).inside? = none := by rw [hpoint, hnone]
  cases h with
  | invoke op hpoint =>
      have hfrom := houtside hpoint rfl
      refine ⟨hsound.goTo hfrom rfl (fun _ _ h => by cases h), .inr ⟨none, ?_⟩⟩
      rw [view_goTo outcome hfrom rfl]
      exact .invoke op (hphase hpoint)
  | @answer op result hpoint hprelude =>
      have hfrom := houtside hpoint rfl
      let taken : Transition S Op R :=
        ⟨(m.view outcome).state, op, result, (m.view outcome).state⟩
      refine ⟨hsound.goTo hfrom rfl (fun _ _ h => by cases h), .inr ⟨some (thread, taken), ?_⟩⟩
      rw [view_goTo outcome hfrom rfl]
      exact .commit (t := taken) (himplements.answers hprelude _) (hphase hpoint)
  | @ask op point hpoint hprelude =>
      have hfrom := houtside hpoint rfl
      refine ⟨hsound.goTo hfrom rfl (fun _ _ h => by cases h; exact hprelude), .inl ⟨rfl, ?_⟩⟩
      rw [view_goTo outcome hfrom rfl]
      refine congrArg _ ?_
      rw [show MonitorPoint.phase _ (.waiting op point) = (m.view outcome).phase thread from
        (hphase hpoint).symm]
      exact Function.update_eq_self thread _
  | @acquire op point object hpoint hfree hobject =>
      have honly := hsound.onlyInside_of_free hfree thread
      obtain ⟨hknown, hstep⟩ :=
        himplements.enters (hsound.asked hpoint) (hsound.free hfree) hobject
      let taken : Transition S Op R :=
        ⟨m.object, op, (outcome object point).1, (outcome object point).2⟩
      refine ⟨hsound.held honly hknown, .inr ⟨some (thread, taken), ?_⟩⟩
      rw [view_eq_of_only outcome honly (outcome object point).2
        (.done (outcome object point).1) (by simp [MonitorPoint.inside?]) rfl]
      have hstate : m.view outcome = ⟨m.object, (m.view outcome).phase⟩ := by
        simp [view, hfree]
      rw [hstate]
      exact .commit (t := taken) hstep (hphase hpoint)
  | @advance point point' object hpoint hadvance =>
      have hholder := hsound.holder_of_inside hpoint
      have honly := hsound.onlyInside hholder
      obtain ⟨hknown, houtcome⟩ := himplements.advances (hsound.known hpoint) hadvance
      refine ⟨hsound.held honly hknown, .inl ⟨rfl, ?_⟩⟩
      rw [view_eq_of_only outcome honly (m.view outcome).state ((m.view outcome).phase thread)
        (by simp [view, hholder, hpoint, MonitorPoint.inside?, houtcome])
        (by rw [hphase hpoint]; simp only [MonitorPoint.phase, houtcome]),
        Function.update_eq_self]
  | @release point object result hpoint hadvance =>
      have hholder := hsound.holder_of_inside hpoint
      have honly := hsound.onlyInside hholder
      obtain ⟨hobject, houtcome⟩ := himplements.leaves (hsound.known hpoint) hadvance
      refine ⟨hsound.freed honly hobject, .inl ⟨rfl, ?_⟩⟩
      rw [view_eq_of_only outcome honly (m.view outcome).state ((m.view outcome).phase thread)
        (by simp [view, hholder, hpoint, MonitorPoint.inside?, houtcome])
        (by rw [hphase hpoint]; simp only [MonitorPoint.phase, houtcome]),
        Function.update_eq_self]
  | respond hpoint =>
      have hfrom := houtside hpoint rfl
      refine ⟨hsound.goTo hfrom rfl (fun _ _ h => by cases h), .inr ⟨none, ?_⟩⟩
      rw [view_goTo outcome hfrom rfl]
      exact .respond (hphase hpoint)

theorem refines (himplements : program.Implements step I K outcome) :
    Refines (MonitorStep (T := T) program) step (Sound program I K) (view outcome) :=
  fun _ ht hsound => refined_of_moves himplements hsound ht

/-- Every history of an object under a lock is linearizable. -/
theorem linearizable (himplements : program.Implements step I K outcome) {object : S}
    (hobject : I object) {trace : List (MonitorTransition S T Op R P)}
    (hrun : MonitorRun program (.fresh object) trace m) :
    Linearizable step object (historyOf trace) :=
  (refines himplements).linearizable (Sound.fresh hobject) (fun _ => rfl) hrun

/-! ### In every state -/

omit [DecidableEq T] in
/-- No two threads are inside at once. -/
theorem Sound.inside_unique (h : m.Sound program I K) {thread thread' : T} {point point' : P}
    (hpoint : m.point thread = .inside point) (hpoint' : m.point thread' = .inside point') :
    thread = thread' :=
  Option.some.inj ((h.holder_of_inside hpoint).symm.trans (h.holder_of_inside hpoint'))

omit [DecidableEq T] in
/-- What holds of the object outside and inside holds at every moment. -/
theorem Sound.always (h : m.Sound program I K) {Q : S → Prop} (houtside : ∀ s, I s → Q s)
    (hinside : ∀ s p, K s p → Q s) : Q m.object := by
  cases hholder : m.holder with
  | none => exact houtside _ (h.free hholder)
  | some thread =>
      obtain ⟨point, hpoint⟩ := Option.isSome_iff_exists.mp ((h.inside_iff thread).mpr hholder)
      exact hinside _ _ (h.known (MonitorPoint.inside?_eq_some.mp hpoint))

end Monitor

end Sound

/-! ## Programs that come to an end -/

section Paced

variable {S : Type x} {T : Type u} {Op : Type v} {R : Type w} {P : Type y}

/-- Every critical section goes on until it is left, which takes at most `most` steps. -/
structure MonitorProgram.Paced (program : MonitorProgram S Op R P) (I : S → Prop)
    (K : S → P → Prop) (stepsLeft : S → P → ℕ) (most : ℕ) : Prop where
  finds : ∀ s, program.rearranged s s
  defined : ∀ {s point}, K s point → program.advance s point ≠ none
  bounded : ∀ {op point s s'}, program.prelude op = .inr point → I s →
    program.rearranged s s' → stepsLeft s' point ≤ most
  advances : ∀ {s point s' point'}, K s point → program.advance s point = some (s', .inl point') →
    stepsLeft s' point' < stepsLeft s point
  leaves : ∀ {s point s' result}, K s point → program.advance s point = some (s', .inr result) →
    0 < stepsLeft s point

/-- The moves a thread makes until it has answered. -/
def MonitorPoint.movesLeft (most : ℕ) (stepsLeft : P → ℕ) : MonitorPoint Op R P → ℕ
  | .idle => 0
  | .called _ => most + 3
  | .waiting _ _ => most + 2
  | .inside point => stepsLeft point + 1
  | .returning _ => 1

theorem MonitorPoint.movesLeft_congr {most : ℕ} {stepsLeft stepsLeft' : P → ℕ}
    {point : MonitorPoint Op R P} (h : point.inside? = none) :
    point.movesLeft most stepsLeft = point.movesLeft most stepsLeft' := by
  cases point with
  | inside p => cases h
  | _ => rfl

/-- The event is the beginning of a call. -/
def CallEvent.isInvoke : CallEvent T Op R → Bool
  | .invoke _ _ => true
  | .respond _ _ => false

variable [DecidableEq T] {program : MonitorProgram S Op R P} {step : Transition S Op R → Prop}
  {I : S → Prop} {K : S → P → Prop} {outcome : S → P → R × S} {stepsLeft : S → P → ℕ} {most : ℕ}
  {m m' : Monitor S T Op R P} {thread : T} {event : Option (CallEvent T Op R)}

namespace Monitor

/-- While a call is not answered some thread with a call can move. -/
theorem Sound.exists_moves (h : m.Sound program I K) (hpaced : program.Paced I K stepsLeft most)
    (hcall : ∃ thread, m.point thread ≠ .idle) :
    ∃ thread event m', m.point thread ≠ .idle ∧ MonitorMoves program m thread event m' := by
  have hinside {thread : T} {point : P} (hpoint : m.point thread = .inside point) :
      ∃ thread event m', m.point thread ≠ .idle ∧ MonitorMoves program m thread event m' := by
    obtain ⟨⟨object, next⟩, hadvance⟩ :=
      Option.ne_none_iff_exists'.mp (hpaced.defined (h.known hpoint))
    cases next with
    | inl point' => exact ⟨thread, _, _, by simp [hpoint], .advance hpoint hadvance⟩
    | inr result => exact ⟨thread, _, _, by simp [hpoint], .release hpoint hadvance⟩
  obtain ⟨thread, hthread⟩ := hcall
  cases hpoint : m.point thread with
  | idle => exact absurd hpoint hthread
  | called op =>
      cases hprelude : program.prelude op with
      | inl result => exact ⟨thread, _, _, hthread, .answer hpoint hprelude⟩
      | inr point => exact ⟨thread, _, _, hthread, .ask hpoint hprelude⟩
  | waiting op point =>
      cases hholder : m.holder with
      | none => exact ⟨thread, _, _, hthread, .acquire hpoint hholder (hpaced.finds m.object)⟩
      | some other =>
          obtain ⟨point', hpoint'⟩ := Option.isSome_iff_exists.mp ((h.inside_iff other).mpr hholder)
          exact hinside (MonitorPoint.inside?_eq_some.mp hpoint')
  | inside point => exact hinside hpoint
  | returning result => exact ⟨thread, _, _, hthread, .respond hpoint⟩

variable [Fintype T]

/-- The moves the threads make until they have answered. -/
def movesLeft (most : ℕ) (stepsLeft : S → P → ℕ) (m : Monitor S T Op R P) : ℕ :=
  ∑ thread : T, (m.point thread).movesLeft most (stepsLeft m.object)

/-- What a thread gives up by going to another point, when the others keep theirs. -/
theorem movesLeft_proceed (most : ℕ) (stepsLeft : S → P → ℕ) (m : Monitor S T Op R P)
    (thread : T) (object : S) (holder : Option T) (point : MonitorPoint Op R P)
    (hothers : ∀ other, other ≠ thread → (m.point other).movesLeft most (stepsLeft object) =
      (m.point other).movesLeft most (stepsLeft m.object)) :
    (m.proceed thread object holder point).movesLeft most stepsLeft +
        (m.point thread).movesLeft most (stepsLeft m.object) =
      m.movesLeft most stepsLeft + point.movesLeft most (stepsLeft object) := by
  have hsplit (m : Monitor S T Op R P) : m.movesLeft most stepsLeft =
      (m.point thread).movesLeft most (stepsLeft m.object) + ∑ other ∈ Finset.univ.erase thread,
        (m.point other).movesLeft most (stepsLeft m.object) :=
    (Finset.add_sum_erase _ _ (Finset.mem_univ thread)).symm
  have hrest : ∑ other ∈ Finset.univ.erase thread,
      ((m.proceed thread object holder point).point other).movesLeft most (stepsLeft object) =
      ∑ other ∈ Finset.univ.erase thread,
        (m.point other).movesLeft most (stepsLeft m.object) := by
    refine Finset.sum_congr rfl fun other hother => ?_
    have hne := Finset.ne_of_mem_erase hother
    rw [m.proceed_point_ne hne, hothers other hne]
  have hobject : (m.proceed thread object holder point).object = object := rfl
  rw [hsplit, hsplit m, proceed_point_self, hobject, hrest]
  omega

/-- The move that begins a call brings the moves of the call. -/
def movesAllowed (most : ℕ) (event : Option (CallEvent T Op R)) : ℕ :=
  if event.any CallEvent.isInvoke then most + 4 else 0

theorem pays_of_goTo {point : MonitorPoint Op R P}
    (h : 1 + point.movesLeft most (stepsLeft m.object) ≤
      (m.point thread).movesLeft most (stepsLeft m.object) + movesAllowed most event) :
    1 + (m.goTo thread point).movesLeft most stepsLeft ≤
      m.movesLeft most stepsLeft + movesAllowed most event := by
  have hgo : (m.goTo thread point).movesLeft most stepsLeft + _ = _ :=
    movesLeft_proceed most stepsLeft m thread m.object m.holder point (fun _ _ => rfl)
  omega

theorem pays_of_proceed (honly : m.OnlyInside thread) {object : S} {holder : Option T}
    {point : MonitorPoint Op R P}
    (h : 1 + point.movesLeft most (stepsLeft object) ≤
      (m.point thread).movesLeft most (stepsLeft m.object) + movesAllowed most event) :
    1 + (m.proceed thread object holder point).movesLeft most stepsLeft ≤
      m.movesLeft most stepsLeft + movesAllowed most event := by
  have hgo := movesLeft_proceed most stepsLeft m thread object holder point
    (fun other hother => MonitorPoint.movesLeft_congr (honly other hother))
  omega

/-- Every move is one of those that were left. -/
theorem Sound.movesLeft_lt (h : m.Sound program I K) (hpaced : program.Paced I K stepsLeft most)
    (hmoves : MonitorMoves program m thread event m') :
    1 + m'.movesLeft most stepsLeft ≤ m.movesLeft most stepsLeft + movesAllowed most event := by
  cases hmoves with
  | invoke op hpoint =>
      apply pays_of_goTo
      simp only [hpoint, MonitorPoint.movesLeft, movesAllowed, Option.any_some,
        CallEvent.isInvoke, if_true]
      omega
  | answer hpoint hprelude =>
      apply pays_of_goTo
      simp only [hpoint, MonitorPoint.movesLeft]
      omega
  | ask hpoint hprelude =>
      apply pays_of_goTo
      simp only [hpoint, MonitorPoint.movesLeft]
      omega
  | acquire hpoint hfree hobject =>
      have hbounded := hpaced.bounded (h.asked hpoint) (h.free hfree) hobject
      apply pays_of_proceed (h.onlyInside_of_free hfree thread)
      simp only [hpoint, MonitorPoint.movesLeft]
      omega
  | advance hpoint hadvance =>
      have hless := hpaced.advances (h.known hpoint) hadvance
      apply pays_of_proceed (h.onlyInside (h.holder_of_inside hpoint))
      simp only [hpoint, MonitorPoint.movesLeft]
      omega
  | release hpoint hadvance =>
      have hleft := hpaced.leaves (h.known hpoint) hadvance
      apply pays_of_proceed (h.onlyInside (h.holder_of_inside hpoint))
      simp only [hpoint, MonitorPoint.movesLeft]
      omega
  | respond hpoint =>
      apply pays_of_goTo
      simp only [hpoint, MonitorPoint.movesLeft]
      omega

omit [DecidableEq T] [Fintype T] in
theorem sum_movesAllowed (most : ℕ) (trace : List (MonitorTransition S T Op R P)) :
    (trace.map fun t => movesAllowed most t.output).sum =
      (most + 4) * (historyOf trace).countP CallEvent.isInvoke := by
  induction trace with
  | nil => simp [historyOf]
  | cons t trace ih =>
      rw [List.map_cons, List.sum_cons, ih]
      unfold historyOf
      cases houtput : t.output with
      | none => simp [movesAllowed, houtput]
      | some event =>
          cases hevent : event.isInvoke with
          | false => simp [movesAllowed, houtput, hevent]
          | true =>
              simp only [movesAllowed, Option.any_some, hevent, if_true,
                List.filterMap_cons_some houtput, List.countP_cons]
              ring

/-- However the threads interleave, every call brings a bounded number of moves. -/
theorem length_le (himplements : program.Implements step I K outcome)
    (hpaced : program.Paced I K stepsLeft most) {object : S} (hobject : I object)
    {trace : List (MonitorTransition S T Op R P)}
    (hrun : MonitorRun program (.fresh object) trace m) :
    trace.length ≤ (most + 4) * (historyOf trace).countP CallEvent.isInvoke := by
  have hpays : (trace.map fun _ => 1).sum + m.movesLeft most stepsLeft ≤
      (Monitor.fresh object : Monitor S T Op R P).movesLeft most stepsLeft +
        (trace.map fun t => movesAllowed most t.output).sum :=
    Run.potential (I := Sound program I K)
      (fun t ht hsound => ⟨(refines himplements t ht hsound).1, hsound.movesLeft_lt hpaced ht⟩)
      hrun (Sound.fresh hobject)
  have hnone : (Monitor.fresh object : Monitor S T Op R P).movesLeft most stepsLeft = 0 :=
    Finset.sum_eq_zero fun thread _ => rfl
  rw [sum_movesAllowed, hnone] at hpays
  simp only [List.map_const', List.sum_replicate, smul_eq_mul, mul_one] at hpays
  omega

end Monitor

end Paced

end RpcSpec.Foundation
