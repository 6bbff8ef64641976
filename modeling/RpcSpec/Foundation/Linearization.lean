import RpcSpec.Foundation.Transition
import Mathlib.Algebra.BigOperators.Group.Finset.Basic
import Mathlib.Algebra.BigOperators.Group.Finset.Piecewise
import Mathlib.Algebra.Order.BigOperators.Group.Finset
import Mathlib.Algebra.Order.BigOperators.Group.List
import Mathlib.Logic.Function.Basic
set_option autoImplicit false

/-!
# Linearizable objects

Threads call the operations of one object, and a call may take many steps of its own.
What the callers see is the history: who asked for what, and who was answered what.
A history is linearizable when its calls can be put in one order, in which the object
answers them one after another as it did, and which a call that returned before another
was made keeps ahead of it.

An object that does a whole call in one step has no other histories.  A system in which
every step is either a step of such an object or none of its steps therefore has no other
histories either.
-/

namespace RpcSpec.Foundation

universe u v w x y z

/-! ## Histories -/

/-- What the callers see. -/
inductive CallEvent (T : Type u) (Op : Type v) (R : Type w) where
  | invoke (thread : T) (op : Op)
  | respond (thread : T) (result : R)
  deriving DecidableEq

/-- A call that took effect: by whom, and the transition of the object it made. -/
abbrev Commit (S : Type x) (T : Type u) (Op : Type v) (R : Type w) := T × Transition S Op R

section Projections

variable {S : Type x} {T : Type u} {Op : Type v} {R : Type w} [DecidableEq T]

namespace CallEvent

/-- The operation the thread asks for. -/
def asks? (thread : T) : CallEvent T Op R → Option Op
  | .invoke thread' op => if thread' = thread then some op else none
  | .respond _ _ => none

/-- The result the thread is answered. -/
def answers? (thread : T) : CallEvent T Op R → Option R
  | .invoke _ _ => none
  | .respond thread' result => if thread' = thread then some result else none

end CallEvent

/-- The operations a thread asked for, in order. -/
def invoked (thread : T) (history : List (CallEvent T Op R)) : List Op :=
  history.filterMap (·.asks? thread)

/-- The results a thread was answered, in order. -/
def responded (thread : T) (history : List (CallEvent T Op R)) : List R :=
  history.filterMap (·.answers? thread)

/-- The calls of a thread that took effect, in order. -/
def committed (thread : T) (order : List (Commit S T Op R)) : List (Transition S Op R) :=
  order.filterMap fun commit => if commit.1 = thread then some commit.2 else none

variable {thread : T} {history history' : List (CallEvent T Op R)}
  {order order' : List (Commit S T Op R)}

theorem invoked_append :
    invoked thread (history ++ history') = invoked thread history ++ invoked thread history' :=
  List.filterMap_append

theorem responded_append : responded thread (history ++ history') =
    responded thread history ++ responded thread history' :=
  List.filterMap_append

theorem mem_invoked {op : Op} : op ∈ invoked thread history ↔ .invoke thread op ∈ history := by
  rw [invoked, List.mem_filterMap]
  constructor
  · rintro ⟨event, hevent, hasks⟩
    cases event with
    | invoke thread' op' =>
        obtain ⟨rfl, hop⟩ := Option.ite_none_right_eq_some.mp hasks
        rwa [← Option.some.inj hop]
    | respond thread' result => cases hasks
  · exact fun hevent => ⟨_, hevent, if_pos rfl⟩

theorem committed_append : committed thread (order ++ order') =
    committed thread order ++ committed thread order' :=
  List.filterMap_append

end Projections

/-! ## Linearizations -/

section Linearizes

variable {S : Type x} {T : Type u} {Op : Type v} {R : Type w} [DecidableEq T]

/-- Called in this order, one call after another, an object that starts in the state
answers what the history says.  Calls that were not answered may or may not have taken
effect. -/
structure Linearizes (step : Transition S Op R → Prop) (start : S)
    (history : List (CallEvent T Op R)) (order : List (Commit S T Op R)) : Prop where
  legal : ∃ final, Run step start (order.map (·.2)) final
  /-- What took effect was asked for, and in the thread's order. -/
  asked : ∀ thread, (committed thread order).map (·.label) <+: invoked thread history
  /-- What was answered took effect, with the result that was answered. -/
  answered : ∀ thread, responded thread history <+: (committed thread order).map (·.output)
  /-- At every moment the calls that have returned have taken effect, and of those that
  have taken effect each was made. -/
  inRealTime : ∀ early, early <+: history → ∃ before, before <+: order ∧ ∀ thread,
    (responded thread early).length ≤ (committed thread before).length ∧
      (committed thread before).length ≤ (invoked thread early).length

/-- The calls can be put in such an order. -/
def Linearizable (step : Transition S Op R → Prop) (start : S)
    (history : List (CallEvent T Op R)) : Prop :=
  ∃ order : List (Commit S T Op R), Linearizes step start history order

end Linearizes

section Consequences

variable {S : Type x} {T : Type u} {Op : Type v} {R : Type w} [DecidableEq T]
  {step : Transition S Op R → Prop} {start : S} {history : List (CallEvent T Op R)}
  {order : List (Commit S T Op R)}

/-- What takes effect was asked for. -/
theorem Linearizes.label_mem (h : Linearizes step start history order) {thread : T}
    {t : Transition S Op R} (ht : (thread, t) ∈ order) : t.label ∈ invoked thread history := by
  refine (h.asked thread).subset (List.mem_map_of_mem (List.mem_filterMap.mpr ⟨_, ht, ?_⟩))
  simp

omit [DecidableEq T] in
theorem zipWith_isPrefix_map {β : Type y} (f : Op → R → β) {effects : List (Transition S Op R)} :
    ∀ {asked : List Op} {answered : List R}, effects.map (·.label) <+: asked →
      answered <+: effects.map (·.output) →
      List.zipWith f asked answered <+: effects.map fun t => f t.label t.output := by
  induction effects with
  | nil =>
      intro asked answered _ hanswered
      rw [List.prefix_nil.mp hanswered, List.zipWith_nil_right]
      exact List.nil_prefix
  | cons t effects ih =>
      intro asked answered hasked hanswered
      cases answered with
      | nil =>
          rw [List.zipWith_nil_right]
          exact List.nil_prefix
      | cons result answered =>
          obtain ⟨rest, rfl⟩ := hasked
          obtain ⟨rfl, hresults⟩ := List.cons_prefix_cons.mp hanswered
          exact List.cons_prefix_cons.mpr ⟨rfl, ih (List.prefix_append _ _) hresults⟩

/-- What is said of the calls a thread was answered is said of calls that took effect. -/
theorem Linearizes.zipWith_isPrefix (h : Linearizes step start history order) {β : Type y}
    (f : Op → R → β) (thread : T) :
    List.zipWith f (invoked thread history) (responded thread history) <+:
      (committed thread order).map fun t => f t.label t.output :=
  zipWith_isPrefix_map f (h.asked thread) (h.answered thread)

omit [DecidableEq T] in
/-- The threads' shares of a total. -/
theorem sum_committed [Fintype T] [DecidableEq T] {M : Type y} [AddCommMonoid M]
    (f : Transition S Op R → M) (order : List (Commit S T Op R)) :
    ∑ thread : T, ((committed thread order).map f).sum =
      (order.map fun commit => f commit.2).sum := by
  induction order with
  | nil => simp [committed]
  | cons commit order ih =>
      have hshare (thread : T) : ((committed thread (commit :: order)).map f).sum =
          (if commit.1 = thread then f commit.2 else 0) + ((committed thread order).map f).sum := by
        unfold committed
        by_cases hthread : commit.1 = thread <;> simp [hthread]
      simp only [hshare, Finset.sum_add_distrib, Finset.sum_ite_eq, Finset.mem_univ, if_true, ih,
        List.map_cons, List.sum_cons]

section Sums

variable [Fintype T] {M : Type y} [AddCommMonoid M] [PartialOrder M] [IsOrderedAddMonoid M]

/-- What all threads are seen to get is no more than what the calls that took effect give. -/
theorem Linearizes.sum_zipWith_le (h : Linearizes step start history order) {f : Op → R → M}
    (hf : ∀ op result, 0 ≤ f op result) :
    ∑ thread : T, (List.zipWith f (invoked thread history) (responded thread history)).sum ≤
      (order.map fun commit => f commit.2.label commit.2.output).sum := by
  rw [← sum_committed fun t => f t.label t.output]
  refine Finset.sum_le_sum fun thread _ => ?_
  obtain ⟨pending, hpending⟩ := h.zipWith_isPrefix f thread
  rw [← hpending, List.sum_append]
  refine le_add_of_nonneg_right (List.sum_nonneg fun share hshare => ?_)
  have hmem := List.mem_append_right (List.zipWith f (invoked thread history)
    (responded thread history)) hshare
  rw [hpending] at hmem
  obtain ⟨t, -, rfl⟩ := List.mem_map.mp hmem
  exact hf _ _

/-- The calls that took effect are among those that were asked for. -/
theorem Linearizes.sum_le_sum_invoked (h : Linearizes step start history order) {f : Op → M}
    (hf : ∀ op, 0 ≤ f op) : (order.map fun commit => f commit.2.label).sum ≤
      ∑ thread : T, ((invoked thread history).map f).sum := by
  rw [← sum_committed fun t => f t.label]
  refine Finset.sum_le_sum fun thread _ => ?_
  obtain ⟨pending, hpending⟩ := h.asked thread
  rw [← hpending, List.map_append, List.sum_append, List.map_map]
  exact le_add_of_nonneg_right (List.sum_nonneg (List.forall_mem_map.mpr fun op _ => hf op))

end Sums

end Consequences

/-! ## The object that does a call in one step -/

/-- Where a thread is with its call. -/
inductive CallPhase (Op : Type v) (R : Type w) where
  | idle
  | pending (op : Op)
  | done (result : R)

/-- The state of the object, and where each thread is with its call. -/
structure AtomicObject (S : Type x) (T : Type u) (Op : Type v) (R : Type w) where
  state : S
  phase : T → CallPhase Op R

section Atomic

variable {S : Type x} {T : Type u} {Op : Type v} {R : Type w} [DecidableEq T]

/-- A step of the object: what is seen of it, and the call that takes effect. -/
inductive AtomicStep (step : Transition S Op R → Prop) :
    AtomicObject S T Op R → Option (CallEvent T Op R) → Option (Commit S T Op R) →
      AtomicObject S T Op R → Prop
  | invoke {object : AtomicObject S T Op R} {thread : T} (op : Op)
      (hidle : object.phase thread = .idle) :
      AtomicStep step object (some (.invoke thread op)) none
        ⟨object.state, Function.update object.phase thread (.pending op)⟩
  | commit {phase : T → CallPhase Op R} {thread : T} {t : Transition S Op R} (ht : step t)
      (hpending : phase thread = .pending t.label) :
      AtomicStep step ⟨t.source, phase⟩ none (some (thread, t))
        ⟨t.target, Function.update phase thread (.done t.output)⟩
  | respond {object : AtomicObject S T Op R} {thread : T} {result : R}
      (hdone : object.phase thread = .done result) :
      AtomicStep step object (some (.respond thread result)) none
        ⟨object.state, Function.update object.phase thread .idle⟩

/-- How far a thread in this phase is behind what it asked for and what took effect. -/
def CallPhase.Accounts (phase : CallPhase Op R) (asked : List Op) (answered : List R)
    (effects : List (Transition S Op R)) : Prop :=
  match phase with
  | .idle => asked = effects.map (·.label) ∧ effects.map (·.output) = answered
  | .pending op => asked = effects.map (·.label) ++ [op] ∧ effects.map (·.output) = answered
  | .done result =>
      asked = effects.map (·.label) ∧ effects.map (·.output) = answered ++ [result]

/-- What holds along the runs of the object: its calls in the order in which they took
effect. -/
structure Linearized (step : Transition S Op R → Prop) (start : S)
    (history : List (CallEvent T Op R)) (order : List (Commit S T Op R))
    (object : AtomicObject S T Op R) : Prop where
  legal : Run step start (order.map (·.2)) object.state
  accounts : ∀ thread, (object.phase thread).Accounts (invoked thread history)
    (responded thread history) (committed thread order)
  inRealTime : ∀ early, early <+: history → ∃ before, before <+: order ∧ ∀ thread,
    (responded thread early).length ≤ (committed thread before).length ∧
      (committed thread before).length ≤ (invoked thread early).length

variable {step : Transition S Op R → Prop} {start : S} {history : List (CallEvent T Op R)}
  {order : List (Commit S T Op R)} {object object' : AtomicObject S T Op R}
  {event : Option (CallEvent T Op R)} {commit : Option (Commit S T Op R)}

omit [DecidableEq T] in
theorem CallPhase.Accounts.isPrefix {phase : CallPhase Op R} {asked : List Op}
    {answered : List R} {effects : List (Transition S Op R)}
    (h : phase.Accounts asked answered effects) :
    effects.map (·.label) <+: asked ∧ answered <+: effects.map (·.output) := by
  cases phase with
  | idle =>
      obtain ⟨rfl, rfl⟩ := h
      exact ⟨List.prefix_refl _, List.prefix_refl _⟩
  | pending op =>
      obtain ⟨rfl, rfl⟩ := h
      exact ⟨List.prefix_append _ _, List.prefix_refl _⟩
  | done result =>
      obtain ⟨rfl, houtput⟩ := h
      exact ⟨List.prefix_refl _, houtput ▸ List.prefix_append _ _⟩

omit [DecidableEq T] in
theorem CallPhase.Accounts.length_le {phase : CallPhase Op R} {asked : List Op}
    {answered : List R} {effects : List (Transition S Op R)}
    (h : phase.Accounts asked answered effects) :
    answered.length ≤ effects.length ∧ effects.length ≤ asked.length := by
  obtain ⟨hasked, hanswered⟩ := h.isPrefix
  exact ⟨by simpa using hanswered.length_le, by simpa using hasked.length_le⟩

/-- One step keeps each thread's account. -/
theorem AtomicStep.accounts (h : AtomicStep step object event commit object')
    (haccounts : ∀ thread, (object.phase thread).Accounts (invoked thread history)
      (responded thread history) (committed thread order)) (thread : T) :
    (object'.phase thread).Accounts (invoked thread (history ++ event.toList))
      (responded thread (history ++ event.toList))
      (committed thread (order ++ commit.toList)) := by
  have hbefore := haccounts thread
  rw [invoked_append, responded_append, committed_append]
  cases h with
  | @invoke object mover op hidle =>
      by_cases hmover : mover = thread
      · subst hmover
        rw [hidle] at hbefore
        simpa [CallPhase.Accounts, invoked, responded, committed, CallEvent.asks?,
          CallEvent.answers?] using hbefore
      · simpa [invoked, responded, committed, CallEvent.asks?, CallEvent.answers?, hmover,
          Function.update_of_ne (Ne.symm hmover)] using hbefore
  | @commit phase mover t ht hpending =>
      by_cases hmover : mover = thread
      · subst hmover
        simp only [hpending] at hbefore
        simpa [CallPhase.Accounts, invoked, responded, committed] using hbefore
      · simpa [invoked, responded, committed, hmover,
          Function.update_of_ne (Ne.symm hmover)] using hbefore
  | @respond object mover result hdone =>
      by_cases hmover : mover = thread
      · subst hmover
        rw [hdone] at hbefore
        simpa [CallPhase.Accounts, invoked, responded, committed, CallEvent.asks?,
          CallEvent.answers?] using hbefore
      · simpa [invoked, responded, committed, CallEvent.asks?, CallEvent.answers?, hmover,
          Function.update_of_ne (Ne.symm hmover)] using hbefore

theorem AtomicStep.legal (h : AtomicStep step object event commit object')
    (hlegal : Run step start (order.map (·.2)) object.state) :
    Run step start ((order ++ commit.toList).map (·.2)) object'.state := by
  cases h with
  | invoke op hidle => simpa using hlegal
  | commit ht hpending =>
      rw [Option.toList_some, List.map_append, Run.append_iff]
      exact ⟨_, hlegal, Run.cons_iff.mpr ⟨rfl, ht, .nil _⟩⟩
  | respond hdone => simpa using hlegal

/-- One step extends the linearization. -/
theorem Linearized.extend (h : Linearized step start history order object)
    (hstep : AtomicStep step object event commit object') :
    Linearized step start (history ++ event.toList) (order ++ commit.toList) object' := by
  have haccounts := hstep.accounts h.accounts
  refine ⟨hstep.legal h.legal, haccounts, ?_⟩
  intro early hearly
  have hold (hbegins : early <+: history) : ∃ before, before <+: order ++ commit.toList ∧
      ∀ thread, (responded thread early).length ≤ (committed thread before).length ∧
        (committed thread before).length ≤ (invoked thread early).length := by
    obtain ⟨before, hbefore, hcounts⟩ := h.inRealTime early hbegins
    exact ⟨before, hbefore.trans (List.prefix_append _ _), hcounts⟩
  cases event with
  | none => exact hold (by simpa using hearly)
  | some event =>
      rcases List.prefix_concat_iff.mp hearly with rfl | hbegins
      · exact ⟨_, List.prefix_refl _, fun thread => (haccounts thread).length_le⟩
      · exact hold hbegins

/-- What the object does can be put in the order in which it did it. -/
theorem Linearized.linearizes (h : Linearized step start history order object) :
    Linearizes step start history order :=
   ⟨⟨_, h.legal⟩, fun thread => (h.accounts thread).isPrefix.1,
    fun thread => (h.accounts thread).isPrefix.2, h.inRealTime⟩

theorem Linearized.initial (object : AtomicObject S T Op R)
    (hidle : ∀ thread, object.phase thread = .idle) :
    Linearized step object.state [] [] object := by
  refine ⟨.nil _, fun thread => ?_, fun early hearly => ⟨[], List.prefix_refl _, fun thread => ?_⟩⟩
  · rw [hidle thread]
    exact ⟨rfl, rfl⟩
  · rw [List.prefix_nil.mp hearly]
    exact ⟨Nat.le_refl _, Nat.le_refl _⟩

end Atomic

/-! ## Systems that are such an object -/

section System

variable {S : Type x} {T : Type u} {Op : Type v} {R : Type w} [DecidableEq T]
  {C : Type y} {L : Type z}

/-- What is seen of a run of a system. -/
def historyOf (trace : List (Transition C L (Option (CallEvent T Op R)))) :
    List (CallEvent T Op R) :=
  trace.filterMap (·.output)

/-- Read through the view, every step of the system is a step of the object, or none. -/
def Refines (systemStep : Transition C L (Option (CallEvent T Op R)) → Prop)
    (step : Transition S Op R → Prop) (I : C → Prop) (view : C → AtomicObject S T Op R) : Prop :=
  ∀ t, systemStep t → I t.source → I t.target ∧
    (t.output = none ∧ view t.target = view t.source ∨
      ∃ commit, AtomicStep step (view t.source) t.output commit (view t.target))

variable {systemStep : Transition C L (Option (CallEvent T Op R)) → Prop}
  {step : Transition S Op R → Prop} {I : C → Prop} {view : C → AtomicObject S T Op R}

/-- Along a run of such a system the calls take effect one after another. -/
theorem Refines.linearized (h : Refines systemStep step I view) {c c' : C}
    {trace : List (Transition C L (Option (CallEvent T Op R)))}
    (hrun : Run systemStep c trace c') : ∀ {start : S} {history : List (CallEvent T Op R)}
      {order : List (Commit S T Op R)}, I c → Linearized step start history order (view c) →
      ∃ later, Linearized step start (history ++ historyOf trace) (order ++ later) (view c') := by
  induction hrun with
  | nil s =>
      intro start history order _ hlinearized
      exact ⟨[], by simpa [historyOf] using hlinearized⟩
  | @cons t trace s ht _ ih =>
      intro start history order hI hlinearized
      obtain ⟨hI', hstep⟩ := h t ht hI
      have hhistory : historyOf (t :: trace) = t.output.toList ++ historyOf trace := by
        unfold historyOf
        rw [List.filterMap_cons]
        cases t.output <;> rfl
      rcases hstep with ⟨hsilent, hview⟩ | ⟨commit, hatomic⟩
      · rw [← hview] at hlinearized
        rw [hhistory, hsilent]
        exact ih hI' hlinearized
      · obtain ⟨later, hlater⟩ := ih hI' (hlinearized.extend hatomic)
        rw [List.append_assoc, ← hhistory] at hlater
        exact ⟨commit.toList ++ later, by rwa [← List.append_assoc]⟩

/-- Every history of such a system is linearizable. -/
theorem Refines.linearizable (h : Refines systemStep step I view) {c c' : C} (hI : I c)
    (hidle : ∀ thread, (view c).phase thread = .idle)
    {trace : List (Transition C L (Option (CallEvent T Op R)))}
    (hrun : Run systemStep c trace c') : Linearizable step (view c).state (historyOf trace) := by
  obtain ⟨order, horder⟩ := h.linearized hrun hI (.initial (view c) hidle)
  exact ⟨[] ++ order, by simpa using horder.linearizes⟩

theorem Refines.invariant (h : Refines systemStep step I view) {c c' : C} (hI : I c)
    {trace : List (Transition C L (Option (CallEvent T Op R)))}
    (hrun : Run systemStep c trace c') : I c' :=
  hrun.invariant (fun t ht hsource => (h t ht hsource).1) hI

end System

end RpcSpec.Foundation
