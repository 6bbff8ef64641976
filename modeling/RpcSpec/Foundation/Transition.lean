import Mathlib.Algebra.BigOperators.Group.List.Basic
import Mathlib.Algebra.Order.Monoid.Defs
set_option autoImplicit false

/-!
# Runs of a labelled transition system

A system that takes labelled steps, each with an output.  A run is the list of
its transitions, so that what holds of every step, of a consecutive segment, or
of the labels and outputs in order can be said of the list.
-/

namespace RpcSpec.Foundation

universe u v w x

/-- One step: the state it starts from, what was asked, what came out, and the
state it leads to. -/
structure Transition (S : Type u) (L : Type v) (O : Type w) where
  source : S
  label : L
  output : O
  target : S

variable {S : Type u} {L : Type v} {O : Type w}

/-- The transitions in the list are steps, each from where the last one led. -/
inductive Run (step : Transition S L O → Prop) : S → List (Transition S L O) → S → Prop
  | nil (s : S) : Run step s [] s
  | cons {t : Transition S L O} {trace : List (Transition S L O)} {s : S} : step t →
      Run step t.target trace s → Run step t.source (t :: trace) s

namespace Run

variable {step : Transition S L O → Prop} {s s' : S} {t : Transition S L O}
  {trace trace' : List (Transition S L O)}

theorem nil_iff : Run step s [] s' ↔ s = s' := by
  constructor
  · intro h
    cases h
    rfl
  · rintro rfl
    exact .nil s

theorem cons_iff :
    Run step s (t :: trace) s' ↔ s = t.source ∧ step t ∧ Run step t.target trace s' := by
  constructor
  · intro h
    cases h with
    | cons hstep hrest => exact ⟨rfl, hstep, hrest⟩
  · rintro ⟨rfl, hstep, hrest⟩
    exact .cons hstep hrest

/-- A run may be cut between any two transitions. -/
theorem append_iff :
    Run step s (trace ++ trace') s' ↔
      ∃ mid, Run step s trace mid ∧ Run step mid trace' s' := by
  induction trace generalizing s with
  | nil => simp [nil_iff]
  | cons t trace ih =>
      simp only [List.cons_append, cons_iff, ih]
      constructor
      · rintro ⟨rfl, hstep, mid, hfirst, hrest⟩
        exact ⟨mid, ⟨rfl, hstep, hfirst⟩, hrest⟩
      · rintro ⟨mid, ⟨rfl, hstep, hfirst⟩, hrest⟩
        exact ⟨rfl, hstep, mid, hfirst, hrest⟩

/-- What holds of the transitions may be taken for part of the step. -/
theorem and_of_forall {p : Transition S L O → Prop} (h : Run step s trace s')
    (hall : ∀ t ∈ trace, p t) : Run (fun t => step t ∧ p t) s trace s' := by
  induction h with
  | nil s => exact .nil s
  | cons ht _ ih =>
      obtain ⟨hp, hrest⟩ := List.forall_mem_cons.mp hall
      exact .cons ⟨ht, hp⟩ (ih hrest)

/-- A property that every step preserves holds where a run ends. -/
theorem invariant {I : S → Prop} (hstep : ∀ t, step t → I t.source → I t.target)
    (h : Run step s trace s') (hs : I s) : I s' := by
  induction h with
  | nil _ => exact hs
  | cons ht _ ih => exact ih (hstep _ ht hs)

/-- When every step pays its cost out of its gain and the potential it gives up, a run pays
all its costs. -/
theorem potential {M : Type x} [AddCommMonoid M] [PartialOrder M] [IsOrderedAddMonoid M]
    {I : S → Prop} {cost gain : Transition S L O → M} {stored : S → M}
    (hstep : ∀ t, step t → I t.source →
      I t.target ∧ cost t + stored t.target ≤ stored t.source + gain t)
    (h : Run step s trace s') (hs : I s) :
    (trace.map cost).sum + stored s' ≤ stored s + (trace.map gain).sum := by
  induction h with
  | nil s => simp
  | @cons t trace s ht _ ih =>
      obtain ⟨hI, hpays⟩ := hstep t ht hs
      rw [List.map_cons, List.map_cons, List.sum_cons, List.sum_cons]
      calc cost t + (trace.map cost).sum + stored s
          = cost t + ((trace.map cost).sum + stored s) := add_assoc _ _ _
        _ ≤ cost t + (stored t.target + (trace.map gain).sum) := add_le_add_right (ih hI) _
        _ = cost t + stored t.target + (trace.map gain).sum := (add_assoc _ _ _).symm
        _ ≤ stored t.source + gain t + (trace.map gain).sum := add_le_add_left hpays _
        _ = stored t.source + (gain t + (trace.map gain).sum) := add_assoc _ _ _

/-- Whatever is asked in order, a system that can answer everything has a run. -/
theorem exists_of_total (htotal : ∀ (s : S) (l : L), ∃ o s', step ⟨s, l, o, s'⟩) :
    ∀ (labels : List L) (s : S), ∃ trace s', Run step s trace s' ∧
      trace.map (·.label) = labels
  | [], s => ⟨[], s, .nil s, rfl⟩
  | l :: labels, s => by
      obtain ⟨o, mid, hstep⟩ := htotal s l
      obtain ⟨trace, s', hrun, hlabels⟩ := exists_of_total htotal labels mid
      exact ⟨⟨s, l, o, mid⟩ :: trace, s', .cons hstep hrun, by simp [hlabels]⟩

end Run

end RpcSpec.Foundation
