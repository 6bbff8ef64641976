import RpcSpec.Foundation.Moves
set_option autoImplicit false

/-!
# Runs that do not tell two states apart

`Lockstep R x`: from states in the relation the computation returns or fails alike, and
leaves states in the relation.
-/

namespace RpcSpec.Foundation

universe w

variable {ε σ τ : Type} {α β : Type}

/-- One run of a computation answers as the other does, and keeps up with it. -/
def Lockstep (R : σ → σ → Prop) (x : EStateM ε σ α) : Prop :=
  ∀ s s', R s s' → answer (x s) = answer (x s') ∧ R (endState x s) (endState x s')

namespace Lockstep

variable {R : σ → σ → Prop} {x : EStateM ε σ α} {f : α → EStateM ε σ β}

theorem pure (a : α) : Lockstep R (pure a : EStateM ε σ α) := fun _ _ h => ⟨rfl, h⟩

theorem throw (e : ε) : Lockstep R (throw e : EStateM ε σ α) := fun _ _ h => ⟨rfl, h⟩

theorem set (hrefl : ∀ s, R s s) (s : σ) : Lockstep R (EStateM.set s : EStateM ε σ PUnit) :=
  fun _ _ _ => ⟨rfl, hrefl s⟩

/-- A computation that does not look at the state is in lockstep with itself. -/
theorem monadLift (y : Except ε α) : Lockstep R (monadLift y : EStateM ε σ α) := by
  cases y with
  | ok a => exact .pure a
  | error e => exact .throw e

/-- Lockstep is kept by what follows. -/
theorem bind (hx : Lockstep R x) (hf : ∀ a, Lockstep R (f a)) : Lockstep R (x >>= f) := by
  intro s s' h
  obtain ⟨hanswer, hstate⟩ := hx s s' h
  change answer (EStateM.bind x f s) = answer (EStateM.bind x f s') ∧
    R (endState (EStateM.bind x f) s) (endState (EStateM.bind x f) s')
  unfold endState EStateM.bind at *
  cases hs : x s with
  | ok a t =>
      cases hs' : x s' with
      | ok a' t' =>
          rw [hs, hs'] at hanswer hstate
          obtain rfl : a = a' := by simpa using hanswer
          exact hf a t t' hstate
      | error e t' =>
          rw [hs, hs'] at hanswer
          cases hanswer
  | error e t =>
      cases hs' : x s' with
      | ok a t' =>
          rw [hs, hs'] at hanswer
          cases hanswer
      | error e' t' =>
          rw [hs, hs'] at hanswer hstate
          obtain rfl : e = e' := by simpa using hanswer
          exact ⟨rfl, hstate⟩

/-- What goes on after the state is read goes on alike. -/
theorem get_bind {g : σ → EStateM ε σ β} (heq : ∀ s s', R s s' → g s = g s')
    (h : ∀ s, Lockstep R (g s)) : Lockstep R (get >>= g) := by
  intro s s' hR
  change answer (g s s) = answer (g s' s') ∧ R (endState (g s) s) (endState (g s') s')
  rw [heq s s' hR]
  exact h s' s s' hR

/-- Renaming failures keeps lockstep. -/
theorem mapFailure {ε' : Type} {rename : ε → ε'} (h : Lockstep R x) :
    Lockstep R (Foundation.mapFailure rename x) := by
  intro s s' hR
  obtain ⟨hanswer, hstate⟩ := h s s' hR
  rw [endState_mapFailure, endState_mapFailure]
  refine ⟨?_, hstate⟩
  unfold Foundation.mapFailure
  cases hs : x s <;> cases hs' : x s' <;> simp_all

/-- A run on a part of the state is in lockstep when the part is. -/
theorem zoom {get : σ → τ} {put : σ → τ → σ} {P : τ → τ → Prop} {y : EStateM ε τ α}
    (h : Lockstep P y) (hget : ∀ s s', R s s' → P (get s) (get s'))
    (hput : ∀ s s' t t', R s s' → P t t' → R (put s t) (put s' t')) :
    Lockstep R (Foundation.zoom get put y) := by
  intro s s' hR
  obtain ⟨hanswer, hstate⟩ := h _ _ (hget s s' hR)
  rw [endState_zoom, endState_zoom]
  refine ⟨?_, hput _ _ _ _ hR hstate⟩
  unfold Foundation.zoom
  cases hs : y (get s) <;> cases hs' : y (get s') <;> simp_all

/-- A loop is in lockstep when its steps are. -/
theorem foldlM {γ : Type w} {l : List γ} {step : α → γ → EStateM ε σ α}
    (h : ∀ a, ∀ c ∈ l, Lockstep R (step a c)) (a : α) : Lockstep R (l.foldlM step a) := by
  induction l generalizing a with
  | nil => exact .pure a
  | cons c l ih =>
      rw [List.foldlM_cons]
      exact .bind (h a c (by simp)) fun a' => ih (fun a c hc => h a c (by simp [hc])) a'

theorem forM {γ : Type w} {l : List γ} {step : γ → EStateM ε σ PUnit}
    (h : ∀ c ∈ l, Lockstep R (step c)) : Lockstep R (forM l step) := by
  induction l with
  | nil => exact .pure _
  | cons c l ih =>
      rw [List.forM_cons]
      exact .bind (h c (by simp)) fun _ => ih fun c hc => h c (by simp [hc])

end Lockstep

end RpcSpec.Foundation
