import RpcSpec.Foundation.Faults
set_option autoImplicit false

/-!
# From where a run starts to where it ends

A computation over a state leaves a state behind whether it returns or fails.
`Moves R` says that the state it leaves stands in a relation to the one it started
from; for a preorder the rules compose.
-/

namespace RpcSpec.Foundation

universe w

variable {ε σ τ : Type} {α β : Type}

/-- The state left by a run, however it ends. -/
def endState (x : EStateM ε σ α) (s : σ) : σ :=
  match x s with
  | .ok _ s' => s'
  | .error _ s' => s'

/-- What a run returns or fails with, without the state it leaves. -/
def answer (r : EStateM.Result ε σ α) : Except ε α :=
  match r with
  | .ok a _ => .ok a
  | .error e _ => .error e

@[simp] theorem answer_ok (a : α) (s : σ) :
    answer (.ok a s : EStateM.Result ε σ α) = .ok a := rfl

@[simp] theorem answer_error (e : ε) (s : σ) :
    answer (.error e s : EStateM.Result ε σ α) = .error e := rfl

/-- Every run ends in a state that stands in the relation to where it started. -/
def Moves (R : σ → σ → Prop) (x : EStateM ε σ α) : Prop := ∀ s, R s (endState x s)

theorem endState_of_ok {x : EStateM ε σ α} {s s' : σ} {a : α} (h : x s = .ok a s') :
    endState x s = s' := by
  rw [endState, h]

theorem endState_of_error {x : EStateM ε σ α} {s s' : σ} {e : ε} (h : x s = .error e s') :
    endState x s = s' := by
  rw [endState, h]

theorem endState_monadLift (y : Except ε α) (s : σ) :
    endState (monadLift y : EStateM ε σ α) s = s := by
  cases y <;> rfl

/-- A run on a part of the state ends with the part put back. -/
theorem endState_zoom (get : σ → τ) (put : σ → τ → σ) (x : EStateM ε τ α) (s : σ) :
    endState (zoom get put x) s = put s (endState x (get s)) := by
  unfold endState zoom
  cases x (get s) <;> rfl

theorem endState_mapFailure {ε' : Type} (rename : ε → ε') (x : EStateM ε σ α) (s : σ) :
    endState (mapFailure rename x) s = endState x s := by
  unfold endState mapFailure
  cases x s <;> rfl

/-- The second computation starts where the first ended, unless that failed. -/
theorem endState_bind (x : EStateM ε σ α) (f : α → EStateM ε σ β) (s : σ) :
    endState (x >>= f) s =
      match x s with
      | .ok a s' => endState (f a) s'
      | .error _ s' => s' := by
  change endState (EStateM.bind x f) s = _
  unfold endState EStateM.bind
  cases x s <;> rfl

/-- The state a run that returns leaves. -/
def leftState (x : EStateM ε σ α) (s : σ) : Option σ :=
  match x s with
  | .ok _ s' => some s'
  | .error _ _ => none

/-- A state is left by a run that succeeds, and it is the one the run ends in. -/
theorem leftState_eq_some_iff {x : EStateM ε σ PUnit} {s s' : σ} :
    leftState x s = some s' ↔ x s = .ok () s' := by
  unfold leftState
  cases x s <;> simp

theorem leftState_monadLift (y : Except ε α) (s : σ) :
    leftState (monadLift y : EStateM ε σ α) s = y.toOption.map fun _ => s := by
  cases y <;> rfl

theorem leftState_mapFailure {ε' : Type} (rename : ε → ε') (x : EStateM ε σ α) (s : σ) :
    leftState (mapFailure rename x) s = leftState x s := by
  unfold leftState mapFailure
  cases x s <;> rfl

/-- A run on a part of the state leaves the part put back. -/
theorem leftState_zoom (get : σ → τ) (put : σ → τ → σ) (x : EStateM ε τ α) (s : σ) :
    leftState (zoom get put x) s = (leftState x (get s)).map (put s) := by
  unfold leftState zoom
  cases x (get s) <;> rfl

/-- The second run starts where the first, whose value it has no use for, has left off. -/
theorem leftState_seq (x : EStateM ε σ α) (y : EStateM ε σ β) (s : σ) :
    leftState (x >>= fun _ => y) s = (leftState x s).bind (leftState y) := by
  change leftState (EStateM.bind x _) s = _
  unfold leftState EStateM.bind
  cases x s <;> rfl

namespace Moves

variable {R R' : σ → σ → Prop} {x : EStateM ε σ α} {f : α → EStateM ε σ β}

/-- Moving within a relation is moving within a weaker one. -/
theorem mono (h : Moves R x) (hR : ∀ s s', R s s' → R' s s') : Moves R' x :=
  fun s => hR _ _ (h s)

theorem pure (hrefl : ∀ s, R s s) (a : α) : Moves R (pure a : EStateM ε σ α) := fun s => hrefl s

theorem monadLift (hrefl : ∀ s, R s s) (y : Except ε α) :
    Moves R (monadLift y : EStateM ε σ α) := fun s => by
  rw [endState_monadLift]
  exact hrefl s

/-- Two moves in a row stay within a transitive relation. -/
theorem bind (htrans : ∀ s s' s'', R s s' → R s' s'' → R s s'') (hx : Moves R x)
    (hf : ∀ a, Moves R (f a)) : Moves R (x >>= f) := fun s => by
  have hstart := hx s
  rw [endState_bind]
  unfold endState at hstart
  cases hrun : x s with
  | ok a s' =>
      rw [hrun] at hstart
      exact htrans _ _ _ hstart (hf a s')
  | error e s' =>
      rw [hrun] at hstart
      exact hstart

/-- What is read first is known of what follows. -/
theorem get_bind {g : σ → EStateM ε σ β} (h : ∀ s, R s (endState (g s) s)) :
    Moves R (get >>= g) := h

theorem mapFailure {ε' : Type} {rename : ε → ε'} (h : Moves R x) :
    Moves R (Foundation.mapFailure rename x) := fun s => by
  rw [endState_mapFailure]
  exact h s

/-- A loop, whatever its steps return. -/
theorem foldlM {γ : Type w} {l : List γ} {step : α → γ → EStateM ε σ α} (hrefl : ∀ s, R s s)
    (htrans : ∀ s s' s'', R s s' → R s' s'' → R s s'') (h : ∀ a, ∀ c ∈ l, Moves R (step a c))
    (a : α) : Moves R (l.foldlM step a) := by
  induction l generalizing a with
  | nil => exact .pure hrefl a
  | cons c l ih =>
      rw [List.foldlM_cons]
      exact .bind htrans (h a c (by simp)) fun a' => ih (fun a c hc => h a c (by simp [hc])) a'

/-- A loop stays within a reflexive and transitive relation when its steps do. -/
theorem forM {γ : Type w} {l : List γ} {step : γ → EStateM ε σ PUnit} (hrefl : ∀ s, R s s)
    (htrans : ∀ s s' s'', R s s' → R s' s'' → R s s'') (h : ∀ c ∈ l, Moves R (step c)) :
    Moves R (forM l step) := by
  induction l with
  | nil => exact .pure hrefl _
  | cons c l ih =>
      rw [List.forM_cons]
      exact .bind htrans (h c (by simp)) fun _ => ih fun c hc => h c (by simp [hc])

/-- A run on a part of the state moves the whole by moving the part. -/
theorem zoom {get : σ → τ} {put : σ → τ → σ} {P : τ → τ → Prop} {y : EStateM ε τ α}
    (h : Moves P y) (hput : ∀ s t, P (get s) t → R s (put s t)) :
    Moves R (Foundation.zoom get put y) := fun s => by
  rw [endState_zoom]
  exact hput s _ (h _)

end Moves

end RpcSpec.Foundation
