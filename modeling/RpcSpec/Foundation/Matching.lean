import RpcSpec.Foundation.Moves
import RpcSpec.Foundation.Agreement
set_option autoImplicit false

/-!
# Two computations run side by side

`Matches E R`: both computations return, related values, or both fail, with related
errors.  `RunsMatch S E R`: so do they from related states, and the states they leave are
related.  The two may be different programs over different states.
-/

namespace RpcSpec.Foundation

universe v w

variable {ε ε' σ τ α α' β β' : Type} {γ : Type v} {δ : Type w}

/-- Both return, related values, or both fail, with related errors. -/
inductive Matches (E : ε → ε' → Prop) (R : α → β → Prop) : Except ε α → Except ε' β → Prop where
  | ok {a : α} {b : β} (h : R a b) : Matches E R (.ok a) (.ok b)
  | error {e : ε} {e' : ε'} (h : E e e') : Matches E R (.error e) (.error e')

namespace Matches

variable {E : ε → ε' → Prop} {R : α → β → Prop} {S : α' → β' → Prop} {x : Except ε α}
  {y : Except ε' β}

theorem mono {E' : ε → ε' → Prop} {R' : α → β → Prop} (h : Matches E R x y)
    (hE : ∀ e e', E e e' → E' e e') (hR : ∀ a b, R a b → R' a b) : Matches E' R' x y := by
  cases h with
  | ok h => exact .ok (hR _ _ h)
  | error h => exact .error (hE _ _ h)

theorem refl {E : ε → ε → Prop} {R : α → α → Prop} (hE : ∀ e, E e e) (hR : ∀ a, R a a)
    (x : Except ε α) : Matches E R x x := by
  cases x with
  | ok a => exact .ok (hR a)
  | error e => exact .error (hE e)

/-- Each returns where the other does; how they fail is left open. -/
theorem of_follows {x : Except ε α} {y : Except ε β} (h : Follows R x y)
    (h' : Follows (fun _ _ => True) y x) : Matches (fun _ _ => True) R x y := by
  cases x with
  | ok a =>
      obtain ⟨b, rfl, hab⟩ := h a rfl
      exact .ok hab
  | error e =>
      cases y with
      | ok b =>
          obtain ⟨a, ha, -⟩ := h' b rfl
          cases ha
      | error e' => exact .error trivial

/-- A failure is matched by a failure only. -/
theorem exists_error {e : ε} (h : Matches E R (.error e) y) : ∃ e', y = .error e' ∧ E e e' := by
  cases h with
  | error h => exact ⟨_, rfl, h⟩

/-- One error or one value. -/
theorem eq {x y : Except ε α} {R : α → α → Prop} (hR : ∀ a b, R a b → a = b)
    (h : Matches Eq R x y) : x = y := by
  cases h with
  | ok h => rw [hR _ _ h]
  | error h => rw [h]

/-- Computations that match up to equality of values return the same values. -/
theorem ok_iff {x y : Except ε α} {E : ε → ε → Prop} (h : Matches E Eq x y) {a : α} :
    x = .ok a ↔ y = .ok a := by
  cases h with
  | ok h => rw [h]
  | error _ => exact ⟨nofun, nofun⟩

/-- Matching is kept by what follows on both sides. -/
theorem bind {f : α → Except ε α'} {g : β → Except ε' β'} (h : Matches E R x y)
    (hfg : ∀ a b, R a b → Matches E S (f a) (g b)) : Matches E S (x >>= f) (y >>= g) := by
  cases h with
  | ok h => exact hfg _ _ h
  | error h => exact .error h

theorem map {f : α → α'} {g : β → β'} (h : Matches E R x y)
    (hfg : ∀ a b, R a b → S (f a) (g b)) : Matches E S (f <$> x) (g <$> y) := by
  cases h with
  | ok h => exact .ok (hfg _ _ h)
  | error h => exact .error h

/-- Renamed errors match when the renamings do. -/
theorem mapError {ε₁ ε₁' : Type} {E' : ε₁ → ε₁' → Prop} {rename : ε → ε₁}
    {rename' : ε' → ε₁'} (h : Matches E R x y)
    (hE : ∀ e e', E e e' → E' (rename e) (rename' e')) :
    Matches E' R (x.mapError rename) (y.mapError rename') := by
  cases h with
  | ok h => exact .ok h
  | error h => exact .error (hE _ _ h)

theorem forM {P : γ → δ → Prop} {xs : List γ} {ys : List δ} {f : γ → Except ε PUnit}
    {g : δ → Except ε' PUnit} (hxs : List.Forall₂ P xs ys)
    (h : ∀ c d, P c d → Matches E Eq (f c) (g d)) :
    Matches E Eq (forM xs f) (forM ys g) := by
  induction hxs with
  | nil => exact .ok rfl
  | cons hcd _ ih =>
      rw [List.forM_cons, List.forM_cons]
      exact (h _ _ hcd).bind fun _ _ _ => ih

/-- Loops over matching lists give matching lists. -/
theorem mapM {P : γ → δ → Prop} {xs : List γ} {ys : List δ} {f : γ → Except ε α}
    {g : δ → Except ε' β} (hxs : List.Forall₂ P xs ys)
    (h : ∀ c d, P c d → Matches E R (f c) (g d)) :
    Matches E (List.Forall₂ R) (xs.mapM f) (ys.mapM g) := by
  induction hxs with
  | nil => exact .ok .nil
  | cons hcd _ ih =>
      rw [List.mapM_cons, List.mapM_cons]
      apply (h _ _ hcd).bind
      intro a b hab
      exact ih.bind fun _ _ hrest => .ok (.cons hab hrest)

end Matches

/-! ## Over a state -/

/-- Two results that match, with related states. -/
inductive ResultsMatch (S : σ → τ → Prop) (E : ε → ε' → Prop) (R : α → β → Prop) :
    EStateM.Result ε σ α → EStateM.Result ε' τ β → Prop where
  | ok {a : α} {b : β} {s : σ} {t : τ} (h : R a b) (hstate : S s t) :
      ResultsMatch S E R (.ok a s) (.ok b t)
  | error {e : ε} {e' : ε'} {s : σ} {t : τ} (h : E e e') (hstate : S s t) :
      ResultsMatch S E R (.error e s) (.error e' t)

/-- Results that match have answers that match. -/
theorem ResultsMatch.answer {S : σ → τ → Prop} {E : ε → ε' → Prop} {R : α → β → Prop}
    {r : EStateM.Result ε σ α} {r' : EStateM.Result ε' τ β} (h : ResultsMatch S E R r r') :
    Matches E R (answer r) (Foundation.answer r') := by
  cases h with
  | ok h => exact .ok h
  | error h => exact .error h

/-- From related states the runs match. -/
def RunsMatch (S : σ → τ → Prop) (E : ε → ε' → Prop) (R : α → β → Prop) (x : EStateM ε σ α)
    (y : EStateM ε' τ β) : Prop :=
  ∀ s t, S s t → ResultsMatch S E R (x s) (y t)

namespace RunsMatch

variable {S : σ → τ → Prop} {E : ε → ε' → Prop} {R : α → β → Prop} {R' : α' → β' → Prop}
  {x : EStateM ε σ α} {y : EStateM ε' τ β}

theorem endState (h : RunsMatch S E R x y) {s : σ} {t : τ} (hst : S s t) :
    S (endState x s) (Foundation.endState y t) := by
  have hrun := h s t hst
  unfold Foundation.endState
  generalize x s = r, y t = r' at hrun
  cases hrun with
  | ok _ hstate => exact hstate
  | error _ hstate => exact hstate

/-- One program from one state. -/
theorem same {E : ε → ε → Prop} (hE : ∀ e, E e e) (x : EStateM ε σ α) : RunsMatch Eq E Eq x x := by
  rintro s _ rfl
  cases x s with
  | ok a s' => exact .ok rfl rfl
  | error e s' => exact .error (hE e) rfl

theorem pure {a : α} {b : β} (h : R a b) :
    RunsMatch S E R (pure a : EStateM ε σ α) (pure b : EStateM ε' τ β) := fun _ _ hst => .ok h hst

theorem throw {e : ε} {e' : ε'} (h : E e e') :
    RunsMatch S E R (throw e : EStateM ε σ α) (throw e' : EStateM ε' τ β) :=
  fun _ _ hst => .error h hst

/-- A computation that only looks runs in step with one it matches. -/
theorem monadLift {u : Except ε α} {v : Except ε' β} (h : Matches E R u v) :
    RunsMatch S E R (monadLift u : EStateM ε σ α) (monadLift v : EStateM ε' τ β) := by
  cases h with
  | ok h => exact .pure h
  | error h => exact .throw h

/-- Running in step is kept by what follows on both sides. -/
theorem bind {f : α → EStateM ε σ α'} {g : β → EStateM ε' τ β'} (h : RunsMatch S E R x y)
    (hfg : ∀ a b, R a b → RunsMatch S E R' (f a) (g b)) :
    RunsMatch S E R' (x >>= f) (y >>= g) := by
  intro s t hst
  change ResultsMatch S E R' (EStateM.bind x f s) (EStateM.bind y g t)
  unfold EStateM.bind
  have hrun := h s t hst
  generalize x s = r, y t = r' at hrun
  cases hrun with
  | ok hab hstate => exact hfg _ _ hab _ _ hstate
  | error herror hstate => exact .error herror hstate

/-- What goes on after the states are read. -/
theorem get_bind {f : σ → EStateM ε σ α} {g : τ → EStateM ε' τ β}
    (h : ∀ s t, S s t → RunsMatch S E R (f s) (g t)) : RunsMatch S E R (get >>= f) (get >>= g) :=
  fun s t hst => h s t hst s t hst

theorem mapFailure {ε₁ ε₁' : Type} {E' : ε₁ → ε₁' → Prop} {rename : ε → ε₁}
    {rename' : ε' → ε₁'} (h : RunsMatch S E R x y)
    (hE : ∀ e e', E e e' → E' (rename e) (rename' e')) :
    RunsMatch S E' R (Foundation.mapFailure rename x) (Foundation.mapFailure rename' y) := by
  intro s t hst
  unfold Foundation.mapFailure
  have hrun := h s t hst
  generalize x s = r, y t = r' at hrun
  cases hrun with
  | ok hab hstate => exact .ok hab hstate
  | error herror hstate => exact .error (hE _ _ herror) hstate

/-- Runs on a part of the state are in step when the parts are and can be put back. -/
theorem zoom {σ' τ' : Type} {P : σ' → τ' → Prop} {get : σ → σ'} {put : σ → σ' → σ}
    {get' : τ → τ'} {put' : τ → τ' → τ} {u : EStateM ε σ' α} {v : EStateM ε' τ' β}
    (h : RunsMatch P E R u v) (hget : ∀ s t, S s t → P (get s) (get' t))
    (hput : ∀ s t s' t', S s t → P s' t' → S (put s s') (put' t t')) :
    RunsMatch S E R (Foundation.zoom get put u) (Foundation.zoom get' put' v) := by
  intro s t hst
  unfold Foundation.zoom
  have hrun := h _ _ (hget s t hst)
  generalize u (get s) = r, v (get' t) = r' at hrun
  cases hrun with
  | ok hab hstate => exact .ok hab (hput _ _ _ _ hst hstate)
  | error herror hstate => exact .error herror (hput _ _ _ _ hst hstate)

/-- Loops over matching lists run in step. -/
theorem foldlM {P : γ → δ → Prop} {xs : List γ} {ys : List δ} {step : α → γ → EStateM ε σ α}
    {step' : β → δ → EStateM ε' τ β} (hxs : List.Forall₂ P xs ys)
    (h : ∀ a b c d, R a b → P c d → RunsMatch S E R (step a c) (step' b d)) {a : α} {b : β}
    (hab : R a b) : RunsMatch S E R (xs.foldlM step a) (ys.foldlM step' b) := by
  induction hxs generalizing a b with
  | nil => exact .pure hab
  | cons hcd _ ih =>
      rw [List.foldlM_cons, List.foldlM_cons]
      exact .bind (h _ _ _ _ hab hcd) fun _ _ hnext => ih hnext

end RunsMatch

end RpcSpec.Foundation
