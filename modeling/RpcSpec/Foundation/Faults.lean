import Mathlib.Data.List.Forall2
set_option autoImplicit false

/-!
# Computations that may fail and may fault

A program that answers with a value or with an error of its own may also go
wrong: it reads what is not there, or breaks the contract of what it calls.
`Failure` keeps the two apart, and `Safe` says of a computation that it does not
go wrong and what holds of the value it returns.  `SafeRun` says the same of a
computation over a state that errors leave behind.
-/

namespace RpcSpec.Foundation

universe u v w

/-- How a computation ends without a value: it went wrong, or it reports an error. -/
inductive Failure (φ ε : Type) where
  | fault (why : φ)
  | error (reason : ε)
  deriving DecidableEq, Repr

variable {φ ε : Type} {α β : Type}

/-! ## Without a state -/

theorem bind_eq_ok_iff {x : Except ε α} {f : α → Except ε β} {b : β} :
    x >>= f = .ok b ↔ ∃ a, x = .ok a ∧ f a = .ok b := by
  cases x with
  | error e => exact ⟨nofun, fun ⟨_, h, _⟩ => nomatch h⟩
  | ok a => exact ⟨fun h => ⟨a, rfl, h⟩, fun ⟨_, h, h'⟩ => Except.ok.inj h ▸ h'⟩

theorem pure_eq_ok_iff {a b : α} : (pure a : Except ε α) = .ok b ↔ a = b :=
  ⟨Except.ok.inj, congrArg Except.ok⟩

theorem map_eq_ok_iff {x : Except ε α} {f : α → β} {b : β} :
    f <$> x = .ok b ↔ ∃ a, x = .ok a ∧ f a = b := by
  cases x with
  | error e => exact ⟨nofun, fun ⟨_, h, _⟩ => nomatch h⟩
  | ok a => simp [Functor.map, Except.map]

/-- The computation does not fault, and a value it returns satisfies `Q`. -/
def Safe (x : Except (Failure φ ε) α) (Q : α → Prop) : Prop :=
  match x with
  | .ok a => Q a
  | .error (.error _) => True
  | .error (.fault _) => False

namespace Safe

variable {x : Except (Failure φ ε) α} {f : α → Except (Failure φ ε) β}
  {Q Q' : α → Prop} {R : β → Prop}

@[simp] theorem pure_iff (a : α) :
    Safe (pure a : Except (Failure φ ε) α) Q ↔ Q a := Iff.rfl

@[simp] theorem ok_iff (a : α) : Safe (.ok a : Except (Failure φ ε) α) Q ↔ Q a := Iff.rfl

@[simp] theorem error_iff (reason : ε) :
    Safe (throw (.error reason) : Except (Failure φ ε) α) Q ↔ True := Iff.rfl

@[simp] theorem fault_iff (why : φ) :
    Safe (throw (.fault why) : Except (Failure φ ε) α) Q ↔ False := Iff.rfl

/-- A safe computation ends in a value or in an error of its own. -/
theorem iff_ok_or_error :
    Safe x Q ↔ (∃ a, x = .ok a ∧ Q a) ∨ ∃ reason, x = .error (.error reason) := by
  rcases x with (_ | _) | _ <;> simp [Safe]

theorem mono (h : Safe x Q) (hQ : ∀ a, Q a → Q' a) : Safe x Q' := by
  rcases x with (_ | _) | a
  · exact h
  · trivial
  · exact hQ a h

/-- The value returned satisfies what is known of it. -/
theorem of_ok (h : Safe x Q) {a : α} (hx : x = .ok a) : Q a := by
  subst hx
  exact h

theorem and_ok (h : Safe x Q) : Safe x fun a => x = .ok a ∧ Q a := by
  rcases x with (_ | _) | a
  · exact h
  · trivial
  · exact ⟨rfl, h⟩

theorem bind (hx : Safe x Q) (hf : ∀ a, Q a → Safe (f a) R) : Safe (x >>= f) R := by
  rcases x with (_ | _) | a
  · exact hx
  · trivial
  · exact hf a hx

theorem map {g : α → β} (hx : Safe x fun a => R (g a)) : Safe (g <$> x) R := by
  rcases x with (_ | _) | a
  · exact hx
  · trivial
  · exact hx

/-- Errors may be renamed, so long as they stay errors. -/
theorem mapError {ε' : Type} {rename : Failure φ ε → Failure φ ε'}
    (hrename : ∀ reason, ∃ reason', rename (.error reason) = .error reason') (hx : Safe x Q) :
    Safe (x.mapError rename) Q := by
  rcases x with (_ | reason) | a
  · exact hx.elim
  · obtain ⟨reason', hreason⟩ := hrename reason
    simp [Except.mapError, Safe, hreason]
  · exact hx

/-- A loop that only checks: each element has passed its check at the end. -/
theorem forM {l : List α} {check : α → Except (Failure φ ε) PUnit}
    (h : ∀ a ∈ l, Safe (check a) fun _ => Q a) : Safe (forM l check) fun _ => ∀ a ∈ l, Q a := by
  induction l with
  | nil => simp
  | cons a l ih =>
      rw [List.forM_cons]
      apply (h a (by simp)).bind
      intro _ ha
      refine (ih fun b hb => h b (by simp [hb])).mono fun _ hl b hb => ?_
      rcases List.mem_cons.mp hb with rfl | hb
      · exact ha
      · exact hl b hb

/-- A loop that collects: the results stand to the elements as each step says. -/
theorem mapM {l : List α} {P : α → β → Prop}
    (h : ∀ a ∈ l, Safe (f a) (P a)) : Safe (l.mapM f) fun bs => List.Forall₂ P l bs := by
  induction l with
  | nil => simp
  | cons a l ih =>
      rw [List.mapM_cons]
      apply (h a (by simp)).bind
      intro b hb
      exact (ih fun c hc => h c (by simp [hc])).bind fun bs hbs => .cons hb hbs

/-- A loop that accumulates: what holds before a step holds after it. -/
theorem foldlM {l : List α} {step : β → α → Except (Failure φ ε) β} {b : β}
    (h : ∀ b, ∀ a ∈ l, R b → Safe (step b a) R) (hb : R b) : Safe (l.foldlM step b) R := by
  induction l generalizing b with
  | nil => exact hb
  | cons a l ih =>
      rw [List.foldlM_cons]
      exact (h b a (by simp) hb).bind fun b' hb' => ih (fun c d hd => h c d (by simp [hd])) hb'

end Safe

/-! ## Over a state -/

variable {σ : Type}

/-- The state stays as it was, whatever the computation ends in. -/
instance liftExcept : MonadLift (Except ε) (EStateM ε σ) where
  monadLift x s :=
    match x with
    | .ok a => .ok a s
    | .error e => .error e s

theorem monadLift_ok_bind {x : Except ε α} {a : α} (h : x = .ok a) (f : α → EStateM ε σ β)
    (s : σ) : (monadLift x >>= f : EStateM ε σ β) s = f a s := by
  rw [h]
  rfl

/-- A loop of which no step does anything. -/
theorem forM_fixed {γ : Type w} {l : List γ} {step : γ → EStateM ε σ PUnit} {s : σ}
    (h : ∀ c ∈ l, step c s = .ok () s) : forM l step s = .ok () s := by
  induction l with
  | nil => rfl
  | cons c l ih =>
      rw [List.forM_cons]
      change EStateM.bind (step c) _ s = _
      rw [EStateM.bind, h c (by simp)]
      exact ih fun c hc => h c (by simp [hc])

/-- Reading the state, working on the copy and reading it again is reading it once. -/
theorem get_lift_get_lift (f : σ → Except ε Unit) (g : σ → Except ε α) :
    (do let s ← get; monadLift (f s); let s ← get; monadLift (g s) : EStateM ε σ α) =
      (do let s ← get; monadLift (do f s; g s)) := by
  funext s
  change EStateM.bind (monadLift (f s)) (fun _ s' => (monadLift (g s') : EStateM ε σ α) s') s =
    (monadLift (f s >>= fun _ => g s) : EStateM ε σ α) s
  cases f s <;> rfl

/-- A loop fails with its first failing step, and runs no later one. -/
theorem foldlM_eq_error_iff {γ : Type w} {l : List γ} {step : β → γ → EStateM ε σ β} {b : β}
    {s s' : σ} {e : ε} :
    l.foldlM step b s = .error e s' ↔ ∃ before c after b' s'', l = before ++ c :: after ∧
      before.foldlM step b s = .ok b' s'' ∧ step b' c s'' = .error e s' := by
  constructor
  · intro h
    induction l generalizing b s with
    | nil => cases h
    | cons c l ih =>
        rw [List.foldlM_cons] at h
        change EStateM.bind _ _ s = _ at h
        unfold EStateM.bind at h
        split at h
        · rename_i b' s'' hstep
          obtain ⟨before, d, after, b₂, s₂, rfl, hbefore, hfail⟩ := ih h
          refine ⟨c :: before, d, after, b₂, s₂, rfl, ?_, hfail⟩
          rw [List.foldlM_cons]
          change EStateM.bind _ _ s = _
          rw [EStateM.bind, hstep]
          exact hbefore
        · rename_i hstep
          exact ⟨[], c, l, b, s, rfl, rfl, hstep.trans h⟩
  · rintro ⟨before, c, after, b', s'', rfl, hbefore, hfail⟩
    rw [List.foldlM_append]
    change EStateM.bind _ _ s = _
    rw [EStateM.bind, hbefore]
    change (c :: after).foldlM step b' s'' = _
    rw [List.foldlM_cons]
    change EStateM.bind _ _ s'' = _
    rw [EStateM.bind, hfail]

/-- Run from `s`, the computation does not fault, and if it returns a value then
the value and the state it leaves satisfy `Q`. -/
def SafeRun (x : EStateM (Failure φ ε) σ α) (s : σ) (Q : α → σ → Prop) : Prop :=
  match x s with
  | .ok a s' => Q a s'
  | .error (.error _) _ => True
  | .error (.fault _) _ => False

/-- Run on a part of the state; the part is written back even when the
computation fails. -/
def zoom {τ : Type} (get : σ → τ) (put : σ → τ → σ) (x : EStateM ε τ α) : EStateM ε σ α :=
  fun s =>
    match x (get s) with
    | .ok a t => .ok a (put s t)
    | .error e t => .error e (put s t)

/-- The failures renamed, the state kept. -/
def mapFailure {ε' : Type} (rename : ε → ε') (x : EStateM ε σ α) : EStateM ε' σ α := fun s =>
  match x s with
  | .ok a s' => .ok a s'
  | .error e s' => .error (rename e) s'

namespace SafeRun

variable {x : EStateM (Failure φ ε) σ α} {f : α → EStateM (Failure φ ε) σ β} {s : σ}
  {Q Q' : α → σ → Prop} {R : β → σ → Prop}

@[simp] theorem pure_iff (a : α) :
    SafeRun (pure a : EStateM (Failure φ ε) σ α) s Q ↔ Q a s := Iff.rfl

@[simp] theorem error_iff (reason : ε) :
    SafeRun (throw (.error reason) : EStateM (Failure φ ε) σ α) s Q ↔ True := Iff.rfl

/-- A safe run ends in a value or in an error of its own. -/
theorem ok_or_error (h : SafeRun x s Q) :
    (∃ a s', x s = .ok a s' ∧ Q a s') ∨ ∃ reason s', x s = .error (.error reason) s' := by
  unfold SafeRun at h
  split at h
  · rename_i a s' hx
    exact .inl ⟨a, s', hx, h⟩
  · rename_i reason s' hx
    exact .inr ⟨reason, s', hx⟩
  · exact h.elim

theorem mono (h : SafeRun x s Q) (hQ : ∀ a s', Q a s' → Q' a s') : SafeRun x s Q' := by
  unfold SafeRun at h ⊢
  split at h
  · exact hQ _ _ h
  · trivial
  · exact h

/-- How the run ended is known of what it left. -/
theorem and_run (h : SafeRun x s Q) : SafeRun x s fun a s' => x s = .ok a s' ∧ Q a s' := by
  unfold SafeRun at h ⊢
  split at h
  · exact ⟨‹_›, h⟩
  · trivial
  · exact h

theorem bind (hx : SafeRun x s Q) (hf : ∀ a s', Q a s' → SafeRun (f a) s' R) :
    SafeRun (x >>= f) s R := by
  unfold SafeRun at hx ⊢
  cases hrun : x s with
  | ok a s' =>
      simp only [hrun] at hx
      simpa [SafeRun, Bind.bind, EStateM.bind, hrun] using hf a s' hx
  | error e s' =>
      simp only [hrun] at hx
      cases e with
      | fault why => exact hx.elim
      | error reason => simp [Bind.bind, EStateM.bind, hrun]

theorem get_bind {f : σ → EStateM (Failure φ ε) σ β} (h : SafeRun (f s) s R) :
    SafeRun (get >>= f) s R := h

/-- A step that only reads leaves the state alone. -/
theorem lift {y : Except (Failure φ ε) α} {P : α → Prop} (h : Safe y P) :
    SafeRun (monadLift y : EStateM (Failure φ ε) σ α) s fun a s' => P a ∧ s' = s := by
  rcases y with (_ | _) | a
  · exact h
  · trivial
  · exact ⟨h, rfl⟩

theorem zoom {τ : Type} {get : σ → τ} {put : σ → τ → σ} {y : EStateM (Failure φ ε) τ α}
    {P : α → τ → Prop} (h : SafeRun y (get s) P) :
    SafeRun (Foundation.zoom get put y) s fun a s' => ∃ t, P a t ∧ s' = put s t := by
  unfold SafeRun Foundation.zoom at *
  cases hrun : y (get s) with
  | ok a t =>
      simp only [hrun] at h
      exact ⟨t, h, rfl⟩
  | error e t =>
      simp only [hrun] at h
      cases e with
      | fault why => exact h.elim
      | error reason => trivial

theorem mapFailure {ε' : Type} {rename : Failure φ ε → Failure φ ε'}
    (hrename : ∀ reason, ∃ reason', rename (.error reason) = .error reason')
    (hx : SafeRun x s Q) : SafeRun (Foundation.mapFailure rename x) s Q := by
  unfold SafeRun Foundation.mapFailure at *
  cases hrun : x s with
  | ok a s' => simpa only [hrun] using hx
  | error e s' =>
      simp only [hrun] at hx
      cases e with
      | fault why => exact hx.elim
      | error reason =>
          obtain ⟨reason', hreason⟩ := hrename reason
          simp [hreason]

/-- Where faults stay faults, renaming hides none. -/
theorem of_mapFailure {ε' : Type} {rename : Failure φ ε → Failure φ ε'}
    (hrename : ∀ why, rename (.fault why) = .fault why)
    (hx : SafeRun (Foundation.mapFailure rename x) s Q) : SafeRun x s Q := by
  unfold SafeRun Foundation.mapFailure at *
  cases hrun : x s with
  | ok a s' => simpa only [hrun] using hx
  | error e s' =>
      cases e with
      | fault why => simp [hrun, hrename] at hx
      | error reason => trivial

end SafeRun

end RpcSpec.Foundation
