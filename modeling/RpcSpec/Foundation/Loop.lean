import Mathlib.Data.Nat.Basic
set_option autoImplicit false

/-!
# While loops with returns

A C-style loop `while (guard) body` whose body may fall through to the next
pass, return from the enclosing function, or evaluate an expression the
language leaves undefined.  Nothing here assumes that the loop ends: the
executable `runWhile` takes the number of passes it may make, and a run that
needs more says so instead of inventing a result.

The relation `Reaches` and the executable `runWhile` describe one another.  A
proof about a particular loop supplies what one pass does and uses the rules
below for the whole run.
-/

namespace RpcSpec.Foundation

universe u v

/-- What one pass through a loop body does. -/
inductive Pass (S : Type u) (R : Type v) where
  /-- the body falls through and the guard is tested again -/
  | next (state : S)
  /-- the body returns from the function -/
  | ret (result : R)
  /-- the body evaluates an expression without a defined value -/
  | undefined
  deriving DecidableEq, Repr

/-- How a bounded run of a loop ends. -/
inductive Ending (R : Type v) where
  | returned (result : R)
  | undefined
  /-- the loop wants another pass than the bound allows -/
  | outOfPasses
  deriving DecidableEq, Repr

/-- A loop: its guard, its body, and what the function returns once the guard
is false. -/
structure While (S : Type u) (R : Type v) where
  guard : S → Bool
  body : S → Pass S R
  exit : S → R

variable {S : Type u} {R : Type v}

namespace While

/-- Run a loop for at most the given number of passes through its body. -/
def run (loop : While S R) : Nat → S → Ending R
  | 0, s => if loop.guard s then .outOfPasses else .returned (loop.exit s)
  | n + 1, s =>
      if loop.guard s then
        match loop.body s with
        | .next s' => run loop n s'
        | .ret r => .returned r
        | .undefined => .undefined
      else .returned (loop.exit s)

/-- The function the loop is the body of returns `r`. -/
def Returns (loop : While S R) (s : S) (r : R) : Prop :=
  ∃ n, loop.run n s = .returned r

/-- `s'` is the state of the loop after some number of passes from `s`. -/
inductive Reaches (loop : While S R) : S → S → Prop
  | refl (s : S) : Reaches loop s s
  | step {s s' s'' : S} : loop.guard s = true → loop.body s = .next s' →
      Reaches loop s' s'' → Reaches loop s s''

theorem Reaches.trans {loop : While S R} {s s' s'' : S}
    (h : loop.Reaches s s') (h' : loop.Reaches s' s'') : loop.Reaches s s'' := by
  induction h with
  | refl _ => exact h'
  | step hguard hbody _ ih => exact .step hguard hbody (ih h')

/-- One more pass at the far end of a run. -/
theorem Reaches.snoc {loop : While S R} {s s' s'' : S} (h : loop.Reaches s s')
    (hguard : loop.guard s' = true) (hbody : loop.body s' = .next s'') :
    loop.Reaches s s'' :=
  h.trans (.step hguard hbody (.refl s''))

/-- A property that every pass preserves holds in every state a run reaches. -/
theorem Reaches.invariant (loop : While S R) (I : S → Prop)
    (hstep : ∀ s s', I s → loop.guard s = true → loop.body s = .next s' → I s')
    {s s' : S} (h : loop.Reaches s s') (hs : I s) : I s' := by
  induction h with
  | refl _ => exact hs
  | step hguard hbody _ ih => exact ih (hstep _ _ hs hguard hbody)

/-! ## One pass -/

theorem run_of_guard_false {loop : While S R} {s : S} (h : loop.guard s = false)
    (n : Nat) : loop.run n s = .returned (loop.exit s) := by
  cases n <;> simp [run, h]

theorem run_succ_of_next {loop : While S R} {s s' : S} (hguard : loop.guard s = true)
    (hbody : loop.body s = .next s') (n : Nat) :
    loop.run (n + 1) s = loop.run n s' := by
  simp [run, hguard, hbody]

theorem run_succ_of_ret {loop : While S R} {s : S} {r : R}
    (hguard : loop.guard s = true) (hbody : loop.body s = .ret r) (n : Nat) :
    loop.run (n + 1) s = .returned r := by
  simp [run, hguard, hbody]

theorem run_ne_returned_of_undefined {loop : While S R} {s : S}
    (hguard : loop.guard s = true) (hbody : loop.body s = .undefined) (n : Nat)
    (r : R) : loop.run n s ≠ .returned r := by
  cases n <;> simp [run, hguard, hbody]

/-! ## Whole runs -/

/-- A larger bound does not change what a run returns. -/
theorem run_returned_add {loop : While S R} {r : R} :
    ∀ {n : Nat} {s : S}, loop.run n s = .returned r →
      ∀ k, loop.run (n + k) s = .returned r := by
  intro n
  induction n with
  | zero =>
      intro s h k
      cases hguard : loop.guard s with
      | false =>
          rw [run_of_guard_false hguard] at h ⊢
          exact h
      | true => simp [run, hguard] at h
  | succ n ih =>
      intro s h k
      cases hguard : loop.guard s with
      | false =>
          rw [run_of_guard_false hguard] at h ⊢
          exact h
      | true =>
          rw [Nat.add_right_comm]
          cases hbody : loop.body s with
          | next s' =>
              rw [run_succ_of_next hguard hbody] at h ⊢
              exact ih h k
          | ret r' =>
              rw [run_succ_of_ret hguard hbody] at h ⊢
              exact h
          | undefined => exact absurd h (run_ne_returned_of_undefined hguard hbody _ _)

/-- What a loop returns does not depend on the bound it was found with. -/
theorem Returns.unique {loop : While S R} {s : S} {r r' : R}
    (h : loop.Returns s r) (h' : loop.Returns s r') : r = r' := by
  obtain ⟨n, hn⟩ := h
  obtain ⟨m, hm⟩ := h'
  have h1 := run_returned_add hn m
  have h2 := run_returned_add hm n
  rw [Nat.add_comm m n, h1] at h2
  exact Ending.returned.inj h2

theorem returns_of_guard_false {loop : While S R} {s : S}
    (h : loop.guard s = false) : loop.Returns s (loop.exit s) :=
  ⟨0, run_of_guard_false h 0⟩

theorem returns_of_ret {loop : While S R} {s : S} {r : R}
    (hguard : loop.guard s = true) (hbody : loop.body s = .ret r) :
    loop.Returns s r :=
  ⟨1, run_succ_of_ret hguard hbody 0⟩

theorem returns_iff_of_next {loop : While S R} {s s' : S} {r : R}
    (hguard : loop.guard s = true) (hbody : loop.body s = .next s') :
    loop.Returns s r ↔ loop.Returns s' r := by
  constructor
  · rintro ⟨n, hn⟩
    have hn' := run_returned_add hn 1
    rw [run_succ_of_next hguard hbody] at hn'
    exact ⟨n, hn'⟩
  · rintro ⟨n, hn⟩
    exact ⟨n + 1, by rw [run_succ_of_next hguard hbody, hn]⟩

/-- A run may be cut at any state it reaches. -/
theorem Reaches.returns_iff {loop : While S R} {s s' : S} {r : R}
    (h : loop.Reaches s s') : loop.Returns s r ↔ loop.Returns s' r := by
  induction h with
  | refl _ => exact Iff.rfl
  | step hguard hbody _ ih => exact (returns_iff_of_next hguard hbody).trans ih

/-- A loop that comes to an undefined expression returns nothing. -/
theorem Reaches.not_returns_of_undefined {loop : While S R} {s s' : S}
    (h : loop.Reaches s s') (hguard : loop.guard s' = true)
    (hbody : loop.body s' = .undefined) (r : R) : ¬ loop.Returns s r := by
  rw [h.returns_iff]
  rintro ⟨n, hn⟩
  exact run_ne_returned_of_undefined hguard hbody n r hn

/-- The last state of a run that returns: it leaves the loop there, through the
guard or from the body. -/
theorem Returns.last {loop : While S R} {r : R} :
    ∀ {n : Nat} {s : S}, loop.run n s = .returned r →
      ∃ s', loop.Reaches s s' ∧
        ((loop.guard s' = false ∧ r = loop.exit s') ∨
          (loop.guard s' = true ∧ loop.body s' = .ret r)) := by
  intro n
  induction n with
  | zero =>
      intro s h
      cases hguard : loop.guard s with
      | false =>
          rw [run_of_guard_false hguard] at h
          exact ⟨s, .refl s, .inl ⟨hguard, (Ending.returned.inj h).symm⟩⟩
      | true => simp [run, hguard] at h
  | succ n ih =>
      intro s h
      cases hguard : loop.guard s with
      | false =>
          rw [run_of_guard_false hguard] at h
          exact ⟨s, .refl s, .inl ⟨hguard, (Ending.returned.inj h).symm⟩⟩
      | true =>
          cases hbody : loop.body s with
          | next s' =>
              rw [run_succ_of_next hguard hbody] at h
              obtain ⟨last, hreach, hlast⟩ := ih h
              exact ⟨last, .step hguard hbody hreach, hlast⟩
          | ret r' =>
              rw [run_succ_of_ret hguard hbody] at h
              exact ⟨s, .refl s, .inr ⟨hguard, by rw [hbody, Ending.returned.inj h]⟩⟩
          | undefined => exact absurd h (run_ne_returned_of_undefined hguard hbody _ _)

/-- The variant rule.  When an invariant excludes undefined expressions and
every pass decreases a measure, the loop returns within that many passes. -/
theorem run_of_variant (loop : While S R) (I : S → Prop) (μ : S → Nat)
    (hdefined : ∀ s, I s → loop.guard s = true → loop.body s ≠ .undefined)
    (hstep : ∀ s s', I s → loop.guard s = true → loop.body s = .next s' →
      I s' ∧ μ s' < μ s)
    (hpos : ∀ s, I s → loop.guard s = true → 0 < μ s) :
    ∀ {n : Nat} {s : S}, I s → μ s ≤ n → ∃ r, loop.run n s = .returned r := by
  intro n
  induction n with
  | zero =>
      intro s hs hle
      cases hguard : loop.guard s with
      | false => exact ⟨_, run_of_guard_false hguard 0⟩
      | true =>
          have := hpos s hs hguard
          omega
  | succ n ih =>
      intro s hs hle
      cases hguard : loop.guard s with
      | false => exact ⟨_, run_of_guard_false hguard _⟩
      | true =>
          cases hbody : loop.body s with
          | next s' =>
              obtain ⟨hs', hlt⟩ := hstep s s' hs hguard hbody
              obtain ⟨r, hr⟩ := ih hs' (by omega)
              exact ⟨r, by rw [run_succ_of_next hguard hbody, hr]⟩
          | ret r => exact ⟨r, run_succ_of_ret hguard hbody n⟩
          | undefined => exact absurd hbody (hdefined s hs hguard)

end While

/-! ## Two loops side by side -/

/-- The two passes end alike, or go on in related states. -/
inductive Pass.Alike {S' : Type u} (related : S → S' → Prop) : Pass S R → Pass S' R → Prop
  | next {s : S} {s' : S'} (h : related s s') : Alike related (.next s) (.next s')
  | ret (result : R) : Alike related (.ret result) (.ret result)
  | undefined : Alike related .undefined .undefined

/-- Loops whose passes are alike in related states run alike. -/
theorem While.run_eq_of_alike {S' : Type u} {loop : While S R} {loop' : While S' R}
    (related : S → S' → Prop)
    (hguard : ∀ s s', related s s' → loop'.guard s' = loop.guard s)
    (hexit : ∀ s s', related s s' → loop'.exit s' = loop.exit s)
    (hbody : ∀ s s', related s s' → loop.guard s = true →
      Pass.Alike related (loop.body s) (loop'.body s')) (n : Nat) :
    ∀ {s : S} {s' : S'}, related s s' → loop'.run n s' = loop.run n s := by
  induction n with
  | zero =>
      intro s s' h
      simp only [run, hguard s s' h, hexit s s' h]
  | succ n ih =>
      intro s s' h
      simp only [run, hguard s s' h, hexit s s' h]
      cases hin : loop.guard s with
      | false => rfl
      | true =>
          simp only [if_true]
          generalize hpass : loop.body s = pass
          generalize hpass' : loop'.body s' = pass'
          have halike := hbody s s' h hin
          rw [hpass, hpass'] at halike
          cases halike with
          | next h => exact ih h
          | ret result => rfl
          | undefined => rfl

end RpcSpec.Foundation
