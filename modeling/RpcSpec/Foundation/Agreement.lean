import Mathlib.Data.List.Forall2
import Mathlib.Tactic.Basic
set_option autoImplicit false

/-!
# Two computations compared

`Returns`: the computation does not fail.  `Agree R`: they fail alike or return related
values.  `Follows R`: where the first returns the second does, a related value; of a
failure of the first nothing is said.
-/

namespace RpcSpec.Foundation

variable {ε α β α' β' : Type}

/-- It does not fail. -/
def Returns (x : Except ε α) : Prop := ∃ a, x = .ok a

namespace Returns

theorem ok (a : α) : Returns (.ok a : Except ε α) := ⟨a, rfl⟩

theorem bind {x : Except ε α} {f : α → Except ε α'} (hx : Returns x) (hf : ∀ a, Returns (f a)) :
    Returns (x >>= f) := by
  obtain ⟨a, rfl⟩ := hx
  exact hf a

theorem map {x : Except ε α} {f : α → α'} (hx : Returns x) : Returns (f <$> x) := by
  obtain ⟨a, rfl⟩ := hx
  exact .ok (f a)

/-- A loop of checks returns when every check does. -/
theorem forM_iff {check : α → Except ε PUnit} {xs : List α} :
    Returns (forM xs check) ↔ ∀ a ∈ xs, Returns (check a) := by
  induction xs with
  | nil => exact ⟨fun _ _ h => (nomatch h), fun _ => .ok _⟩
  | cons x rest ih =>
      rw [List.forM_cons, List.forall_mem_cons, ← ih]
      cases hx : check x with
      | error e => exact ⟨nofun, nofun⟩
      | ok u => exact ⟨fun h => ⟨.ok u, h⟩, fun h => h.2⟩

end Returns

/-- Both return, related values, or both fail, with the same error. -/
inductive Agree (R : α → β → Prop) : Except ε α → Except ε β → Prop where
  | ok {a : α} {b : β} (h : R a b) : Agree R (.ok a) (.ok b)
  | error (e : ε) : Agree R (.error e) (.error e)

namespace Agree

variable {R R' : α → β → Prop} {x : Except ε α} {y : Except ε β}

/-- Agreement carries over to a weaker relation. -/
theorem mono (h : Agree R x y) (hR : ∀ a b, R a b → R' a b) : Agree R' x y := by
  cases h with
  | ok h => exact .ok (hR _ _ h)
  | error e => exact .error e

theorem of_eq {R : α → α → Prop} {x y : Except ε α} (hrefl : ∀ a, R a a) (h : x = y) :
    Agree R x y := by
  subst h
  cases x with
  | ok a => exact .ok (hrefl a)
  | error e => exact .error e

/-- Agreement is kept by what follows on both sides. -/
theorem bind {S : α' → β' → Prop} {f : α → Except ε α'} {g : β → Except ε β'} (h : Agree R x y)
    (hfg : ∀ a b, R a b → Agree S (f a) (g b)) : Agree S (x >>= f) (y >>= g) := by
  cases h with
  | ok h => exact hfg _ _ h
  | error e => exact .error e

theorem map {S : α' → β' → Prop} {f : α → α'} {g : β → β'} (h : Agree R x y)
    (hfg : ∀ a b, R a b → S (f a) (g b)) : Agree S (f <$> x) (g <$> y) := by
  cases h with
  | ok h => exact .ok (hfg _ _ h)
  | error e => exact .error e

/-- Loops whose steps agree give lists that agree element by element. -/
theorem mapM {f : α → Except ε α'} {g : α → Except ε β'} {S : α' → β' → Prop} {xs : List α}
    (h : ∀ a ∈ xs, Agree S (f a) (g a)) : Agree (List.Forall₂ S) (xs.mapM f) (xs.mapM g) := by
  induction xs with
  | nil => exact .ok .nil
  | cons x rest ih =>
      rw [List.mapM_cons, List.mapM_cons]
      apply (h x (by simp)).bind
      intro a b hab
      exact (ih fun a ha => h a (by simp [ha])).bind fun _ _ hrest => .ok (.cons hab hrest)

end Agree

/-- Where the first returns, the second returns a related value. -/
def Follows (R : α → β → Prop) (x : Except ε α) (y : Except ε β) : Prop :=
  ∀ a, x = .ok a → ∃ b, y = .ok b ∧ R a b

namespace Follows

variable {R R' : α → β → Prop} {x : Except ε α} {y : Except ε β}

/-- Agreement is more than following. -/
theorem of_agree (h : Agree R x y) : Follows R x y := by
  rintro a rfl
  cases h with
  | ok h => exact ⟨_, rfl, h⟩

theorem mono (h : Follows R x y) (hR : ∀ a b, R a b → R' a b) : Follows R' x y := fun a ha =>
  let ⟨b, hb, hab⟩ := h a ha
  ⟨b, hb, hR a b hab⟩

theorem refl {R : α → α → Prop} (hrefl : ∀ a, R a a) (x : Except ε α) : Follows R x x :=
  fun a ha => ⟨a, ha, hrefl a⟩

/-- A failure is followed by anything. -/
theorem of_error {e : ε} (h : x = .error e) : Follows R x y := by
  rintro a rfl
  cases h

/-- Following is kept by what comes next on both sides. -/
theorem bind {S : α' → β' → Prop} {f : α → Except ε α'} {g : β → Except ε β'} (h : Follows R x y)
    (hfg : ∀ a b, R a b → Follows S (f a) (g b)) : Follows S (x >>= f) (y >>= g) := by
  intro c hc
  cases x with
  | error e => cases hc
  | ok a =>
      obtain ⟨b, rfl, hab⟩ := h a rfl
      exact hfg a b hab c hc

theorem map {S : α' → β' → Prop} {f : α → α'} {g : β → β'} (h : Follows R x y)
    (hfg : ∀ a b, R a b → S (f a) (g b)) : Follows S (f <$> x) (g <$> y) := by
  intro c hc
  cases x with
  | error e => cases hc
  | ok a =>
      obtain ⟨b, rfl, hab⟩ := h a rfl
      obtain rfl : f a = c := Except.ok.inj hc
      exact ⟨g b, rfl, hfg a b hab⟩

/-- What the first does before it comes to the second may only fail. -/
theorem bind_left {S : α' → β → Prop} {f : α → Except ε α'} (h : ∀ a, Follows S (f a) y) :
    Follows S (x >>= f) y := by
  cases x with
  | error e => exact .of_error rfl
  | ok a => exact h a

/-- Loops whose steps follow give lists that follow element by element. -/
theorem mapM {f : α → Except ε α'} {g : α → Except ε β'} {S : α' → β' → Prop} {xs : List α}
    (h : ∀ a ∈ xs, Follows S (f a) (g a)) : Follows (List.Forall₂ S) (xs.mapM f) (xs.mapM g) := by
  induction xs with
  | nil => exact .of_agree (.ok .nil)
  | cons x rest ih =>
      rw [List.mapM_cons, List.mapM_cons]
      apply (h x (by simp)).bind
      intro a b hab
      refine (ih fun a ha => h a (by simp [ha])).bind fun _ _ hrest => ?_
      exact .of_agree (.ok (.cons hab hrest))

theorem forM {f g : α → Except ε PUnit} {xs : List α} (h : ∀ a ∈ xs, Follows Eq (f a) (g a)) :
    Follows Eq (forM xs f) (forM xs g) := by
  induction xs with
  | nil => exact .refl (fun _ => rfl) _
  | cons x rest ih =>
      rw [List.forM_cons, List.forM_cons]
      exact (h x (by simp)).bind fun _ _ _ => ih fun a ha => h a (by simp [ha])

end Follows

end RpcSpec.Foundation
