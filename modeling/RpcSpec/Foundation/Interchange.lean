import RpcSpec.Foundation.Moves
import Mathlib.Data.List.Pairwise
import Mathlib.Data.List.Perm.Basic
set_option autoImplicit false

/-!
# Steps in another order

Steps that pass a value along, may fail and change a state.  Two are interchangeable when
from every value and state they come through in either order or in neither, and to the same
end.  `Reorder` moves steps past each other where a relation allows it; if it allows only
what is interchangeable, the steps come through in the new order just when they do in the
old, and to the same end.
-/

namespace RpcSpec.Foundation

universe w

variable {ε σ α : Type} {γ : Type w}

/-! ## Lists in another order -/

/-- From one list to the other by exchanges of neighbours that `R` allows. -/
inductive Reorder (R : γ → γ → Prop) : List γ → List γ → Prop
  | nil : Reorder R [] []
  | cons (c : γ) {l l' : List γ} : Reorder R l l' → Reorder R (c :: l) (c :: l')
  | swap {c d : γ} (l : List γ) : R c d → Reorder R (c :: d :: l) (d :: c :: l)
  | trans {l l' l'' : List γ} : Reorder R l l' → Reorder R l' l'' → Reorder R l l''

namespace Reorder

variable {R P : γ → γ → Prop} {l l' : List γ}

theorem perm (h : Reorder R l l') : l.Perm l' := by
  induction h with
  | nil => exact .nil
  | cons c _ ih => exact ih.cons c
  | swap l _ => exact .swap _ _ l
  | trans _ _ ih ih' => exact ih.trans ih'

/-- What holds between any two entries of the list holds where two are exchanged. -/
theorem and_pairwise (h : Reorder R l l') (hP : l.Pairwise P) (hsymm : ∀ c d, P c d → P d c) :
    Reorder (fun c d => R c d ∧ P c d) l l' := by
  induction h with
  | nil => exact .nil
  | cons c _ ih => exact .cons c (ih (List.pairwise_cons.mp hP).2)
  | swap l hcd => exact .swap l ⟨hcd, (List.pairwise_cons.mp hP).1 _ (by simp)⟩
  | trans h _ ih ih' => exact (ih hP).trans (ih' (hP.perm h.perm fun hcd => hsymm _ _ hcd))

end Reorder

/-! ## Runs -/

theorem seq_eq_ok_iff {β : Type} {x : EStateM ε σ α} {f : α → EStateM ε σ β} {s s' : σ} {b : β} :
    (x >>= f) s = .ok b s' ↔ ∃ a t, x s = .ok a t ∧ f a t = .ok b s' := by
  change EStateM.bind x f s = _ ↔ _
  unfold EStateM.bind
  cases x s with
  | ok a t => simp
  | error e t => simp

/-- The two steps come through in either order or in neither, and to the same end. -/
def Interchange (x y : α → EStateM ε σ α) : Prop :=
  ∀ a s b s', (x a >>= y) s = .ok b s' ↔ (y a >>= x) s = .ok b s'

variable {step : γ → α → EStateM ε σ α} {a b : α} {s s' : σ}

theorem foldlM_cons_eq_ok_iff {c : γ} {l : List γ} :
    (c :: l).foldlM (fun a c => step c a) a s = .ok b s' ↔
      ∃ a' t, step c a s = .ok a' t ∧ l.foldlM (fun a c => step c a) a' t = .ok b s' := by
  rw [List.foldlM_cons, seq_eq_ok_iff]

theorem foldlM_cons_cons_eq_ok_iff {c d : γ} {l : List γ} :
    (c :: d :: l).foldlM (fun a c => step c a) a s = .ok b s' ↔
      ∃ a' t, (step c a >>= step d) s = .ok a' t ∧
        l.foldlM (fun a c => step c a) a' t = .ok b s' := by
  simp only [foldlM_cons_eq_ok_iff, seq_eq_ok_iff]
  constructor
  · rintro ⟨a₁, t₁, hc, a₂, t₂, hd, hl⟩
    exact ⟨a₂, t₂, ⟨a₁, t₁, hc, hd⟩, hl⟩
  · rintro ⟨a₂, t₂, ⟨a₁, t₁, hc, hd⟩, hl⟩
    exact ⟨a₁, t₁, hc, a₂, t₂, hd, hl⟩

/-- Steps come through in an order just when they do in one that interchangeable ones are
exchanged in. -/
theorem foldlM_eq_ok_iff_of_reorder {R : γ → γ → Prop} {l l' : List γ} (h : Reorder R l l')
    (hinterchange : ∀ c d, R c d → Interchange (step c) (step d)) :
    l.foldlM (fun a c => step c a) a s = .ok b s' ↔
      l'.foldlM (fun a c => step c a) a s = .ok b s' := by
  induction h generalizing a s with
  | nil => exact Iff.rfl
  | cons c _ ih =>
      rw [foldlM_cons_eq_ok_iff, foldlM_cons_eq_ok_iff]
      simp only [ih]
  | swap l hcd =>
      rw [foldlM_cons_cons_eq_ok_iff, foldlM_cons_cons_eq_ok_iff]
      simp only [hinterchange _ _ hcd a s]
  | trans _ _ ih ih' => exact ih.trans ih'

end RpcSpec.Foundation
