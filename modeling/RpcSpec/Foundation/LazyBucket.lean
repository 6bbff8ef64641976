import Mathlib.Algebra.BigOperators.Group.List.Basic
import Mathlib.Algebra.Order.Field.Basic
import Mathlib.Tactic.FieldSimp
import Mathlib.Tactic.Linarith
import Mathlib.Tactic.Ring
set_option autoImplicit false

/-!
# Lazily refilled token buckets

A bucket of some capacity that regains tokens at a constant rate can be stored
as one point in time: the moment it was last empty, had it never been full since.
The tokens at time `t` are then the rate times the time since, cut at the
capacity, and nothing has to be done while time passes.

Everything is over an arbitrary ordered field.  Time is not assumed to move
forward unless a statement says so.
-/

namespace RpcSpec.Foundation

universe u

/-- The two parameters of a bucket. -/
structure BucketRate (K : Type u) [Zero K] [LT K] where
  capacity : K
  rate : K
  capacity_pos : 0 < capacity
  rate_pos : 0 < rate

namespace BucketRate

variable {K : Type u} [Field K] [LinearOrder K] (B : BucketRate K) {z z' s t t' c now : K}

/-- Tokens at time `t` of a bucket that was empty at time `z`. -/
def level (z t : K) : K := min ((t - z) * B.rate) B.capacity

/-- The zero time of a bucket that is full at time `t`. -/
def full (t : K) : K := t - B.capacity / B.rate

/-- The zero time after `c` tokens were taken at time `t`. -/
def take (z t c : K) : K := t - (B.level z t - c) / B.rate

theorem level_le_capacity : B.level z t ≤ B.capacity := min_le_right _ _

theorem level_full : B.level (B.full t) t = B.capacity := by
  have hrate := B.rate_pos
  unfold level full
  rw [sub_sub_cancel, div_mul_cancel₀ _ hrate.ne', min_self]

theorem level_take : B.level (B.take z t c) t = min (B.level z t - c) B.capacity := by
  have hrate := B.rate_pos
  unfold take
  rw [level, sub_sub_cancel, div_mul_cancel₀ _ hrate.ne']

/-- Payments of two buckets with the same tokens leave the same zero time. -/
theorem take_congr (h : B.level z t = B.level z' t) : B.take z t c = B.take z' t c := by
  rw [take, take, h]

variable [IsStrictOrderedRing K]

theorem level_mono (h : t ≤ t') : B.level z t ≤ B.level z t' :=
  min_le_min_right _ (mul_le_mul_of_nonneg_right (by linarith) B.rate_pos.le)

/-- Time passing adds the rate times the time, up to the capacity. -/
theorem level_advance (h : t ≤ t') :
    B.level z t' = min B.capacity (B.level z t + B.rate * (t' - t)) := by
  have hgain : 0 ≤ B.rate * (t' - t) := mul_nonneg B.rate_pos.le (by linarith)
  have hsplit : (t' - z) * B.rate = (t - z) * B.rate + B.rate * (t' - t) := by ring
  unfold level
  rw [hsplit, ← min_add_add_right, min_comm, ← min_assoc, min_comm B.capacity,
    min_assoc, min_eq_left (show B.capacity ≤ B.capacity + B.rate * (t' - t) by linarith)]

theorem level_le_add (h : t ≤ t') : B.level z t' ≤ B.level z t + B.rate * (t' - t) := by
  rw [B.level_advance h]
  exact min_le_right _ _

/-- A bucket that was not last empty in the future is not in debt. -/
theorem level_nonneg (h : z ≤ t) : 0 ≤ B.level z t :=
  le_min (mul_nonneg (sub_nonneg.mpr h) B.rate_pos.le) B.capacity_pos.le

theorem full_le : B.full t ≤ t :=
  sub_le_self t (div_nonneg B.capacity_pos.le B.rate_pos.le)

/-- Tokens taken from a bucket are gone. -/
theorem level_take_of_nonneg (hc : 0 ≤ c) : B.level (B.take z t c) t = B.level z t - c := by
  rw [B.level_take, min_eq_left]
  have := B.level_le_capacity (z := z) (t := t)
  linarith

/-- Taking `c` tokens moves the zero time forward by at least the time it takes
to regain them, whenever that happens. -/
theorem add_le_take : z + c / B.rate ≤ B.take z t c := by
  have hrate := B.rate_pos
  have hlevel : B.level z t ≤ (t - z) * B.rate := min_le_left _ _
  have hdiv : B.level z t / B.rate ≤ t - z := by
    rwa [div_le_iff₀ hrate]
  unfold take
  rw [sub_div]
  linarith

/-- A bucket that can pay was not last empty in the future. -/
theorem take_le (h : c ≤ B.level z t) : B.take z t c ≤ t := by
  have hnonneg : 0 ≤ (B.level z t - c) / B.rate :=
    div_nonneg (by linarith) B.rate_pos.le
  unfold take
  linarith

/-- After the first payment at `t` the zero time is not further back than a full
bucket that has just paid. -/
theorem full_add_le_take : B.full t + c / B.rate ≤ B.take z t c := by
  have hdiv : B.level z t / B.rate ≤ B.capacity / B.rate :=
    div_le_div_of_nonneg_right B.level_le_capacity B.rate_pos.le
  unfold take full
  rw [sub_div]
  linarith

/-- A bucket that was empty at the latest at `s` is full once it had the time to
fill up. -/
theorem level_eq_capacity (hz : z ≤ s) (hidle : B.capacity / B.rate ≤ t - s) :
    B.level z t = B.capacity := by
  have hrate := B.rate_pos
  apply min_eq_right
  calc B.capacity = B.capacity / B.rate * B.rate := (div_mul_cancel₀ _ hrate.ne').symm
    _ ≤ (t - z) * B.rate := mul_le_mul_of_nonneg_right (by linarith) hrate.le

/-- Two buckets with the same tokens now have the same tokens ever after. -/
theorem level_congr (h : B.level z s = B.level z' s) (hst : s ≤ t) :
    B.level z t = B.level z' t := by
  rw [B.level_advance hst, B.level_advance hst, h]

/-! ## Payments one after another -/

omit [IsStrictOrderedRing K] in
/-- The tokens of a list of payments, each with its time. -/
def paid (payments : List (K × K)) : K := (payments.map (·.2)).sum

/-- From one zero time to another by payments, each of no more tokens than there are. -/
inductive Payments : K → List (K × K) → K → Prop
  | nil (z : K) : Payments z [] z
  | cons {z t c z' : K} {rest : List (K × K)} (hpay : c ≤ B.level z t)
      (hrest : Payments (B.take z t c) rest z') : Payments z ((t, c) :: rest) z'

variable {B}

omit [LinearOrder K] [IsStrictOrderedRing K] in
theorem paid_cons (first : K × K) (rest : List (K × K)) :
    paid (first :: rest) = first.2 + paid rest := by
  simp [paid]

omit [LinearOrder K] [IsStrictOrderedRing K] in
theorem paid_append (payments later : List (K × K)) :
    paid (payments ++ later) = paid payments + paid later := by
  simp [paid]

omit [IsStrictOrderedRing K] in
theorem Payments.append {payments later : List (K × K)} {z'' : K} (h : B.Payments z payments z')
    (hlater : B.Payments z' later z'') : B.Payments z (payments ++ later) z'' := by
  induction h with
  | nil z => exact hlater
  | cons hpay _ ih => exact .cons hpay (ih hlater)

theorem Payments.add_le {payments : List (K × K)} (h : B.Payments z payments z') :
    z + paid payments / B.rate ≤ z' := by
  induction h with
  | nil z => simp [paid]
  | @cons z t c z' rest hpay _ ih =>
      have htake := B.add_le_take (z := z) (t := t) (c := c)
      rw [paid_cons, add_div]
      linarith

theorem Payments.le_latest {payments : List (K × K)} {latest : K} (h : B.Payments z payments z')
    (hz : z ≤ latest) (hlatest : ∀ payment ∈ payments, payment.1 ≤ latest) : z' ≤ latest := by
  induction h with
  | nil z => exact hz
  | @cons z t c z' rest hpay _ ih =>
      have ht : t ≤ latest := hlatest _ List.mem_cons_self
      exact ih ((B.take_le hpay).trans ht) fun payment h => hlatest payment (.tail _ h)

/-- All payments together are at most a full bucket and the refill since the first. -/
theorem Payments.paid_le {payments : List (K × K)} {latest : K}
    (h : B.Payments z ((t, c) :: payments) z')
    (hlatest : ∀ payment ∈ (t, c) :: payments, payment.1 ≤ latest) :
    paid ((t, c) :: payments) ≤ B.capacity + B.rate * (latest - t) := by
  cases h with
  | cons hpay hrest =>
      have hrate := B.rate_pos
      have hfirst := B.full_add_le_take (z := z) (t := t) (c := c)
      have hzero : B.take z t c ≤ latest := (B.take_le hpay).trans (hlatest _ List.mem_cons_self)
      have hend := hrest.le_latest hzero fun payment h => hlatest payment (.tail _ h)
      have hquot : paid ((t, c) :: payments) / B.rate ≤ latest - t + B.capacity / B.rate := by
        have hfull : B.full t = t - B.capacity / B.rate := rfl
        have hrest := hrest.add_le
        rw [paid_cons, add_div]
        linarith
      rw [div_le_iff₀ hrate, add_mul, div_mul_cancel₀ _ hrate.ne'] at hquot
      linarith

/-- The same over any span of time in which all payments fall. -/
theorem Payments.paid_le_span {payments : List (K × K)} {earliest latest : K}
    (h : B.Payments z payments z') (hspan : earliest ≤ latest)
    (htimes : ∀ payment ∈ payments, earliest ≤ payment.1 ∧ payment.1 ≤ latest) :
    paid payments ≤ B.capacity + B.rate * (latest - earliest) := by
  have hrate := B.rate_pos
  cases payments with
  | nil =>
      have hrefill : 0 ≤ B.rate * (latest - earliest) := mul_nonneg hrate.le (by linarith)
      have hcapacity := B.capacity_pos
      simp only [paid, List.map_nil, List.sum_nil]
      linarith
  | cons first rest =>
      have hpaid := h.paid_le fun payment hpayment => (htimes payment hpayment).2
      have hfirst := (htimes first List.mem_cons_self).1
      have hrefill : B.rate * (latest - first.1) ≤ B.rate * (latest - earliest) :=
        mul_le_mul_of_nonneg_left (by linarith) hrate.le
      linarith

/-! ## What a bucket can pay -/

omit [IsStrictOrderedRing K] in
variable (B) in
/-- With `c` more tokens at `now`, the payments since any of them are at most a full bucket
and the refill since then. -/
def Conforms (payments : List (K × K)) (c now : K) : Prop :=
  c ≤ B.capacity ∧ ∀ since ∈ payments.tails, ∀ first ∈ since.head?,
    paid since + c ≤ B.capacity + B.rate * (now - first.1)

omit [IsStrictOrderedRing K] in
instance (payments : List (K × K)) (c now : K) : Decidable (B.Conforms payments c now) :=
  inferInstanceAs (Decidable (_ ∧ ∀ since ∈ payments.tails, ∀ first ∈ since.head?, _))

omit [IsStrictOrderedRing K] in
theorem conforms_nil : B.Conforms [] c t ↔ c ≤ B.capacity := by
  simp [Conforms]

omit [IsStrictOrderedRing K] in
theorem conforms_cons {first : K × K} {rest : List (K × K)} :
    B.Conforms (first :: rest) c t ↔
      paid (first :: rest) + c ≤ B.capacity + B.rate * (t - first.1) ∧ B.Conforms rest c t := by
  rw [Conforms, List.tails, List.forall_mem_cons, and_left_comm]
  simp [Conforms]

/-- What is left at `now` is what was there at the start and the refill since, without the
payments, unless the bucket was full in between. -/
theorem Payments.le_level_iff {payments : List (K × K)} (h : B.Payments z payments z') :
    ∀ {start : K}, (∀ payment ∈ payments, 0 ≤ payment.2) →
      (start :: payments.map (·.1)).Pairwise (· ≤ ·) →
      (∀ time ∈ start :: payments.map (·.1), time ≤ now) →
      (c ≤ B.level z' now ↔
        paid payments + c ≤ B.level z start + B.rate * (now - start) ∧
          B.Conforms payments c now) := by
  induction h with
  | nil z =>
      intro start _ _ hnow
      rw [B.level_advance (hnow start List.mem_cons_self), le_min_iff, conforms_nil, and_comm]
      simp [paid]
  | @cons z t k z' rest hpay _ ih =>
      intro start hnonneg hascending hnow
      obtain ⟨hstart, hlater⟩ := List.pairwise_cons.mp hascending
      obtain ⟨hk, hrest⟩ := List.forall_mem_cons.mp hnonneg
      have hfirst : start ≤ t := hstart t List.mem_cons_self
      have hleft := ih hrest hlater fun time h => hnow time (.tail _ h)
      -- The refill from the start is that up to the first payment and that from it on.
      have hsplit : B.rate * (now - start) = B.rate * (t - start) + B.rate * (now - t) := by ring
      have hbefore := B.level_advance (z := z) hfirst
      rw [hleft, B.level_take_of_nonneg hk, conforms_cons, paid_cons, ← and_assoc]
      refine and_congr_left fun _ => ?_
      have hlevel : paid rest + c ≤ B.level z t - k + B.rate * (now - t) ↔
          k + paid rest + c - B.rate * (now - t) ≤ B.level z t := by
        constructor <;> intro h <;> linarith
      rw [hlevel, hbefore, le_min_iff, and_comm]
      refine and_congr ?_ ?_ <;> constructor <;> intro h <;> linarith

/-- A bucket that was full before the payments can pay what conforms. -/
theorem Payments.le_level_iff_conforms {payments : List (K × K)} {start : K}
    (h : B.Payments z payments z') (hfull : B.level z start = B.capacity)
    (hnonneg : ∀ payment ∈ payments, 0 ≤ payment.2)
    (hascending : (start :: payments.map (·.1)).Pairwise (· ≤ ·))
    (hnow : ∀ time ∈ start :: payments.map (·.1), time ≤ now) :
    c ≤ B.level z' now ↔ B.Conforms payments c now := by
  rw [h.le_level_iff hnonneg hascending hnow, hfull, and_iff_right_iff_imp]
  intro hconforms
  cases payments with
  | nil =>
      have hrefill : 0 ≤ B.rate * (now - start) :=
        mul_nonneg B.rate_pos.le (sub_nonneg.mpr (hnow start List.mem_cons_self))
      have hc := conforms_nil.mp hconforms
      simp only [paid, List.map_nil, List.sum_nil]
      linarith
  | cons first rest =>
      have hfirst : start ≤ first.1 := (List.pairwise_cons.mp hascending).1 _ List.mem_cons_self
      have hrefill : B.rate * (now - first.1) ≤ B.rate * (now - start) :=
        mul_le_mul_of_nonneg_left (by linarith) B.rate_pos.le
      exact (conforms_cons.mp hconforms).1.trans (by linarith)

end BucketRate

end RpcSpec.Foundation
