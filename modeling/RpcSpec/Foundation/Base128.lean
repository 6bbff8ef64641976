import Mathlib.Algebra.BigOperators.Fin
import Mathlib.Data.Nat.Bitwise
import Mathlib.Tactic.Ring
set_option autoImplicit false

/-!
# Base-128 numerals

Little-endian groups of seven bits, one group a byte, with the high bit set on
every byte but the last: the varint of the protobuf wire format and the unsigned
LEB128 of others.

`Numeral b v` is the format as a relation between bytes and values.  It is
prefix-free and every byte sequence either starts with a numeral or consists of
continuation bytes only, so a reader that goes byte by byte has no choice to
make.  `encode` writes the shortest numeral of a value.  The last section is the
word arithmetic of a reader that accumulates groups with shift and or.
-/

namespace RpcSpec.Foundation.Base128

/-- The bytes `b` are a complete numeral of value `v`. -/
inductive Numeral : List UInt8 → Nat → Prop
  | last (b : UInt8) : b.toNat < 128 → Numeral [b] b.toNat
  | more (b : UInt8) {bs : List UInt8} {v : Nat} : 128 ≤ b.toNat → Numeral bs v →
      Numeral (b :: bs) (b.toNat - 128 + 128 * v)

/-- Every byte of `bs` announces another one. -/
def Continues (bs : List UInt8) : Prop := ∀ b ∈ bs, 128 ≤ b.toNat

instance (bs : List UInt8) : Decidable (Continues bs) :=
  inferInstanceAs (Decidable (∀ b ∈ bs, 128 ≤ b.toNat))

theorem continues_nil : Continues [] := by simp [Continues]

theorem continues_cons {b : UInt8} {bs : List UInt8} :
    Continues (b :: bs) ↔ 128 ≤ b.toNat ∧ Continues bs := by
  simp [Continues]

theorem Numeral.length_pos {b : List UInt8} {v : Nat} (h : Numeral b v) :
    0 < b.length := by
  cases h <;> simp

/-- A numeral is a run of continuation bytes and one byte that ends it. -/
theorem Numeral.split {b : List UInt8} {v : Nat} (h : Numeral b v) :
    ∃ init last, b = init ++ [last] ∧ Continues init ∧ last.toNat < 128 := by
  induction h with
  | last b hb => exact ⟨[], b, rfl, continues_nil, hb⟩
  | more b hb _ ih =>
      obtain ⟨init, last, rfl, hinit, hlast⟩ := ih
      exact ⟨b :: init, last, rfl, continues_cons.mpr ⟨hb, hinit⟩, hlast⟩

/-- No numeral is a proper prefix of another: two that agree on a common
extension are equal and so are their values. -/
theorem Numeral.prefixFree {b₁ b₂ r₁ r₂ : List UInt8} {v₁ v₂ : Nat}
    (h₁ : Numeral b₁ v₁) (h₂ : Numeral b₂ v₂) (heq : b₁ ++ r₁ = b₂ ++ r₂) :
    b₁ = b₂ ∧ v₁ = v₂ ∧ r₁ = r₂ := by
  induction h₁ generalizing b₂ v₂ with
  | last b hb =>
      cases h₂ with
      | last b' hb' => simp_all
      | more b' hb' _ =>
          simp only [List.cons_append, List.cons.injEq] at heq
          obtain ⟨rfl, _⟩ := heq
          omega
  | more b hb _ ih =>
      cases h₂ with
      | last b' hb' =>
          simp only [List.cons_append, List.cons.injEq] at heq
          obtain ⟨rfl, _⟩ := heq
          omega
      | more b' hb' h₂' =>
          simp only [List.cons_append, List.cons.injEq] at heq
          obtain ⟨rfl, hrest⟩ := heq
          obtain ⟨rfl, rfl, rfl⟩ := ih h₂' hrest
          exact ⟨rfl, rfl, rfl⟩

/-- Bytes either start with a numeral or all announce another byte. -/
theorem numeral_or_continues (bs : List UInt8) :
    (∃ b v rest, bs = b ++ rest ∧ Numeral b v) ∨ Continues bs := by
  induction bs with
  | nil => exact .inr continues_nil
  | cons b bs ih =>
      by_cases hb : b.toNat < 128
      · exact .inl ⟨[b], b.toNat, bs, rfl, .last b hb⟩
      · have hb' : 128 ≤ b.toNat := by omega
        cases ih with
        | inl h =>
            obtain ⟨b', v, rest, rfl, hnum⟩ := h
            exact .inl ⟨b :: b', _, rest, rfl, .more b hb' hnum⟩
        | inr h => exact .inr (continues_cons.mpr ⟨hb', h⟩)

/-- The two cases of `numeral_or_continues` exclude one another. -/
theorem Numeral.not_continues {b rest : List UInt8} {v : Nat} (h : Numeral b v) :
    ¬ Continues (b ++ rest) := by
  obtain ⟨init, last, rfl, _, hlast⟩ := h.split
  intro hcont
  have := hcont last (by simp)
  omega

/-- The value a run of bytes spells: the low seven bits of each, the first lowest. -/
def groupSum (b : List UInt8) : Nat :=
  ∑ i : Fin b.length, b[i].toNat % 128 * 2 ^ (7 * i.val)

theorem groupSum_cons (b : UInt8) (bs : List UInt8) :
    groupSum (b :: bs) = b.toNat % 128 + 128 * groupSum bs := by
  have hgroups : ∀ i : Fin bs.length, bs[i].toNat % 128 * 2 ^ (7 * (i.val + 1)) =
      128 * (bs[i].toNat % 128 * 2 ^ (7 * i.val)) := by
    intro i
    rw [Nat.mul_add, Nat.pow_add]
    ring
  have hfirst : groupSum (b :: bs) = b.toNat % 128 * 2 ^ 0 +
      ∑ i : Fin bs.length, bs[i].toNat % 128 * 2 ^ (7 * (i.val + 1)) := Fin.sum_univ_succ _
  rw [hfirst, Finset.sum_congr rfl fun i _ => hgroups i, ← Finset.mul_sum, Nat.pow_zero,
    Nat.mul_one, groupSum]

/-- A run of continuation bytes, one byte that ends it, and the value they spell. -/
theorem numeral_iff {b : List UInt8} {v : Nat} :
    Numeral b v ↔
      (∃ init last, b = init ++ [last] ∧ Continues init ∧ last.toNat < 128) ∧
        v = groupSum b := by
  constructor
  · refine fun h => ⟨h.split, ?_⟩
    induction h with
    | last b hb => simp [groupSum, Nat.mod_eq_of_lt hb]
    | more b hb _ ih =>
        have hbyte := b.toNat_lt
        rw [groupSum_cons, ← ih]
        omega
  · rintro ⟨⟨init, last, rfl, hinit, hlast⟩, rfl⟩
    induction init with
    | nil => simpa [groupSum, Nat.mod_eq_of_lt hlast] using Numeral.last last hlast
    | cons b init ih =>
        obtain ⟨hb, hinit⟩ := continues_cons.mp hinit
        have hbyte := b.toNat_lt
        have hmore := Numeral.more b hb (ih hinit)
        rw [show b.toNat - 128 = b.toNat % 128 by omega] at hmore
        rwa [List.cons_append, groupSum_cons]

/-! ## The shortest numeral -/

/-- The shortest numeral of `n`. -/
def encode (n : Nat) : List UInt8 :=
  if n < 128 then [UInt8.ofNat n]
  else UInt8.ofNat (n % 128 + 128) :: encode (n / 128)

theorem toNat_ofNat_of_lt {n : Nat} (h : n < 256) : (UInt8.ofNat n).toNat = n := by
  rw [UInt8.toNat_ofNat']
  exact Nat.mod_eq_of_lt h

/-- `encode` writes a numeral of the value it is given. -/
theorem encode_numeral (n : Nat) : Numeral (encode n) n := by
  induction n using Nat.strongRecOn with
  | ind n ih =>
      rw [encode]
      split
      · rename_i hlt
        have hbyte := toNat_ofNat_of_lt (n := n) (by omega)
        have := Numeral.last (UInt8.ofNat n) (by omega)
        rwa [hbyte] at this
      · rename_i hge
        have hbyte := toNat_ofNat_of_lt (n := n % 128 + 128) (by omega)
        have := Numeral.more (UInt8.ofNat (n % 128 + 128)) (by omega) (ih (n / 128) (by omega))
        rw [hbyte] at this
        have hn : n % 128 + 128 - 128 + 128 * (n / 128) = n := by omega
        rwa [hn] at this

/-- A value of `7 * k` bits takes at most `k` bytes. -/
theorem encode_length_le {k n : Nat} (hk : 0 < k) (h : n < 2 ^ (7 * k)) :
    (encode n).length ≤ k := by
  induction k generalizing n with
  | zero => omega
  | succ k ih =>
      rw [encode]
      split
      · simp
      · rename_i hge
        cases k with
        | zero => omega
        | succ k =>
            rw [List.length_cons]
            have hdiv : n / 128 < 2 ^ (7 * (k + 1)) := by
              rw [Nat.div_lt_iff_lt_mul (by decide), ← Nat.pow_add 2 _ 7]
              exact h
            have := ih (by omega) hdiv
            omega

/-- A 64-bit value takes at most ten bytes. -/
theorem encode_length_le_ten {n : Nat} (h : n < 2 ^ 64) : (encode n).length ≤ 10 :=
  encode_length_le (by decide) (Nat.lt_of_lt_of_le h (by decide))

/-! ## Accumulating groups in a word -/

/-- The payload bits of a byte. -/
theorem toNat_and_127 (b : UInt8) : (b &&& 0x7F).toNat = b.toNat % 128 := by
  rw [UInt8.toNat_and]
  exact Nat.and_two_pow_sub_one_eq_mod b.toNat 7

/-- The high bit of a byte. -/
theorem and_128_eq_zero_iff (b : UInt8) : b &&& 0x80 = 0 ↔ b.toNat < 128 := by
  have hbyte := b.toNat_lt
  have hand : (b &&& 0x80).toNat = (b.toNat.testBit 7).toNat * 2 ^ 7 := by
    rw [UInt8.toNat_and]
    exact Nat.and_two_pow b.toNat 7
  rw [← UInt8.toNat_inj, hand, Nat.testBit_eq_decide_div_mod_eq]
  by_cases h : b.toNat / 2 ^ 7 % 2 = 1
  · simp only [h, decide_true]
    simp
    omega
  · simp only [h, decide_false]
    simp
    omega

/-- Or-ing a shifted group above the bits already there adds it, modulo the
word. -/
theorem or_shiftLeft_mod {w acc x s : Nat} (hs : s ≤ w) (hacc : acc < 2 ^ s) :
    acc ||| (x <<< s) % 2 ^ w = (acc + x * 2 ^ s) % 2 ^ w := by
  have hsplit : (2 : Nat) ^ w = 2 ^ s * 2 ^ (w - s) := by
    rw [← Nat.pow_add]
    congr 1
    omega
  have hgroup : (x <<< s) % 2 ^ w = 2 ^ s * (x % 2 ^ (w - s)) := by
    rw [Nat.shiftLeft_eq, hsplit, Nat.mul_comm, Nat.mul_mod_mul_left]
  have hlt : acc + 2 ^ s * (x % 2 ^ (w - s)) < 2 ^ w := by
    have hmod : x % 2 ^ (w - s) + 1 ≤ 2 ^ (w - s) := Nat.mod_lt _ (Nat.two_pow_pos _)
    calc acc + 2 ^ s * (x % 2 ^ (w - s))
        < 2 ^ s + 2 ^ s * (x % 2 ^ (w - s)) := by omega
      _ = 2 ^ s * (x % 2 ^ (w - s) + 1) := by ring
      _ ≤ 2 ^ s * 2 ^ (w - s) := Nat.mul_le_mul_left _ hmod
      _ = 2 ^ w := hsplit.symm
  calc acc ||| (x <<< s) % 2 ^ w
      = 2 ^ s * (x % 2 ^ (w - s)) + acc := by
        rw [hgroup, Nat.or_comm, Nat.two_pow_add_eq_or_of_lt hacc]
    _ = (acc + 2 ^ s * (x % 2 ^ (w - s))) % 2 ^ w := by
        rw [Nat.mod_eq_of_lt hlt, Nat.add_comm]
    _ = (acc + x * 2 ^ s) % 2 ^ w := by
        rw [← hgroup, Nat.shiftLeft_eq, Nat.add_mod_mod]

/-- One group of a 64-bit accumulator: shift the payload bits into place and or
them in. -/
theorem accumulate_toNat {acc : UInt64} {b : UInt8} {s : Nat} (hs : s < 64)
    (hacc : acc.toNat < 2 ^ s) :
    (acc ||| ((b &&& 0x7F).toUInt64 <<< UInt64.ofNat s)).toNat =
      (acc.toNat + b.toNat % 128 * 2 ^ s) % 2 ^ 64 := by
  have hshift : (UInt64.ofNat s).toNat % 64 = s := by
    rw [UInt64.toNat_ofNat']
    omega
  rw [UInt64.toNat_or, UInt64.toNat_shiftLeft, UInt8.toNat_toUInt64, toNat_and_127, hshift]
  exact or_shiftLeft_mod (by omega) hacc

end RpcSpec.Foundation.Base128
