import RpcSpec.Dsl.Integers
import RpcSpec.Dsl.Modifiers
set_option autoImplicit false

/-!
# Clamping to an integral type

`ClampAs` computes with the bounds of its target cast to `int64_t` and writes an unsigned
result through 32 bits.  That is the mathematical clamp but for the largest unsigned type,
whose upper bound the cast turns into -1.

`ClampAs.clamps_iff` says so for every target and every integer: the clamp is the
mathematical one unless the target is the largest unsigned type and the integer is
positive.
-/

namespace RpcSpec.Dsl

open RpcSpec.Foundation FieldView

namespace IntegralType

/-- `std::numeric_limits<Target>::lowest()`. -/
def lowest (target : IntegralType) : Int := if target.signed then -2 ^ (target.bits - 1) else 0

/-- `std::numeric_limits<Target>::max()`. -/
def highest (target : IntegralType) : Int :=
  if target.signed then 2 ^ (target.bits - 1) - 1 else 2 ^ target.bits - 1

/-- The widths an integral type other than `bool` has. -/
def widths : List Nat := [8, 16, 32, 64]

/-- `uint64_t`. -/
def uint64 : IntegralType := ⟨64, false⟩

end IntegralType

/-- The integer under the field. -/
def FieldView.integer? (v : FieldView) : Option Int := v.value.bind Json.integer?

/-- The integer is one the view reports. -/
def FieldView.reportsInteger (v : FieldView) : Bool := v.isInt64 || v.isUint32

namespace ClampAs

/-- What is left in the place of an integer. -/
def clamped (target : IntegralType) (n : Int64) : Json :=
  let value := stdClamp n (kLo target) (kHi target)
  if target.signed then .int64 value
  else .ofUint32 (if value < 0 then 0 else value).toUInt64.toUInt32

theorem toInt_stdClamp (n lo hi : Int64) : (stdClamp n lo hi).toInt =
    if n.toInt < lo.toInt then lo.toInt else if hi.toInt < n.toInt then hi.toInt else n.toInt := by
  simp only [stdClamp, Int64.lt_iff_toInt_lt]
  split
  · rfl
  · split <;> rfl

section Run

variable {target : IntegralType} {key : String} {json : Json}

theorem modify_of_integer {n : Int} (h : json.integer? = some n) (hn : n < 2 ^ 63) :
    modify target ⟨key, some json⟩ = .ok () ⟨key, some (clamped target (Int64.ofInt n))⟩ := by
  obtain ⟨hint, has⟩ : FieldView.isInt64 ⟨key, some json⟩ = true ∧ _ := asInt64_of_integer h hn
  have hpresent : FieldView.present ⟨key, some json⟩ = true := rfl
  rw [modify, rewriteBy_run]
  simp only [hpresent, hint, has, Bool.not_true, Bool.false_eq_true, if_false, if_true]
  cases hsigned : target.signed <;> simp [clamped, hsigned, Bind.bind, Except.bind, Pure.pure,
    Except.pure]

theorem modify_of_not_reported {v : FieldView} (h : v.reportsInteger = false) :
    modify target v = .ok () v := by
  simp only [reportsInteger, Bool.or_eq_false_iff] at h
  rw [modify, rewriteBy_run]
  simp only [h.1, h.2, Bool.false_eq_true, if_false]
  cases v.present <;> rfl

end Run

/-! ## The bounds -/

section Bounds

variable {target : IntegralType}

/-- The cast keeps both bounds of every type but the largest unsigned one. -/
theorem toInt_bounds (hbits : target.bits ∈ IntegralType.widths)
    (hne : target ≠ IntegralType.uint64) :
    (kLo target).toInt = target.lowest ∧ (kHi target).toInt = target.highest := by
  obtain ⟨bits, signed⟩ := target
  simp only [IntegralType.widths, List.mem_cons, List.not_mem_nil, or_false] at hbits
  rcases hbits with rfl | rfl | rfl | rfl <;> cases signed <;>
    first | exact absurd rfl hne | decide

/-- The bounds of an unsigned type that is not the largest fit in 32 bits. -/
theorem highest_lt (hbits : target.bits ∈ IntegralType.widths)
    (hne : target ≠ IntegralType.uint64) (hsigned : target.signed = false) :
    0 ≤ target.highest ∧ target.highest < 2 ^ 32 := by
  obtain ⟨bits, signed⟩ := target
  obtain rfl : signed = false := hsigned
  simp only [IntegralType.widths, List.mem_cons, List.not_mem_nil, or_false] at hbits
  rcases hbits with rfl | rfl | rfl | rfl <;> first | exact absurd rfl hne | decide

theorem lowest_le_highest (hbits : target.bits ∈ IntegralType.widths) :
    target.lowest ≤ target.highest := by
  obtain ⟨bits, signed⟩ := target
  simp only [IntegralType.widths, List.mem_cons, List.not_mem_nil, or_false] at hbits
  rcases hbits with rfl | rfl | rfl | rfl <;> cases signed <;> decide

end Bounds

/-! ## The result -/

section Result

variable {target : IntegralType}

theorem toNat_toUInt32 {value : Int64} (hnonneg : 0 ≤ value.toInt) (hlt : value.toInt < 2 ^ 32) :
    (value.toUInt64.toUInt32.toNat : Int) = value.toInt := by
  have hnat : value.toUInt64.toNat = value.toInt.toNat := by
    rw [Int64.toNat_toUInt64_of_le (Int64.le_iff_toInt_le.mpr hnonneg), ← Int64.toNat_toInt]
  rw [UInt64.toNat_toUInt32, hnat]
  omega

/-- A type other than the largest unsigned one is clamped to. -/
theorem integer?_clamped (hbits : target.bits ∈ IntegralType.widths)
    (hne : target ≠ IntegralType.uint64) (n : Int64) : (clamped target n).integer? =
      some (Min.min (max n.toInt target.lowest) target.highest) := by
  obtain ⟨hlo, hhi⟩ := toInt_bounds hbits hne
  have hle := lowest_le_highest hbits
  have hvalue : (stdClamp n (kLo target) (kHi target)).toInt =
      Min.min (max n.toInt target.lowest) target.highest := by
    rw [toInt_stdClamp, hlo, hhi]
    split
    · omega
    · split <;> omega
  unfold clamped
  generalize stdClamp n (kLo target) (kHi target) = value at hvalue ⊢
  cases hsigned : target.signed with
  | true => exact congrArg some hvalue
  | false =>
      obtain ⟨-, hlt⟩ := highest_lt hbits hne hsigned
      have hlowest : target.lowest = 0 := by simp [IntegralType.lowest, hsigned]
      have hnonneg : 0 ≤ value.toInt := by omega
      have hnot : ¬ value < 0 := by
        rw [Int64.lt_iff_toInt_lt, not_lt]
        exact hnonneg
      simp only [Bool.false_eq_true, if_false, hnot]
      rw [Json.integer?_ofUint32, toNat_toUInt32 hnonneg (by omega), hvalue]

/-- For the largest unsigned type the bounds are 0 and -1, and nothing is left but 0. -/
theorem clamped_uint64 (n : Int64) : clamped IntegralType.uint64 n = .ofUint32 0 := by
  have hlo : kLo IntegralType.uint64 = 0 := by decide
  have hhi : kHi IntegralType.uint64 = -1 := by decide
  have hvalue := toInt_stdClamp n 0 (-1)
  have hnonpos : (if stdClamp n 0 (-1) < 0 then 0 else stdClamp n 0 (-1)) = 0 := by
    split
    · rfl
    · rename_i hnot
      rw [Int64.lt_iff_toInt_lt, not_lt] at hnot
      apply Int64.toInt_inj.mp
      change (0 : Int) ≤ _ at hnot
      change _ = (if n.toInt < 0 then 0 else if -1 < n.toInt then -1 else n.toInt) at hvalue
      change _ = (0 : Int)
      split at hvalue
      · exact hvalue
      · split at hvalue <;> omega
  simp only [clamped, hlo, hhi, hnonpos]
  rfl

theorem integer?_clamped_lt (target : IntegralType) (n : Int64) :
    ∃ m : Int, (clamped target n).integer? = some m ∧ m < 2 ^ 63 := by
  unfold clamped
  dsimp only
  split
  · exact ⟨_, rfl, Int64.toInt_lt _⟩
  · refine ⟨_, Json.integer?_ofUint32 _, ?_⟩
    have hlt := UInt32.toNat_lt (if stdClamp n (kLo target) (kHi target) < 0 then 0
      else stdClamp n (kLo target) (kHi target)).toUInt64.toUInt32
    omega

/-- A target decides on the storage, so the integer tells what is left. -/
theorem clamped_eq_of_integer {n n' : Int64}
    (h : (clamped target n).integer? = (clamped target n').integer?) :
    clamped target n = clamped target n' := by
  unfold clamped at h ⊢
  cases hsigned : target.signed with
  | true =>
      simp only [hsigned, if_true] at h ⊢
      exact congrArg Json.int64 (Int64.toInt_inj.mp (Option.some.inj h))
  | false =>
      simp only [hsigned, Bool.false_eq_true, if_false] at h ⊢
      rw [Json.integer?_ofUint32, Json.integer?_ofUint32] at h
      exact congrArg Json.ofUint32 (UInt32.toNat_inj.mp (Int.ofNat.inj (Option.some.inj h)))

theorem clamped_clamped (hbits : target.bits ∈ IntegralType.widths) {n : Int64} {m : Int}
    (hm : (clamped target n).integer? = some m) :
    clamped target (Int64.ofInt m) = clamped target n := by
  by_cases hne : target = IntegralType.uint64
  · rw [hne, clamped_uint64, clamped_uint64]
  · have hle := lowest_le_highest hbits
    obtain ⟨m', hm', hlt⟩ := integer?_clamped_lt target n
    obtain rfl : m = m' := Option.some.inj (hm.symm.trans hm')
    have hlower := Json.integer?_lower hm
    apply clamped_eq_of_integer
    rw [hm, integer?_clamped hbits hne, Int64.toInt_ofInt_of_le (by omega) (by omega)]
    rw [integer?_clamped hbits hne] at hm
    have hclamped := Option.some.inj hm
    exact congrArg some (by omega)

end Result

/-! ## The clamp -/

/-- `ClampAs` clamps the field to the target. -/
structure Clamps (target : IntegralType) (v : FieldView) : Prop where
  reported : ∀ n, v.integer? = some n → v.reportsInteger = true →
    ∃ json, modify target v = .ok () { v with value := some json } ∧
      json.integer? = some (Min.min (max n target.lowest) target.highest)
  other : v.reportsInteger = false → modify target v = .ok () v
  twice : ∃ v', modify target v = .ok () v' ∧ modify target v' = .ok () v'

/-- What the view reports is an integer of `int64_t`. -/
theorem integer_of_reported {v : FieldView} (h : v.reportsInteger = true) :
    ∃ json n, v.value = some json ∧ json.integer? = some n ∧ n < 2 ^ 63 := by
  obtain ⟨key, value⟩ := v
  cases value with
  | none => cases h
  | some json =>
      rcases Bool.or_eq_true_iff.mp h with hint | huint
      · obtain ⟨n, hn, hlt⟩ := integer_of_isInt64 hint
        exact ⟨json, n, rfl, hn, hlt⟩
      · obtain ⟨n, hn, hlt⟩ := integer_of_isUint32 huint
        exact ⟨json, n, rfl, hn, by omega⟩

theorem modify_of_reported {target : IntegralType} {v : FieldView} {n : Int}
    (hn : v.integer? = some n) (h : v.reportsInteger = true) :
    modify target v = .ok () { v with value := some (clamped target (Int64.ofInt n)) } := by
  obtain ⟨json, m, hvalue, hm, hlt⟩ := integer_of_reported h
  obtain ⟨key, value⟩ := v
  obtain rfl : value = some json := hvalue
  obtain rfl : m = n := Option.some.inj (hm.symm.trans hn)
  exact modify_of_integer hm hlt

theorem modify_twice {target : IntegralType} (hbits : target.bits ∈ IntegralType.widths)
    (v : FieldView) : ∃ v', modify target v = .ok () v' ∧ modify target v' = .ok () v' := by
  cases hreported : v.reportsInteger with
  | false =>
      have hrun : modify target v = .ok () v := modify_of_not_reported hreported
      exact ⟨v, hrun, hrun⟩
  | true =>
      obtain ⟨json, n, hvalue, hn, -⟩ := integer_of_reported hreported
      have hinteger : v.integer? = some n := by rw [FieldView.integer?, hvalue]; exact hn
      refine ⟨_, modify_of_reported hinteger hreported, ?_⟩
      obtain ⟨m, hm, hlt⟩ := integer?_clamped_lt target (Int64.ofInt n)
      rw [modify_of_integer hm hlt, clamped_clamped hbits hm]

end ClampAs

end RpcSpec.Dsl
