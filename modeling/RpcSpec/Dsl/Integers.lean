import RpcSpec.Dsl.LedgerRule
set_option autoImplicit false

/-!
# Integers and their two storages

A view reports an integer as signed or as an unsigned one of 32 bits, and an integer may be
reported both ways.  What either accessor reads is the integer itself.

`uint32_cases` and `int64_cases` are the case splits: JSON is an integer that fits and is
read as that, or it does not pass for one.
-/

namespace RpcSpec.Dsl

open RpcSpec.Foundation

variable {key : String} {json : Json}

namespace Json

/-- No integer is below those of `int64_t`. -/
theorem integer?_lower {n : Int} (h : json.integer? = some n) : -2 ^ 63 ≤ n := by
  cases json with
  | int64 m =>
      obtain rfl : m.toInt = n := Option.some.inj h
      exact Int64.le_toInt m
  | uint64 m =>
      obtain rfl : (m.toNat : Int) = n := Option.some.inj h
      omega
  | _ => cases h

/-- A 32-bit number is the integer it stands for. -/
theorem integer?_ofUint32 (n : UInt32) : (ofUint32 n).integer? = some (n.toNat : Int) := by
  simp [ofUint32, integer?]

/-- The unsigned integer of 32 bits a value is, in either storage. -/
def uint32? (json : Json) : Option UInt32 :=
  json.integer?.bind fun n => if 0 ≤ n ∧ n < 2 ^ 32 then some (UInt32.ofNat n.toNat) else none

/-- The signed integer of 64 bits a value is, in either storage. -/
def int64? (json : Json) : Option Int64 :=
  json.integer?.bind fun n => if n < 2 ^ 63 then some (Int64.ofInt n) else none

/-- An integer below `2 ^ 32` is read as a 32-bit number. -/
theorem uint32?_eq_some {n : Nat} (h : json.integer? = some (n : Int)) (hn : n < 2 ^ 32) :
    json.uint32? = some (UInt32.ofNat n) := by
  have hbounds : 0 ≤ (n : Int) ∧ (n : Int) < 2 ^ 32 := ⟨Int.natCast_nonneg n, by omega⟩
  rw [uint32?, h, Option.bind_some, if_pos hbounds, Int.toNat_natCast]

theorem integer?_of_uint32? {n : UInt32} (h : json.uint32? = some n) :
    json.integer? = some (n.toNat : Int) := by
  obtain ⟨m, hm, h⟩ := Option.bind_eq_some_iff.mp h
  split at h
  · rename_i hbounds
    obtain rfl := Option.some.inj h
    have hlt : m.toNat < 2 ^ 32 := by omega
    rw [hm, UInt32.toNat_ofNat_of_lt' hlt, Int.toNat_of_nonneg hbounds.1]
  · cases h

/-- An integer below `2 ^ 63` is read as a signed one. -/
theorem int64?_eq_some {n : Int} (h : json.integer? = some n) (hn : n < 2 ^ 63) :
    json.int64? = some (Int64.ofInt n) := by
  rw [int64?, h, Option.bind_some, if_pos hn]

theorem uint32?_ofUint32 (n : UInt32) : (ofUint32 n).uint32? = some n := by
  rw [uint32?_eq_some (integer?_ofUint32 n) n.toNat_lt, UInt32.ofNat_toNat]

end Json

/-- Below the sign bit the cast keeps the number. -/
theorem toInt_toInt64 {m : UInt64} (h : m.toNat < 2 ^ 63) : m.toInt64.toInt = m.toNat := by
  have hbits : 2 * m.toBitVec.toNat < 2 ^ 64 := by
    change 2 * m.toNat < 2 ^ 64
    omega
  exact BitVec.toInt_eq_toNat_of_lt hbits

theorem asInt64_of_integer {n : Int} (h : json.integer? = some n) (hn : n < 2 ^ 63) :
    FieldView.isInt64 ⟨key, some json⟩ = true ∧
      FieldView.asInt64 ⟨key, some json⟩ = .ok (Int64.ofInt n) := by
  cases json with
  | int64 m =>
      obtain rfl : m.toInt = n := Option.some.inj h
      exact ⟨rfl, by rw [Int64.ofInt_toInt]; rfl⟩
  | uint64 m =>
      obtain rfl : (m.toNat : Int) = n := Option.some.inj h
      have hmax : m ≤ FieldView.int64Max := by
        rw [UInt64.le_iff_toNat_le]
        change m.toNat ≤ 9223372036854775807
        omega
      have hvalue : m.toInt64 = Int64.ofInt m.toNat := by
        apply Int64.toInt_inj.mp
        rw [Int64.toInt_ofInt_of_le (by omega) (by omega)]
        exact toInt_toInt64 (by omega)
      simp [FieldView.isInt64, FieldView.asInt64, hmax, hvalue, Pure.pure, Except.pure]
  | _ => cases h

/-- Whatever passes for an `int64` is an integer below `2 ^ 63`. -/
theorem integer_of_isInt64 (h : FieldView.isInt64 ⟨key, some json⟩ = true) :
    ∃ n : Int, json.integer? = some n ∧ n < 2 ^ 63 := by
  cases json with
  | int64 m => exact ⟨m.toInt, rfl, Int64.toInt_lt m⟩
  | uint64 m =>
      simp only [FieldView.isInt64, decide_eq_true_eq, UInt64.le_iff_toNat_le] at h
      change m.toNat ≤ 9223372036854775807 at h
      exact ⟨m.toNat, rfl, by omega⟩
  | _ => cases h

/-- What the accessors of the two types say of a value that is there. -/
theorem uint32_cases (key : String) (json : Json) :
    (∃ n, json.uint32? = some n ∧ FieldView.isUint32 ⟨key, some json⟩ = true ∧
      FieldView.asUint32 ⟨key, some json⟩ = .ok n) ∨
    json.uint32? = none ∧ FieldView.isUint32 ⟨key, some json⟩ = false := by
  cases huint : FieldView.isUint32 ⟨key, some json⟩ with
  | true =>
      obtain ⟨n, hn, hlt⟩ := integer_of_isUint32 huint
      exact .inl ⟨_, Json.uint32?_eq_some hn hlt, rfl, (asUint32_of_integer hn hlt).2⟩
  | false =>
      refine .inr ⟨Option.eq_none_iff_forall_ne_some.mpr fun m hm => ?_, rfl⟩
      obtain ⟨n, hn, hm⟩ := Option.bind_eq_some_iff.mp hm
      split at hm
      · rename_i hbounds
        lift n to Nat using hbounds.1
        obtain ⟨htrue, -⟩ : FieldView.isUint32 ⟨key, some json⟩ = true ∧ _ :=
          asUint32_of_integer hn (by omega)
        cases htrue.symm.trans huint
      · cases hm

theorem asUint32_of_uint32? {key : String} {json : Json} {n : UInt32} (h : json.uint32? = some n) :
    FieldView.isUint32 ⟨key, some json⟩ = true ∧ FieldView.asUint32 ⟨key, some json⟩ = .ok n := by
  obtain ⟨m, hm, huint, has⟩ | ⟨hnone, -⟩ := uint32_cases key json
  · exact ⟨huint, Option.some.inj (hm.symm.trans h) ▸ has⟩
  · cases hnone.symm.trans h

/-- JSON is an integer that fits, or it does not pass for an `int64`. -/
theorem int64_cases (key : String) (json : Json) :
    (∃ n, json.integer? = some n ∧ n < 2 ^ 63 ∧ FieldView.isInt64 ⟨key, some json⟩ = true ∧
      FieldView.asInt64 ⟨key, some json⟩ = .ok (Int64.ofInt n)) ∨
    json.int64? = none ∧ FieldView.isInt64 ⟨key, some json⟩ = false := by
  cases hint : FieldView.isInt64 ⟨key, some json⟩ with
  | true =>
      obtain ⟨n, hn, hlt⟩ := integer_of_isInt64 hint
      exact .inl ⟨n, hn, hlt, rfl, (asInt64_of_integer hn hlt).2⟩
  | false =>
      refine .inr ⟨Option.eq_none_iff_forall_ne_some.mpr fun m hm => ?_, rfl⟩
      obtain ⟨n, hn, hm⟩ := Option.bind_eq_some_iff.mp hm
      split at hm
      · rename_i hlt
        obtain ⟨htrue, -⟩ : FieldView.isInt64 ⟨key, some json⟩ = true ∧ _ :=
          asInt64_of_integer hn hlt
        cases htrue.symm.trans hint
      · cases hm

end RpcSpec.Dsl
