import RpcSpec.Dsl.Integers
import RpcSpec.Dsl.Selection
set_option autoImplicit false

/-!
# The boolean a value stands for

The lenient converter goes through the kinds of a value one after the other.  Of the integers
it meets those a view reports as signed or as unsigned ones of 32 bits, and an integer that is
neither falls through to the end.

`jsonBool_parse` is what the converter returns for every value, and `jsonBool_follows_iff`
when that is the boolean the value stands for.
-/

namespace RpcSpec.Dsl

open RpcSpec.Foundation FieldView

namespace Json

/-- The boolean that a value other than a `double` stands for. -/
def truth? : Json → Option Bool
  | .null => some false
  | .bool b => some b
  | .int64 n => some (n.toInt ≠ 0)
  | .uint64 n => some (n.toNat ≠ 0)
  | .double _ => none
  | .string text => some (text.head?.any (· ≠ 0))
  | .array items => some (!items.isEmpty)
  | .object members => some (!members.isEmpty)

/-- An integer that `int64_t` does not have. -/
def pastInt64 (json : Json) : Bool := json.integer?.any (2 ^ 63 ≤ ·)

theorem truth?_of_integer {json : Json} {n : Int} (h : json.integer? = some n) :
    json.truth? = some (decide (n ≠ 0)) := by
  cases json with
  | int64 m =>
      obtain rfl : m.toInt = n := Option.some.inj h
      rfl
  | uint64 m =>
      obtain rfl : (m.toNat : Int) = n := Option.some.inj h
      simp [truth?]
  | _ => cases h

end Json

section Converter

variable {key : String} {json : Json} {b : Bool}

/-- An integer is compared with zero where a view reports it. -/
theorem jsonBool_parse_integer {n : Int} (h : json.integer? = some n) :
    jsonBool.parse ⟨key, some json⟩ = .ok (decide (n ≠ 0) && !json.pastInt64) := by
  have hbool : FieldView.isBool ⟨key, some json⟩ = false := by
    cases json <;> first | rfl | cases h
  simp only [jsonBool, jsonBoolConverter, hbool, Bool.false_eq_true, if_false]
  by_cases hpast : 2 ^ 63 ≤ n
  · have huint : FieldView.isUint32 ⟨key, some json⟩ = false := by
      apply Bool.eq_false_iff.mpr
      intro htrue
      obtain ⟨m, hm, hlt⟩ := integer_of_isUint32 htrue
      obtain rfl : n = m := Option.some.inj (h.symm.trans hm)
      omega
    have hint : FieldView.isInt64 ⟨key, some json⟩ = false := by
      apply Bool.eq_false_iff.mpr
      intro htrue
      obtain ⟨m, hm, hlt⟩ := integer_of_isInt64 htrue
      obtain rfl : n = m := Option.some.inj (h.symm.trans hm)
      omega
    have hrest : json.pastInt64 = true := by simpa [Json.pastInt64, h] using hpast
    simp only [huint, hint, hrest, Bool.false_eq_true, if_false, Bool.not_true, Bool.and_false]
    -- nothing that is asked afterwards holds of an integer
    cases json <;> first | rfl | cases h
  · have hrest : json.pastInt64 = false := by simpa [Json.pastInt64, h] using hpast
    obtain ⟨hint, has⟩ : FieldView.isInt64 ⟨key, some json⟩ = true ∧ _ :=
      asInt64_of_integer h (by omega)
    simp only [hint, has, hrest, if_true, Bool.not_false, Bool.and_true]
    cases huint : FieldView.isUint32 ⟨key, some json⟩ with
    | true =>
        obtain ⟨m, hm, hlt⟩ := integer_of_isUint32 huint
        obtain rfl : n = m := Option.some.inj (h.symm.trans hm)
        rw [if_pos rfl, (asUint32_of_integer h hlt).2]
        have hzero : (UInt32.ofNat m != 0) = decide ((m : Int) ≠ 0) := by
          have hiff : UInt32.ofNat m = 0 ↔ m = 0 := by
            rw [← UInt32.toNat_inj, UInt32.toNat_ofNat_of_lt' hlt]
            rfl
          simp [bne, beq_eq_decide, hiff]
        exact congrArg Except.ok hzero
    | false =>
        have hlower := Json.integer?_lower h
        have hzero : (Int64.ofInt n != 0) = decide (n ≠ 0) := by
          have hiff : Int64.ofInt n = 0 ↔ n = 0 := by
            rw [← Int64.toInt_inj, Int64.toInt_ofInt_of_le (by omega) (by omega)]
            rfl
          simp [bne, beq_eq_decide, hiff]
        exact congrArg Except.ok hzero

/-- What the lenient converter makes of a value. -/
theorem jsonBool_parse (hb : json.truth? = some b) :
    jsonBool.parse ⟨key, some json⟩ = .ok (b && !json.pastInt64) := by
  cases json with
  | int64 n =>
      rw [jsonBool_parse_integer (n := n.toInt) rfl]
      obtain rfl := Option.some.inj hb
      rfl
  | uint64 n =>
      rw [jsonBool_parse_integer (n := n.toNat) rfl]
      obtain rfl := Option.some.inj ((Json.truth?_of_integer rfl).symm.trans hb)
      rfl
  | null =>
      obtain rfl := Option.some.inj hb
      rfl
  | bool b' =>
      obtain rfl := Option.some.inj hb
      exact congrArg Except.ok (Bool.and_true b').symm
  | double bits => cases hb
  | string text =>
      obtain rfl := Option.some.inj hb
      cases text with
      | nil => rfl
      | cons c rest =>
          change Except.ok (some c != some 0) = _
          simp [Json.pastInt64, Json.integer?, bne, beq_eq_decide]
  | array items =>
      obtain rfl := Option.some.inj hb
      cases items <;> rfl
  | object members =>
      obtain rfl := Option.some.inj hb
      cases members <;> rfl

/-- The converter follows the value unless that is an integer past `int64_t`. -/
theorem jsonBool_follows_iff (hb : json.truth? = some b) :
    jsonBool.parse ⟨key, some json⟩ = .ok b ↔ json.pastInt64 = false := by
  rw [jsonBool_parse hb, Except.ok.injEq]
  cases hpast : json.pastInt64 with
  | false => simp
  | true =>
      -- such an integer is not zero, so it stands for `true`
      obtain ⟨n, hn, hle⟩ : ∃ n, json.integer? = some n ∧ 2 ^ 63 ≤ n := by
        simpa [Json.pastInt64, Option.any_eq_true] using hpast
      have htrue : b = true := by
        obtain rfl := Option.some.inj ((Json.truth?_of_integer hn).symm.trans hb)
        simpa using (by omega : n ≠ 0)
      simp [htrue]

end Converter

end RpcSpec.Dsl
