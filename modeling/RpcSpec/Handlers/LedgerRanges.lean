import RpcSpec.Dsl.Verdicts
import RpcSpec.Handlers.History
set_option autoImplicit false

/-!
# Bounds of a range of ledgers

`ledger_index_min` and `ledger_index_max` of the searches through the history.  A bound is an
integer of `int64_t`, of which -1 stands for no bound and any other is kept within `int32_t`.

`ranges_read` says of the specs with such bounds which values are accepted, what they are
read as, and that of two bounds on one side of -1 the larger is not read as the smaller.
-/

namespace RpcSpec.Handlers

open RpcSpec.Dsl RpcSpec.Foundation

/-! ## The items and the converter -/

/-- The nearest integer of `int32_t`. -/
def nearestInt32 (n : Int) : Int := Min.min (max n (-2 ^ 31)) (2 ^ 31 - 1)

/-- What a bound is read as: nothing where it is absent or -1. -/
def boundVerdict : Option Json → Option (Option Int32)
  | none => some none
  | some json => json.int64?.map fun n =>
      if n = -1 then none else some (Int32.ofInt (nearestInt32 n.toInt))

theorem toInt_nearestInt32 (n : Int) : (Int32.ofInt (nearestInt32 n)).toInt = nearestInt32 n := by
  unfold nearestInt32
  exact Int32.toInt_ofInt_of_le (by omega) (by omega)

theorem nearestInt32_eq_neg_one_iff {n : Int} : nearestInt32 n = -1 ↔ n = -1 := by
  unfold nearestInt32
  omega

/-- A larger number has no smaller nearest one. -/
theorem nearestInt32_mono {n n' : Int} (h : n ≤ n') : nearestInt32 n ≤ nearestInt32 n' := by
  unfold nearestInt32
  omega

/-- What the converter makes of an integer that the clamp has been at. -/
theorem int32BoundConverter_clamped (key : String) {n : Int} (hlo : -2 ^ 63 ≤ n)
    (hhi : n < 2 ^ 63) :
    int32BoundConverter.parse ⟨key, some (ClampAs.clamped .int32 (Int64.ofInt n))⟩ =
      .ok (if n = -1 then none else some (Int32.ofInt (nearestInt32 n))) := by
  have hclamped : (ClampAs.clamped .int32 (Int64.ofInt n)).integer? = _ :=
    ClampAs.integer?_clamped (by decide) (by decide) _
  rw [Int64.toInt_ofInt_of_le hlo hhi] at hclamped
  change _ = some (nearestInt32 n) at hclamped
  have hlt : nearestInt32 n < 2 ^ 63 := by
    unfold nearestInt32
    omega
  have hsentinel : Int32.ofInt (nearestInt32 n) = -1 ↔ n = -1 := by
    rw [← Int32.toInt_inj, toInt_nearestInt32]
    exact nearestInt32_eq_neg_one_iff
  change (FieldView.asInt64 _ >>= fun value => if value.toInt32 = -1 then pure none
    else pure (some value.toInt32) : Parsed (Option Int32)) = _
  rw [(asInt64_of_integer hclamped hlt).2]
  change (if (Int64.ofInt (nearestInt32 n)).toInt32 = -1 then pure none
    else pure (some (Int64.ofInt (nearestInt32 n)).toInt32) : Parsed (Option Int32)) = _
  rw [Int64.toInt32_ofInt]
  by_cases hn : n = -1
  · rw [if_pos (hsentinel.mpr hn), if_pos hn]
    rfl
  · rw [if_neg (mt hsentinel.mp hn), if_neg hn]
    rfl

theorem boundVerdict_of_integer {json : Json} {n : Int} (h : json.integer? = some n)
    (hn : n < 2 ^ 63) : boundVerdict (some json) =
      some (if n = -1 then none else some (Int32.ofInt (nearestInt32 n))) := by
  have hlower := Json.integer?_lower h
  have hsentinel : Int64.ofInt n = -1 ↔ n = -1 := by
    rw [← Int64.toInt_inj, Int64.toInt_ofInt_of_le hlower hn]
    rfl
  rw [boundVerdict, Json.int64?_eq_some h hn, Option.map_some,
    Int64.toInt_ofInt_of_le hlower hn]
  simp only [hsentinel]

/-- The items and the converter come to this verdict. -/
theorem resolve_int32Bound (key : String) (json : Option Json) :
    (resolve int32BoundItems int32BoundConverter ⟨key, json⟩).map (·.elim none id) =
      boundVerdict json := by
  cases json with
  | none => rfl
  | some json =>
      rw [resolve, int32BoundItems, leaves_cons, leaves_type_int64]
      obtain ⟨n, hn, hlt, -, -⟩ | ⟨hnone, -⟩ := int64_cases key json
      · rw [boundVerdict_of_integer hn hlt, Json.int64?_eq_some hn hlt, Option.map_some,
          Option.bind_some, leaves_cons, leaves_clampAs _ hn hlt, Option.bind_some, leaves_nil,
          Option.bind_some, int32BoundConverter_clamped key (Json.integer?_lower hn) hlt]
        rfl
      · rw [boundVerdict, hnone]
        rfl

/-! ## A bound of a spec -/

section Bounds

variable {Input : Type} [InputAggregate Input] [Build] [LibXrpl] {spec : TypedSpec Input}
  {key : String} {read : Input → Option Int32}

/-- How a spec reads the bound under a key. -/
structure BoundRead (spec : TypedSpec Input) (key : String) (read : Input → Option Int32) :
    Prop where
  absent : ∀ root, root.member? key = none → spec.OthersPass key root →
    ∃ input root', spec.parse root = .ok input root'
  accepts : ∀ root json, root.member? key = some json → spec.OthersPass key root →
    ((∃ input root', spec.parse root = .ok input root') ↔
      ∃ n, json.integer? = some n ∧ -2 ^ 63 ≤ n ∧ n < 2 ^ 63)
  unset : ∀ root input root', spec.parse root = .ok input root' →
    (read input = none ↔ root.member? key = none ∨
      ∃ json, root.member? key = some json ∧ json.integer? = some (-1))
  clamped : ∀ root input root', spec.parse root = .ok input root' →
    ∀ json n, root.member? key = some json → json.integer? = some n → n ≠ -1 →
      ∃ m, read input = some m ∧ m.toInt = nearestInt32 n
  /-- Of two integers on one side of -1 the larger is not read as the smaller bound. -/
  monotone : ∀ root input root' next nextInput next',
    spec.parse root = .ok input root' → spec.parse next = .ok nextInput next' →
    ∀ json json' n n', root.member? key = some json → next.member? key = some json' →
      json.integer? = some n → json'.integer? = some n' → n ≤ n' → n' < -1 ∨ -1 < n →
        ∃ m m', read input = some m ∧ read nextInput = some m' ∧ m.toInt ≤ m'.toInt

omit [LibXrpl] [Build] in
/-- A verdict is given on the integers of `int64_t`. -/
theorem boundVerdict_isSome_iff {json : Json} : (boundVerdict (some json)).isSome = true ↔
    ∃ n, json.integer? = some n ∧ -2 ^ 63 ≤ n ∧ n < 2 ^ 63 := by
  constructor
  · intro h
    obtain ⟨n, hn, hlt, -, -⟩ | ⟨hnone, -⟩ := int64_cases "" json
    · exact ⟨n, hn, Json.integer?_lower hn, hlt⟩
    · rw [boundVerdict, hnone] at h
      cases h
  · rintro ⟨n, hn, -, hlt⟩
    rw [boundVerdict_of_integer hn hlt, Option.isSome_some]

/-- From the verdict on a bound to the statement about the handler. -/
theorem boundRead_of_decides (h : Decides spec key read boundVerdict) :
    BoundRead spec key read := by
  have hreads {root root' : Json} {input : Input} {json : Json} {n : Int}
      (hrun : spec.parse root = .ok input root') (hjson : root.member? key = some json)
      (hn : json.integer? = some n) :
      read input = if n = -1 then none else some (Int32.ofInt (nearestInt32 n)) := by
    have hverdict := h.reads root input root' hrun
    rw [hjson] at hverdict
    obtain ⟨m, hm, -, hlt⟩ :=
      boundVerdict_isSome_iff.mp (Option.isSome_iff_exists.mpr ⟨_, hverdict⟩)
    obtain rfl : m = n := Option.some.inj (hm.symm.trans hn)
    rw [boundVerdict_of_integer hn hlt] at hverdict
    exact (Option.some.inj hverdict).symm
  have hclamped {root root' : Json} {input : Input} {json : Json} {n : Int}
      (hrun : spec.parse root = .ok input root') (hjson : root.member? key = some json)
      (hn : json.integer? = some n) (hne : n ≠ -1) :
      ∃ m, read input = some m ∧ m.toInt = nearestInt32 n := by
    refine ⟨_, ?_, toInt_nearestInt32 n⟩
    rw [hreads hrun hjson hn, if_neg hne]
  constructor
  case absent =>
    intro root hnone hpass
    rw [h.accepts root hpass, hnone]
    rfl
  case accepts =>
    intro root json hjson hpass
    rw [h.accepts root hpass, hjson, boundVerdict_isSome_iff]
  case unset =>
    intro root input root' hrun
    have hverdict := h.reads root input root' hrun
    cases hjson : root.member? key with
    | none =>
        rw [hjson] at hverdict
        simp [← Option.some.inj hverdict]
    | some json =>
        rw [hjson] at hverdict
        obtain ⟨n, hn, -, -⟩ :=
          boundVerdict_isSome_iff.mp (Option.isSome_iff_exists.mpr ⟨_, hverdict⟩)
        rw [hreads hrun hjson hn]
        simp [hn]
  case clamped =>
    intro root input root' hrun json n hjson hn hne
    exact hclamped hrun hjson hn hne
  case monotone =>
    intro root input root' next nextInput next' hrun hrun' json json' n n' hjson hjson' hn hn'
      hle hside
    obtain ⟨m, hm, hvalue⟩ := hclamped hrun hjson hn (by omega)
    obtain ⟨m', hm', hvalue'⟩ := hclamped hrun' hjson' hn' (by omega)
    refine ⟨m, m', hm, hm', ?_⟩
    rw [hvalue, hvalue']
    exact nearestInt32_mono hle

end Bounds

/-! ## The searches through the history -/

section Histories

variable [Build] [LibXrpl]

theorem boundRead_of_field {Input : Type} [InputAggregate Input] {spec : TypedSpec Input}
    {key : String} {member : Member Input (Option Int32)} {unguarded} {read : Input → Option Int32}
    (hset : spec.SetBy read (field key member int32BoundItems int32BoundConverter unguarded))
    (hassign : ∀ out value, read (member.assign out value) = value)
    (hinit : read InputAggregate.init = none) : BoundRead spec key read := by
  apply boundRead_of_decides
  have hdecides := decides_of_field id none hset (fun _ => rfl) hassign
    (.inr ⟨rfl, hinit⟩)
  simpa only [resolve_int32Bound] using hdecides

/-- Both bounds of a range. -/
structure RangeRead {Input : Type} [InputAggregate Input] (spec : TypedSpec Input)
    (lo hi : Input → Option Int32) : Prop where
  least : BoundRead spec "ledger_index_min" lo
  greatest : BoundRead spec "ledger_index_max" hi

/-- The ranges of the searches are read exactly. -/
structure RangesRead : Prop where
  accountTxV1 : RangeRead AccountTx.kInputSpecV1 (·.ledgerIndexMin) (·.ledgerIndexMax)
  accountTxV2 : RangeRead AccountTx.kInputSpecV2 (·.ledgerIndexMin) (·.ledgerIndexMax)
  nftHistoryV1 : RangeRead NftHistory.kInputSpecV1 (·.ledgerIndexMin) (·.ledgerIndexMax)
  nftHistoryV2 : RangeRead NftHistory.kInputSpecV2 (·.ledgerIndexMin) (·.ledgerIndexMax)
  mptokenIssuanceHistory :
    RangeRead MptokenIssuanceHistory.kInputSpec (·.ledgerIndexMin) (·.ledgerIndexMax)

/-- The bounds of `account_tx`. -/
theorem accountTxV1_ranges :
    RangeRead AccountTx.kInputSpecV1 (·.ledgerIndexMin) (·.ledgerIndexMax) where
  least := boundRead_of_field
    (.of_index 2 rfl rfl rfl (by simp [AccountTx.kInputSpecV1])) (fun _ _ => rfl) rfl
  greatest := boundRead_of_field
    (.of_index 3 rfl rfl rfl (by simp [AccountTx.kInputSpecV1])) (fun _ _ => rfl) rfl

/-- The fields that the second version replaces are others. -/
theorem accountTxV2_ranges :
    RangeRead AccountTx.kInputSpecV2 (·.ledgerIndexMin) (·.ledgerIndexMax) where
  least := boundRead_of_field
    (.extend (.of_index 2 rfl rfl rfl (by simp [AccountTx.kInputSpecV1])) rfl (by simp) (by simp))
    (fun _ _ => rfl) rfl
  greatest := boundRead_of_field
    (.extend (.of_index 3 rfl rfl rfl (by simp [AccountTx.kInputSpecV1])) rfl (by simp) (by simp))
    (fun _ _ => rfl) rfl

theorem nftHistory_ranges :
    RangeRead NftHistory.kInputSpecV1 (·.ledgerIndexMin) (·.ledgerIndexMax) where
  least := boundRead_of_field
    (.of_index 2 rfl rfl rfl (by simp [NftHistory.kInputSpecV1])) (fun _ _ => rfl) rfl
  greatest := boundRead_of_field
    (.of_index 3 rfl rfl rfl (by simp [NftHistory.kInputSpecV1])) (fun _ _ => rfl) rfl

/-- The bounds of `mptoken_issuance_history`. -/
theorem mptokenIssuanceHistory_ranges :
    RangeRead MptokenIssuanceHistory.kInputSpec (·.ledgerIndexMin) (·.ledgerIndexMax) where
  least := boundRead_of_field
    (.of_index 4 rfl rfl rfl (by simp [MptokenIssuanceHistory.kInputSpec])) (fun _ _ => rfl) rfl
  greatest := boundRead_of_field
    (.of_index 5 rfl rfl rfl (by simp [MptokenIssuanceHistory.kInputSpec])) (fun _ _ => rfl) rfl

/-- The ledger range of the four specs that have one: which bounds are accepted, that minus
one is no bound, that every other is moved to the nearest 32-bit number, and that bounds on
one side of minus one keep their order. -/
theorem ranges_read : RangesRead where
  accountTxV1 := accountTxV1_ranges
  accountTxV2 := accountTxV2_ranges
  nftHistoryV1 := nftHistory_ranges
  nftHistoryV2 := nftHistory_ranges
  mptokenIssuanceHistory := mptokenIssuanceHistory_ranges

end Histories

end RpcSpec.Handlers
