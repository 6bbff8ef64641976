import RpcSpec.Admission.AdmissionSpec
import Mathlib.Data.List.Nodup
set_option autoImplicit false

/-!
# The price of a size

A ramp of tiers prices a payload by its size alone, and the price is a step function of
the size that never falls.  As the payloads above the cap are the larger ones, dropping
one costs its sender no less than an admitted payload costs.
-/

namespace RpcSpec.Admission

/-- Tiers with ascending bounds whose costs do not fall. -/
structure SizeRamp where
  tiers : List SizeTier
  nonempty : tiers ≠ []
  bounds_ascend : tiers.Pairwise fun tier tier' => tier.upToBytes < tier'.upToBytes
  costs_ascend : tiers.Pairwise fun tier tier' => tier.cost ≤ tier'.cost

/-- The tier with the least bound that the size does not exceed. -/
structure LeastTier (tiers : List SizeTier) (bytes : Nat) (tier : SizeTier) : Prop where
  mem : tier ∈ tiers
  fits : bytes ≤ tier.upToBytes
  least : ∀ tier' ∈ tiers, bytes ≤ tier'.upToBytes → tier.upToBytes ≤ tier'.upToBytes

/-- The size exceeds every bound. -/
def BeyondTiers (tiers : List SizeTier) (bytes : Nat) : Prop :=
  ∀ tier ∈ tiers, tier.upToBytes < bytes

/-! ## The first match -/

section Tiers

variable {tiers : List SizeTier} {bytes bytes' : Nat}

theorem costFor_cons_fits {tier : SizeTier} (rest : List SizeTier)
    (h : bytes ≤ tier.upToBytes) : costFor (tier :: rest) bytes = tier.cost := by
  have hfind : (tier :: rest).find? (fun tier => bytes ≤ tier.upToBytes) = some tier :=
    List.find?_cons_of_pos (decide_eq_true h)
  rw [costFor, hfind]

theorem costFor_cons_exceeds {tier : SizeTier} {rest : List SizeTier} (hrest : rest ≠ [])
    (h : tier.upToBytes < bytes) : costFor (tier :: rest) bytes = costFor rest bytes := by
  rw [costFor, costFor, List.find?_cons_of_neg (by simpa using h), List.getLast?_cons,
    List.getLast?_eq_some_getLast hrest]
  rfl

theorem costFor_singleton (tier : SizeTier) (bytes : Nat) :
    costFor [tier] bytes = tier.cost := by
  by_cases h : bytes ≤ tier.upToBytes
  · exact costFor_cons_fits [] h
  · rw [costFor, List.find?_cons_of_neg (by simpa using h)]
    rfl

/-- The cost is that of one of the tiers. -/
theorem costFor_mem (hnonempty : tiers ≠ []) (bytes : Nat) :
    ∃ tier ∈ tiers, costFor tiers bytes = tier.cost := by
  cases hfind : tiers.find? (fun tier => bytes ≤ tier.upToBytes) with
  | some tier => exact ⟨tier, List.mem_of_find?_eq_some hfind, by rw [costFor, hfind]⟩
  | none =>
      refine ⟨tiers.getLast hnonempty, List.getLast_mem hnonempty, ?_⟩
      rw [costFor, hfind, List.getLast?_eq_some_getLast hnonempty]
      rfl

/-- Behind every bound it is the last tier that counts. -/
theorem costFor_beyond (hnonempty : tiers ≠ []) (h : BeyondTiers tiers bytes) :
    costFor tiers bytes = (tiers.getLast hnonempty).cost := by
  have hnone : tiers.find? (fun tier => bytes ≤ tier.upToBytes) = none := by
    rw [List.find?_eq_none]
    intro tier htier
    simpa using h tier htier
  rw [costFor, hnone, List.getLast?_eq_some_getLast hnonempty]
  rfl

/-- Of tiers with ascending bounds the first match is the least. -/
theorem leastTier_of_find? (hbounds : tiers.Pairwise fun tier tier' =>
    tier.upToBytes < tier'.upToBytes) {tier : SizeTier}
    (h : tiers.find? (fun tier => bytes ≤ tier.upToBytes) = some tier) :
    LeastTier tiers bytes tier := by
  obtain ⟨hfits, before, after, rfl, hbefore⟩ := List.find?_eq_some_iff_append.mp h
  refine ⟨by simp, of_decide_eq_true hfits, ?_⟩
  intro tier' htier' hfits'
  obtain htier' | htier' := List.mem_append.mp htier'
  · have hexceeds := hbefore tier' htier'
    simp only [Bool.not_eq_true', decide_eq_false_iff_not] at hexceeds
    exact absurd hfits' hexceeds
  · obtain rfl | hafter := List.mem_cons.mp htier'
    · exact le_rfl
    · have hlater := (List.pairwise_append.mp hbounds).2.1
      exact (List.rel_of_pairwise_cons hlater hafter).le

/-- A size that some tier covers has the cost of the least tier that does. -/
theorem costFor_leastTier (hbounds : tiers.Pairwise fun tier tier' =>
    tier.upToBytes < tier'.upToBytes) {tier : SizeTier} (h : LeastTier tiers bytes tier) :
    costFor tiers bytes = tier.cost := by
  cases hfind : tiers.find? (fun tier => bytes ≤ tier.upToBytes) with
  | none =>
      have hexceeds := List.find?_eq_none.mp hfind tier h.mem
      exact absurd h.fits (by simpa using hexceeds)
  | some found =>
      have hfound := leastTier_of_find? hbounds hfind
      have hsame : found.upToBytes = tier.upToBytes :=
        le_antisymm (hfound.least tier h.mem h.fits) (h.least found hfound.mem hfound.fits)
      have hbounds' : (tiers.map SizeTier.upToBytes).Nodup :=
        List.pairwise_map.mpr (hbounds.imp ne_of_lt)
      rw [costFor, hfind, List.inj_on_of_nodup_map hbounds' hfound.mem h.mem hsame]

/-- Some tier covers the size, or none does. -/
theorem leastTier_or_beyond (hbounds : tiers.Pairwise fun tier tier' =>
    tier.upToBytes < tier'.upToBytes) (bytes : Nat) :
    (∃ tier, LeastTier tiers bytes tier) ∨ BeyondTiers tiers bytes := by
  cases hfind : tiers.find? (fun tier => bytes ≤ tier.upToBytes) with
  | some tier => exact .inl ⟨tier, leastTier_of_find? hbounds hfind⟩
  | none =>
      right
      intro tier htier
      simpa using List.find?_eq_none.mp hfind tier htier

/-- Where costs do not fall from tier to tier, they do not fall with the size. -/
theorem costFor_le_costFor (hcosts : tiers.Pairwise fun tier tier' => tier.cost ≤ tier'.cost)
    (h : bytes ≤ bytes') : costFor tiers bytes ≤ costFor tiers bytes' := by
  induction tiers with
  | nil => exact le_rfl
  | cons tier rest ih =>
      by_cases hrest : rest = []
      · rw [hrest, costFor_singleton, costFor_singleton]
      obtain hfits | hexceeds := le_or_gt bytes tier.upToBytes
      · rw [costFor_cons_fits rest hfits]
        obtain ⟨tier', hmem, hcost⟩ := costFor_mem (List.cons_ne_nil tier rest) bytes'
        rw [hcost]
        obtain rfl | hlater := List.mem_cons.mp hmem
        · exact le_rfl
        · exact List.rel_of_pairwise_cons hcosts hlater
      · rw [costFor_cons_exceeds hrest hexceeds,
          costFor_cons_exceeds hrest (hexceeds.trans_le h)]
        exact ih hcosts.of_cons

end Tiers

/-! ## Pricing by a ramp -/

/-- A size costs what its tier costs, and a larger one no less. -/
structure PricesBy (ramp : SizeRamp) : Prop where
  covered : ∀ bytes, (∃ tier, LeastTier ramp.tiers bytes tier) ∨ BeyondTiers ramp.tiers bytes
  least : ∀ bytes tier, LeastTier ramp.tiers bytes tier → costFor ramp.tiers bytes = tier.cost
  beyond : ∀ bytes, BeyondTiers ramp.tiers bytes →
    costFor ramp.tiers bytes = (ramp.tiers.getLast ramp.nonempty).cost
  monotone : Monotone (costFor ramp.tiers)

/-- Payloads above the cap are dropped, at a price no admitted payload exceeds. -/
structure CapsBy (spec : AdmissionSpec) (cfg : ResolvedTunables spec.Extra) : Prop where
  drops : ∀ payload,
    (spec.preAdmit payload cfg).dropped = true ↔ cfg.maxPayloadBytes < payload.size
  penalty : ∀ payload payload', (spec.preAdmit payload cfg).dropped = true →
    (spec.preAdmit payload' cfg).admitted = true →
      (spec.preAdmit payload' cfg).tokenCost ≤ (spec.preAdmit payload cfg).tokenCost

theorem pricesBy (ramp : SizeRamp) : PricesBy ramp where
  covered := leastTier_or_beyond ramp.bounds_ascend
  least := fun _ _ => costFor_leastTier ramp.bounds_ascend
  beyond := fun _ => costFor_beyond ramp.nonempty
  monotone := fun _ _ => costFor_le_costFor ramp.costs_ascend

section PreAdmit

variable (spec : AdmissionSpec) (payload : ByteSpan) (cfg : ResolvedTunables spec.Extra)

/-- Dropped or not, a payload costs what its size does. -/
theorem preAdmit_tokenCost :
    (spec.preAdmit payload cfg).tokenCost = costFor cfg.sizeRamp payload.size := by
  unfold AdmissionSpec.preAdmit
  split <;> rfl

theorem preAdmit_dropped_iff :
    (spec.preAdmit payload cfg).dropped = true ↔ cfg.maxPayloadBytes < payload.size := by
  unfold AdmissionSpec.preAdmit
  split
  · rename_i h
    exact iff_of_true rfl h
  · rename_i h
    exact iff_of_false Bool.false_ne_true h

end PreAdmit

theorem capsBy_of_monotone {spec : AdmissionSpec} {cfg : ResolvedTunables spec.Extra}
    (hmonotone : Monotone (costFor cfg.sizeRamp)) : CapsBy spec cfg where
  drops := fun payload => preAdmit_dropped_iff spec payload cfg
  penalty := by
    intro payload payload' hdropped hadmitted
    have habove := (preAdmit_dropped_iff spec payload cfg).mp hdropped
    have hwithin : payload'.size ≤ cfg.maxPayloadBytes := by
      rw [← not_lt, ← preAdmit_dropped_iff spec payload' cfg,
        AdmissionDecision.dropped_eq_not_admitted, hadmitted]
      exact Bool.false_ne_true
    rw [preAdmit_tokenCost, preAdmit_tokenCost]
    exact hmonotone (hwithin.trans habove.le)

/-- By a ramp every payload is priced, below the cap and above it. -/
theorem sizeRamp_prices (ramp : SizeRamp) :
    PricesBy ramp ∧ ∀ (spec : AdmissionSpec) (maxPayloadBytes : Nat) (extra : spec.Extra),
      CapsBy spec ⟨maxPayloadBytes, ramp.tiers, extra⟩ :=
  ⟨pricesBy ramp, fun _ _ _ => capsBy_of_monotone (pricesBy ramp).monotone⟩

example : SizeRamp where
  tiers := [⟨1024, 1 / 2⟩, ⟨5 * 1024, 1⟩, ⟨64 * 1024, 4⟩]
  nonempty := by decide
  bounds_ascend := by decide
  costs_ascend := by decide +kernel

end RpcSpec.Admission
