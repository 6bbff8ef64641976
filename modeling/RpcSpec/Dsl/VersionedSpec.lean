import RpcSpec.Dsl.SpecDump
import RpcSpec.Foundation.Moves
set_option autoImplicit false

/-!
# Specs by API version (`VersionedSpec.hpp`, `RpcSpecView.hpp`, `HandlerFor.hpp`)

A handler has one spec for each version of the API, the versions counted from one.  Which of
them serves a request is told by the version the request is made under.

`specFor_mem` and `specFor_map` are what the results about handlers use: the spec that is
chosen is one of the handler's, and choosing commutes with looking at it.
-/

namespace RpcSpec.Dsl

open RpcSpec.Foundation

universe u v

/-- `VersionedSpec`.  Its `static_assert` refuses a handler without specs. -/
structure VersionedSpec (Spec : Type u) where
  specs : List Spec
  nonempty : specs ≠ []

namespace VersionedSpec

variable {Spec : Type u} {α : Type v}

/-- `indexFor`. -/
def indexFor (kCount : Nat) (apiVersion : UInt32) : Nat :=
  if apiVersion.toNat ≥ 1 && apiVersion.toNat ≤ kCount then apiVersion.toNat - 1 else kCount - 1

/-- `selected`, from the spec with the index `i` on; the last one is not compared. -/
def selectedFrom (index i : Nat) (fn : Spec → α) : (specs : List Spec) → specs ≠ [] → α
  | [spec], _ => fn spec
  | spec :: next :: rest, _ =>
      if i = index then fn spec
      else selectedFrom index (i + 1) fn (next :: rest) (List.cons_ne_nil _ _)

/-- `selected`. -/
def selected (versioned : VersionedSpec Spec) (apiVersion : UInt32) (fn : Spec → α) : α :=
  selectedFrom (indexFor versioned.specs.length apiVersion) 0 fn versioned.specs versioned.nonempty

theorem indexFor_lt {kCount : Nat} (h : 0 < kCount) (apiVersion : UInt32) :
    indexFor kCount apiVersion < kCount := by
  rw [indexFor]
  split
  · rename_i hversion
    simp only [Bool.and_eq_true, decide_eq_true_eq] at hversion
    omega
  · omega

theorem selectedFrom_eq (fn : Spec → α) :
    ∀ (specs : List Spec) (hne : specs ≠ []) (index i : Nat), i ≤ index →
      ∀ hlt : index - i < specs.length,
      selectedFrom index i fn specs hne = fn (specs.get ⟨index - i, hlt⟩)
  | [spec], _, index, i, _, hlt => by
      have hzero : index - i = 0 := Nat.lt_one_iff.mp hlt
      simp [selectedFrom, hzero]
  | spec :: next :: rest, _, index, i, hindex, hlt => by
      rw [selectedFrom]
      split
      · subst i
        simp
      · have hrest : index - (i + 1) < (next :: rest).length := by
          simp only [List.length_cons] at hlt ⊢
          omega
        rw [selectedFrom_eq fn (next :: rest) _ index (i + 1) (by omega) hrest]
        have hstep : index - i = index - (i + 1) + 1 := by omega
        simp [hstep]

/-- The spec that serves a version. -/
def specFor (versioned : VersionedSpec Spec) (apiVersion : UInt32) : Spec :=
  versioned.specs.get ⟨indexFor versioned.specs.length apiVersion,
    indexFor_lt (List.length_pos_of_ne_nil versioned.nonempty) apiVersion⟩

theorem selected_eq (versioned : VersionedSpec Spec) (apiVersion : UInt32) (fn : Spec → α) :
    versioned.selected apiVersion fn = fn (versioned.specFor apiVersion) :=
  selectedFrom_eq fn versioned.specs versioned.nonempty
    (indexFor versioned.specs.length apiVersion) 0 (Nat.zero_le _)
    (indexFor_lt (List.length_pos_of_ne_nil versioned.nonempty) apiVersion)

theorem specFor_mem (versioned : VersionedSpec Spec) (apiVersion : UInt32) :
    versioned.specFor apiVersion ∈ versioned.specs := List.get_mem _ _

/-- Versioned specs whose specs are made from those of another serve each version alike. -/
theorem specFor_map {Spec' : Type u} {f : Spec → Spec'} {versioned : VersionedSpec Spec}
    {versioned' : VersionedSpec Spec'} (h : versioned.specs.map f = versioned'.specs)
    (apiVersion : UInt32) : f (versioned.specFor apiVersion) = versioned'.specFor apiVersion := by
  obtain ⟨specs, hne⟩ := versioned
  obtain ⟨specs', hne'⟩ := versioned'
  subst h
  simp [specFor]

end VersionedSpec

/-! ## What a handler does with a version -/

section

variable {Input : Type} [InputAggregate Input]

/-- `RpcSpecView`: a spec behind its three functions. -/
structure RpcSpecView where
  process : EStateM Failure Json Unit
  check : Json → Warnings
  dump : SpecDumpWriter → SpecDumpWriter

/-- The view of a `TypedSpec`, of which `process` does nothing. -/
def ShownSpec.view [Build] [LibXrpl] (shown : ShownSpec Input) : RpcSpecView where
  process := pure ()
  check := shown.spec.check
  dump := shown.dump

namespace VersionedSpec

variable [Build] [LibXrpl]

/-- `VersionedSpec::parse` and `HandlerFor::parseInput`, which are given a copy of the
request. -/
def parse (versioned : VersionedSpec (TypedSpec Input)) (apiVersion : UInt32) (value : Json) :
    Except Failure Input :=
  versioned.selected apiVersion fun spec => answer (spec.parse value)

/-- `VersionedSpec::check`. -/
def check (versioned : VersionedSpec (TypedSpec Input)) (apiVersion : UInt32) (root : Json) :
    Warnings :=
  versioned.selected apiVersion fun spec => spec.check root

/-- `VersionedSpec::view` and `HandlerFor::spec`. -/
def view (versioned : VersionedSpec (ShownSpec Input)) (apiVersion : UInt32) : RpcSpecView :=
  versioned.selected apiVersion fun spec => spec.view

end VersionedSpec

end

end RpcSpec.Dsl
