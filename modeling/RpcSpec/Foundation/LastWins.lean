import Mathlib.Data.List.Induction
import Mathlib.Data.List.Nodup
import Mathlib.Data.List.FinRange
set_option autoImplicit false

/-!
# Lists in which the last entry with a key wins

A list of entries that carry keys stands for one entry a key: the last with that
key, in the place of the first.  `lastWins` computes the list of these; adding an
entry at the end of a list replaces an entry of `lastWins` in place, or adds one.
-/

namespace RpcSpec.Foundation

universe u v

variable {F : Type u} {K : Type v} [DecidableEq K] (key : F → K)

/-- The last entry with a key. -/
def lastWith (entries : List F) (k : K) : Option F := entries.reverse.find? fun f => key f = k

/-- The keys, each where it occurs first. -/
def firstKeys (entries : List F) : List K := (entries.map key).eraseDups

/-- For each key the last entry, where the key occurs first. -/
def lastWins (entries : List F) : List F := (firstKeys key entries).filterMap (lastWith key entries)

/-- Put an entry in the place of the one that has its key. -/
def replaceKey (f : F) (entries : List F) : List F :=
  entries.map fun g => if key g = key f then f else g

/-- Replace an entry, or add one where its key is new. -/
def putKey (entries : List F) (f : F) : List F :=
  if key f ∈ entries.map key then replaceKey key f entries else entries ++ [f]

variable {key}

/-! ## The last entry with a key -/

@[simp] theorem lastWith_nil (k : K) : lastWith key [] k = none := rfl

theorem lastWith_concat (entries : List F) (f : F) (k : K) :
    lastWith key (entries ++ [f]) k = if key f = k then some f else lastWith key entries k := by
  by_cases h : key f = k <;> simp [lastWith, h]

theorem key_of_lastWith {entries : List F} {k : K} {f : F} (h : lastWith key entries k = some f) :
    key f = k := by
  simpa using List.find?_some h

theorem lastWith_isSome {entries : List F} {k : K} :
    (lastWith key entries k).isSome ↔ k ∈ entries.map key := by
  simp [lastWith]

/-- Of the entries with a key none stands behind the last. -/
theorem lastWith_eq_some_iff {entries : List F} {k : K} {f : F} :
    lastWith key entries k = some f ↔
      ∃ before after, entries = before ++ f :: after ∧ key f = k ∧ k ∉ after.map key := by
  rw [lastWith, List.find?_eq_some_iff_append]
  constructor
  · rintro ⟨hf, after, before, heq, hafter⟩
    refine ⟨before.reverse, after.reverse, ?_, of_decide_eq_true hf, ?_⟩
    · simpa using congrArg List.reverse heq
    · simpa using hafter
  · rintro ⟨before, after, rfl, hf, hafter⟩
    refine ⟨decide_eq_true hf, after.reverse, before.reverse, by simp, ?_⟩
    simpa using hafter

/-- The entries of a mapped list, by a key that reads the image. -/
theorem map_lastWins {G : Type u} (f : G → F) (entries : List G) :
    (lastWins (key ∘ f) entries).map f = lastWins key (entries.map f) := by
  have hlast : ∀ k, (lastWith (key ∘ f) entries k).map f = lastWith key (entries.map f) k := by
    intro k
    rw [lastWith, lastWith, ← List.map_reverse, List.find?_map]
    rfl
  rw [lastWins, lastWins, List.map_filterMap, firstKeys, firstKeys, List.map_map]
  exact List.filterMap_congr fun k _ => hlast k

/-! ## Adding an entry at the end -/

theorem eraseDups_concat (keys : List K) (k : K) :
    (keys ++ [k]).eraseDups = keys.eraseDups ++ if k ∈ keys then [] else [k] := by
  rw [List.eraseDups_append]
  by_cases h : k ∈ keys
  · simp [List.removeAll, h]
  · simp [List.removeAll, h, List.eraseDups_cons]

theorem firstKeys_concat (entries : List F) (f : F) :
    firstKeys key (entries ++ [f]) =
      firstKeys key entries ++ if key f ∈ entries.map key then [] else [key f] := by
  rw [firstKeys, List.map_append]
  exact eraseDups_concat _ _

theorem mem_firstKeys {entries : List F} {k : K} :
    k ∈ firstKeys key entries ↔ k ∈ entries.map key := List.mem_eraseDups

theorem map_key_lastWins (entries : List F) :
    (lastWins key entries).map key = firstKeys key entries := by
  rw [lastWins, List.map_filterMap]
  have hkey : ∀ k ∈ firstKeys key entries, (lastWith key entries k).map key = some k := by
    intro k hk
    obtain ⟨f, hf⟩ := Option.isSome_iff_exists.mp (lastWith_isSome.mpr (mem_firstKeys.mp hk))
    rw [hf, Option.map_some, key_of_lastWith hf]
  rw [List.filterMap_congr hkey, List.filterMap_some]

theorem mem_map_key_lastWins {entries : List F} {k : K} :
    k ∈ (lastWins key entries).map key ↔ k ∈ entries.map key := by
  rw [map_key_lastWins, mem_firstKeys]

theorem lastWins_concat (entries : List F) (f : F) :
    lastWins key (entries ++ [f]) = putKey key (lastWins key entries) f := by
  by_cases h : key f ∈ entries.map key
  · rw [putKey, if_pos (mem_map_key_lastWins.mpr h), lastWins, firstKeys_concat, if_pos h,
      List.append_nil, replaceKey, lastWins, List.map_filterMap]
    apply List.filterMap_congr
    intro k hk
    obtain ⟨g, hg⟩ := Option.isSome_iff_exists.mp (lastWith_isSome.mpr (mem_firstKeys.mp hk))
    have hkey := key_of_lastWith hg
    rw [lastWith_concat, hg]
    by_cases hk : key f = k
    · simp [hk, hkey]
    · have hne : ¬ key g = key f := fun h => hk (h.symm.trans hkey)
      simp [hk, hne]
  · rw [putKey, if_neg (mem_map_key_lastWins.not.mpr h), lastWins, firstKeys_concat, if_neg h,
      List.filterMap_append, lastWins]
    congr 1
    · apply List.filterMap_congr
      intro k hk
      rw [lastWith_concat, if_neg]
      rintro rfl
      exact h (mem_firstKeys.mp hk)
    · simp [lastWith_concat]

/-- A new key is added at the end. -/
theorem lastWins_concat_new {entries : List F} {f : F} (h : key f ∉ entries.map key) :
    lastWins key (entries ++ [f]) = lastWins key entries ++ [f] := by
  rw [lastWins_concat, putKey, if_neg (mem_map_key_lastWins.not.mpr h)]

/-- A key that is there already has its entry replaced in place. -/
theorem lastWins_concat_old {entries : List F} {f : F} (h : key f ∈ entries.map key) :
    lastWins key (entries ++ [f]) = replaceKey key f (lastWins key entries) := by
  rw [lastWins_concat, putKey, if_pos (mem_map_key_lastWins.mpr h)]

/-! ## The entries left -/

theorem nodup_firstKeys (entries : List F) : (firstKeys key entries).Nodup := by
  induction entries using List.reverseRecOn with
  | nil => simp [firstKeys]
  | append_singleton entries f ih =>
      rw [firstKeys_concat]
      by_cases h : key f ∈ entries.map key
      · simpa [h] using ih
      · rw [if_neg h, List.nodup_append]
        refine ⟨ih, by simp, ?_⟩
        intro k hk k' hk'
        rintro rfl
        rw [List.mem_singleton] at hk'
        exact h (hk' ▸ mem_firstKeys.mp hk)

/-- No two of them have one key. -/
theorem nodup_map_key_lastWins (entries : List F) :
    ((lastWins key entries).map key).Nodup := by
  rw [map_key_lastWins]
  exact nodup_firstKeys entries

/-- Where no key occurs twice nothing is replaced. -/
theorem lastWins_of_nodup {entries : List F} (h : (entries.map key).Nodup) :
    lastWins key entries = entries := by
  induction entries using List.reverseRecOn with
  | nil => rfl
  | append_singleton entries f ih =>
      rw [List.map_append, List.nodup_append] at h
      rw [lastWins_concat_new fun hmem => h.2.2 _ hmem (key f) (by simp) rfl, ih h.1]

theorem lastWins_lastWins (entries : List F) :
    lastWins key (lastWins key entries) = lastWins key entries :=
  lastWins_of_nodup (nodup_map_key_lastWins entries)

theorem lastWith_of_mem_lastWins {entries : List F} {f : F} (h : f ∈ lastWins key entries) :
    lastWith key entries (key f) = some f := by
  obtain ⟨k, -, hk⟩ := List.mem_filterMap.mp h
  rwa [key_of_lastWith hk]

/-! ### Entries replaced by related ones -/

section Related

variable {R : F → F → Prop}

theorem forall₂_replaceKey (hkey : ∀ f g, R f g → key f = key g) {f : F} {entries entries' : List F}
    (h : List.Forall₂ R entries entries') (hf : ∀ g ∈ entries', key g = key f → R f g) :
    List.Forall₂ R (replaceKey key f entries) entries' := by
  induction h with
  | nil => exact .nil
  | @cons g g' rest rest' hg _ ih =>
      refine .cons ?_ (ih fun other hother => hf other (by simp [hother]))
      dsimp only
      split
      · exact hf g' (by simp) ((hkey g g' hg).symm.trans ‹_›)
      · exact hg

theorem rel_find? {p : F → Bool} (hp : ∀ f g, R f g → p f = p g) {entries entries' : List F}
    (h : List.Forall₂ R entries entries') :
    Option.Rel R (entries.find? p) (entries'.find? p) := by
  induction h with
  | nil => exact .none
  | @cons f g _ _ hfg _ ih =>
      rw [List.find?_cons, List.find?_cons, hp f g hfg]
      split
      · exact .some hfg
      · exact ih

theorem forall₂_filterMap {α : Type v} {g g' : α → Option F} {xs : List α}
    (h : ∀ x ∈ xs, Option.Rel R (g x) (g' x)) :
    List.Forall₂ R (xs.filterMap g) (xs.filterMap g') := by
  induction xs with
  | nil => exact .nil
  | cons x rest ih =>
      have hhead := h x (by simp)
      have hrest := ih fun y hy => h y (by simp [hy])
      rw [List.filterMap_cons, List.filterMap_cons]
      generalize g x = f, g' x = f' at hhead
      cases hhead with
      | none => exact hrest
      | some hfg => exact .cons hfg hrest

/-- Entries replaced one by one, each by one with its key. -/
theorem forall₂_lastWins (hkey : ∀ f g, R f g → key f = key g) {entries entries' : List F}
    (h : List.Forall₂ R entries entries') :
    List.Forall₂ R (lastWins key entries) (lastWins key entries') := by
  have hkeys : entries.map key = entries'.map key := by
    induction h with
    | nil => rfl
    | cons hfg _ ih => rw [List.map_cons, List.map_cons, hkey _ _ hfg, ih]
  rw [lastWins, lastWins, firstKeys, firstKeys, hkeys]
  apply forall₂_filterMap
  intro k _
  refine rel_find? ?_ (List.rel_reverse h)
  intro f g hfg
  rw [hkey f g hfg]

/-- Each override is related to the entry it takes the place of. -/
theorem forall₂_lastWins_append (hrefl : ∀ f, R f f) (hkey : ∀ f g, R f g → key f = key g)
    {entries more : List F} (h : ∀ f ∈ more, ∃ g, lastWith key entries (key f) = some g ∧ R f g) :
    List.Forall₂ R (lastWins key (entries ++ more)) (lastWins key entries) := by
  induction more using List.reverseRecOn with
  | nil =>
      rw [List.append_nil, List.forall₂_same]
      exact fun f _ => hrefl f
  | append_singleton more f ih =>
      obtain ⟨g, hg, hrelated⟩ := h f (by simp)
      have hold : key f ∈ (entries ++ more).map key := by
        have hmem := lastWith_isSome.mp (Option.isSome_of_eq_some hg)
        simp only [List.map_append, List.mem_append]
        exact .inl hmem
      rw [← List.append_assoc, lastWins_concat_old hold]
      refine forall₂_replaceKey hkey (ih fun other hother => h other (by simp [hother])) ?_
      intro g' hg' hsame
      have hlast := lastWith_of_mem_lastWins hg'
      rw [hsame, hg] at hlast
      obtain rfl := Option.some.inj hlast
      exact hrelated

end Related

/-- The entries left are those no later entry has the key of. -/
theorem mem_lastWins {entries : List F} {f : F} :
    f ∈ lastWins key entries ↔
      ∃ before after, entries = before ++ f :: after ∧ key f ∉ after.map key := by
  rw [lastWins, List.mem_filterMap]
  constructor
  · rintro ⟨k, -, hk⟩
    obtain ⟨before, after, heq, rfl, hafter⟩ := lastWith_eq_some_iff.mp hk
    exact ⟨before, after, heq, hafter⟩
  · rintro ⟨before, after, rfl, hafter⟩
    refine ⟨key f, mem_firstKeys.mpr (by simp), ?_⟩
    exact lastWith_eq_some_iff.mpr ⟨before, after, rfl, rfl, hafter⟩

theorem lastWith_append (entries more : List F) (k : K) : lastWith key (entries ++ more) k =
    (lastWith key more k).or (lastWith key entries k) := by
  rw [lastWith, List.reverse_append, List.find?_append]
  rfl

/-- An entry that a later one overrides may as well be another with its key. -/
theorem lastWins_overridden {before after : List F} {f g : F} (hkey : key g = key f)
    (hlater : key f ∈ after.map key) :
    lastWins key (before ++ g :: after) = lastWins key (before ++ f :: after) := by
  have hkeys : firstKeys key (before ++ g :: after) = firstKeys key (before ++ f :: after) := by
    simp only [firstKeys, List.map_append, List.map_cons, hkey]
  rw [lastWins, lastWins, hkeys]
  apply List.filterMap_congr
  intro k _
  rw [lastWith_append, lastWith_append, ← List.singleton_append, lastWith_append,
    ← List.singleton_append (l := after), lastWith_append]
  by_cases hk : key f = k
  · obtain ⟨last, hlast⟩ := Option.isSome_iff_exists.mp (lastWith_isSome.mpr (hk ▸ hlater))
    simp only [hlast, Option.some_or]
  · simp [lastWith, hkey, hk]

/-! ## By position -/

/-- The keys that occur at no earlier position, in order, are the first keys. -/
theorem filterMap_firstPositions {α : Type u} (keys : List K) (g : K → Option α) :
    ((List.range keys.length).filterMap fun i => keys[i]?.bind fun k =>
      if k ∈ keys.take i then none else g k) = keys.eraseDups.filterMap g := by
  induction keys using List.reverseRecOn with
  | nil => rfl
  | append_singleton keys k ih =>
      rw [List.length_append, List.length_singleton, List.range_succ, List.filterMap_append,
        eraseDups_concat, List.filterMap_append, ← ih]
      congr 1
      · apply List.filterMap_congr
        intro i hi
        have hlt : i < keys.length := List.mem_range.mp hi
        rw [List.getElem?_append_left hlt, List.take_append_of_le_length hlt.le]
      · by_cases h : k ∈ keys
        · simp [h]
        · simp only [h, if_false, List.filterMap_cons, List.filterMap_nil,
            List.getElem?_concat_length, Option.bind_some, List.take_left]

end RpcSpec.Foundation
