import Mathlib.Data.Finset.Sort
set_option autoImplicit false

/-!
# Grouping by a key

The values of a list of entries, gathered under the keys of the entries: one group for
each key, in the order of the keys, and within a group the order of the list.  An ordered
map that is filled entry by entry holds these groups, and the groups of a concatenation
are those of its parts, merged.
-/

namespace RpcSpec.Foundation

universe u v w

variable {E : Type u} {K : Type v} {V : Type w} [LinearOrder K] (key : E → K) (value : E → V)

/-- The keys that occur. -/
def keysOf (entries : List E) : Finset K := (entries.map key).toFinset

/-- The values that stand under a key, in order. -/
def valuesAt (entries : List E) (k : K) : List V := (entries.filter fun e => key e = k).map value

/-- For each key, in ascending order, the values that stand under it. -/
def groups (entries : List E) : List (K × List V) :=
  (keysOf key entries).sort.map fun k => (k, valuesAt key value entries k)

/-- The values of the group with a key, none where there is no such group. -/
def groupAt (grouped : List (K × List V)) (k : K) : List V := (grouped.lookup k).getD []

/-- A group for each key of either list, the values of the left one first. -/
def mergeGroups (left right : List (K × List V)) : List (K × List V) :=
  ((left.map Prod.fst).toFinset ∪ (right.map Prod.fst).toFinset).sort.map fun k =>
    (k, groupAt left k ++ groupAt right k)

/-- Put an entry into an ordered map of groups. -/
def putInGroup (grouped : Std.TreeMap K (List V)) (e : E) : Std.TreeMap K (List V) :=
  grouped.alter (key e) fun values => some (values.getD [] ++ [value e])

variable {key value}

/-! ## Keys and values -/

@[simp] theorem mem_keysOf {entries : List E} {k : K} :
    k ∈ keysOf key entries ↔ ∃ e ∈ entries, key e = k := by
  simp [keysOf]

theorem keysOf_append (left right : List E) :
    keysOf key (left ++ right) = keysOf key left ∪ keysOf key right := by
  simp [keysOf]

theorem valuesAt_append (left right : List E) (k : K) :
    valuesAt key value (left ++ right) k =
      valuesAt key value left k ++ valuesAt key value right k := by
  simp [valuesAt]

variable (value) in
/-- A key occurs where a value stands under it. -/
theorem mem_keysOf_iff_valuesAt {entries : List E} {k : K} :
    k ∈ keysOf key entries ↔ valuesAt key value entries k ≠ [] := by
  simp [valuesAt]

/-! ## Groups -/

theorem map_fst_groups (entries : List E) :
    (groups key value entries).map Prod.fst = (keysOf key entries).sort := by
  simp [groups, Function.comp_def]

theorem lookup_map_of_mem {keys : List K} {f : K → List V} {k : K} (h : k ∈ keys) :
    (keys.map fun k => (k, f k)).lookup k = some (f k) := by
  induction keys with
  | nil => cases h
  | cons k' rest ih =>
      rw [List.map_cons, List.lookup_cons]
      by_cases hk : k = k'
      · rw [hk, beq_self_eq_true]
      · rw [beq_false_of_ne hk]
        exact ih ((List.mem_cons.mp h).resolve_left hk)

theorem lookup_map_of_not_mem {keys : List K} {f : K → List V} {k : K} (h : k ∉ keys) :
    (keys.map fun k => (k, f k)).lookup k = none := by
  rw [List.lookup_eq_none_iff]
  simp only [List.mem_map, forall_exists_index, and_imp, forall_apply_eq_imp_iff₂]
  intro k' hk'
  exact bne_iff_ne.mpr fun heq => h (heq ▸ hk')

@[simp] theorem groupAt_groups (entries : List E) (k : K) :
    groupAt (groups key value entries) k = valuesAt key value entries k := by
  rw [groupAt, groups]
  by_cases h : k ∈ keysOf key entries
  · rw [lookup_map_of_mem ((Finset.mem_sort _).mpr h)]
    rfl
  · rw [lookup_map_of_not_mem (mt (Finset.mem_sort _).mp h)]
    rw [mem_keysOf_iff_valuesAt value, not_not] at h
    exact h.symm

/-- What stands under each key decides the groups. -/
theorem groups_congr {entries entries' : List E}
    (h : ∀ k, valuesAt key value entries k = valuesAt key value entries' k) :
    groups key value entries = groups key value entries' := by
  have hkeys : keysOf key entries = keysOf key entries' := by
    ext k
    rw [mem_keysOf_iff_valuesAt value, h, ← mem_keysOf_iff_valuesAt]
  rw [groups, groups, hkeys]
  exact List.map_congr_left fun k _ => Prod.ext rfl (h k)

/-- The groups of a concatenation are those of its parts, merged. -/
theorem groups_append (left right : List E) :
    groups key value (left ++ right) =
      mergeGroups (groups key value left) (groups key value right) := by
  rw [mergeGroups, map_fst_groups, map_fst_groups, Finset.sort_toFinset, Finset.sort_toFinset,
    ← keysOf_append]
  apply List.map_congr_left
  intro k _
  rw [groupAt_groups, groupAt_groups, valuesAt_append]

/-! ## The ordered map -/

theorem getElem?_foldl_putInGroup (entries : List E) (k : K) :
    (entries.foldl (putInGroup key value) ∅)[k]? =
      if k ∈ keysOf key entries then some (valuesAt key value entries k) else none := by
  induction entries using List.reverseRecOn with
  | nil => simp [keysOf]
  | append_singleton entries e ih =>
      have hgetD : ((entries.foldl (putInGroup key value) ∅)[k]?).getD [] =
          valuesAt key value entries k := by
        rw [ih]
        split
        · rfl
        · rename_i h
          rw [mem_keysOf_iff_valuesAt value, not_not] at h
          exact h.symm
      rw [List.foldl_concat, putInGroup, Std.TreeMap.getElem?_alter, keysOf_append,
        valuesAt_append]
      by_cases hk : key e = k
      · subst hk
        rw [if_pos Std.ReflCmp.compare_self, hgetD]
        simp [keysOf, valuesAt]
      · have hne : compare (key e) k ≠ .eq := fun h => hk (compare_eq_iff_eq.mp h)
        rw [if_neg hne, ih]
        have hother : keysOf key [e] = {key e} := rfl
        have hvalues : valuesAt key value [e] k = [] := by simp [valuesAt, hk]
        simp [hother, hvalues, Ne.symm hk]

/-- Filled entry by entry, the map holds the groups in order. -/
theorem toList_foldl_putInGroup (entries : List E) :
    (entries.foldl (putInGroup key value) ∅).toList = groups key value entries := by
  let grouped : Std.TreeMap K (List V) := entries.foldl (putInGroup key value) ∅
  have hget : ∀ k, grouped[k]? =
      if k ∈ keysOf key entries then some (valuesAt key value entries k) else none :=
    getElem?_foldl_putInGroup entries
  have hascending : grouped.keys.Pairwise (· < ·) :=
    Std.TreeMap.ordered_keys.imp fun h => compare_lt_iff_lt.mp h
  have hmem : grouped.keys.toFinset = keysOf key entries := by
    ext k
    rw [List.mem_toFinset, Std.TreeMap.mem_keys, Std.TreeMap.mem_iff_isSome_getElem?, hget]
    split <;> simp_all
  have hkeys : grouped.keys = (keysOf key entries).sort := by
    rw [← hmem, (List.toFinset_sort _ (hascending.imp ne_of_lt)).mpr (hascending.imp le_of_lt)]
  have hentries : grouped.toList = grouped.keys.map fun k =>
      (k, valuesAt key value entries k) := by
    rw [← Std.TreeMap.map_fst_toList_eq_keys, List.map_map]
    refine (List.map_id _).symm.trans (List.map_congr_left ?_)
    rintro ⟨k, values⟩ hentry
    rw [Std.TreeMap.mem_toList_iff_getElem?_eq_some, hget] at hentry
    split at hentry
    · rw [← Option.some.inj hentry]
      rfl
    · cases hentry
  rw [hentries, hkeys]
  rfl

end RpcSpec.Foundation
