import Mathlib.Algebra.Order.BigOperators.Group.List
import Mathlib.Data.List.AList
import Mathlib.Order.Lattice
set_option autoImplicit false

/-!
# Maps with an iteration order

Maps from keys to values with an order of their entries, on Mathlib's
association lists: the number of entries, erasing all entries that satisfy a
predicate, and the scan for an entry of least rank.  Two maps with the same
entries in another order answer every lookup alike.
-/

namespace RpcSpec.Foundation

universe u v w

/-- A map with values of one type. -/
abbrev KeyedMap (α : Type u) (β : Type v) := AList (fun _ : α => β)

namespace KeyedMap

variable {α : Type u} {β : Type v}

/-- Number of entries. -/
def size (m : KeyedMap α β) : Nat := m.entries.length

theorem size_eq_keys (m : KeyedMap α β) : size m = m.keys.length := by
  simp [size, AList.keys, List.keys]

theorem size_perm {m m' : KeyedMap α β} (h : m.entries.Perm m'.entries) : size m = size m' :=
  h.length_eq

/-- A map with fewer keys has fewer entries. -/
theorem size_le_of_keys_subset {γ : Type w} {m : KeyedMap α β} {m' : KeyedMap α γ}
    (h : ∀ k, k ∈ m → k ∈ m') : size m ≤ size m' := by
  rw [size_eq_keys, size_eq_keys]
  exact (List.subperm_of_subset m.keys_nodup
    (fun k hk => AList.mem_keys.mp (h k (AList.mem_keys.mpr hk)))).length_le

section

variable [DecidableEq α]

/-- Erasing a key that is there makes the map smaller by one. -/
theorem size_erase_of_mem {m : KeyedMap α β} {k : α} (h : k ∈ m) :
    size (m.erase k) + 1 = size m := by
  have hmem : k ∈ m.keys := AList.mem_keys.mp h
  have hpos := List.length_pos_of_mem hmem
  rw [size_eq_keys, size_eq_keys, AList.keys_erase, List.length_erase_of_mem hmem]
  omega

/-- A new key makes the map larger by one. -/
theorem size_insert_of_notMem {m : KeyedMap α β} {k : α} (h : k ∉ m) (b : β) :
    size (m.insert k b) = size m + 1 := by
  rw [size, AList.entries_insert_of_notMem h]
  rfl

/-- A key that is there is replaced. -/
theorem size_insert_of_mem {m : KeyedMap α β} {k : α} (h : k ∈ m) (b : β) :
    size (m.insert k b) = size m := by
  have hmem : k ∈ m.keys := AList.mem_keys.mp h
  have hpos := List.length_pos_of_mem hmem
  rw [size_eq_keys, size_eq_keys, AList.keys_insert, List.length_cons,
    List.length_erase_of_mem hmem]
  omega

theorem lookup_isSome_of_mem {m : KeyedMap α β} {k : α} (h : k ∈ m) :
    ∃ b, m.lookup k = some b :=
  Option.isSome_iff_exists.mp (AList.lookup_isSome.mpr h)

/-- What is looked up is an entry, and every entry is looked up. -/
theorem mem_entries_iff {m : KeyedMap α β} {k : α} {b : β} :
    (⟨k, b⟩ : (_ : α) × β) ∈ m.entries ↔ m.lookup k = some b :=
  (AList.mem_lookup_iff (a := k) (b := b) (s := m)).symm

end

/-! ## Erasing by predicate -/

/-- `std::erase_if`: erase every entry whose value satisfies `p`. -/
def eraseIf (m : KeyedMap α β) (p : β → Bool) : KeyedMap α β :=
  ⟨m.entries.filter (fun entry => !p entry.2),
    m.nodupKeys.sublist List.filter_sublist⟩

theorem size_eraseIf_le (m : KeyedMap α β) (p : β → Bool) : size (eraseIf m p) ≤ size m :=
  List.length_filter_le _ _

/-- What is looked up is what was there and not erased. -/
theorem lookup_eraseIf [DecidableEq α] (m : KeyedMap α β) (p : β → Bool) (k : α) :
    (eraseIf m p).lookup k = (m.lookup k).filter (fun b => !p b) := by
  apply Option.ext
  intro b
  rw [← mem_entries_iff, Option.filter_eq_some_iff, ← mem_entries_iff]
  simp [eraseIf]

/-! ## Totals -/

section Total

variable {M : Type w} [AddCommMonoid M]

/-- The sum over all values. -/
def total (f : β → M) (m : KeyedMap α β) : M := (m.entries.map fun entry => f entry.2).sum

theorem total_perm (f : β → M) {m m' : KeyedMap α β} (h : m.entries.Perm m'.entries) :
    total f m = total f m' :=
  (h.map _).sum_eq

section

variable [DecidableEq α]

theorem total_erase (f : β → M) (m : KeyedMap α β) (k : α) :
    total f (m.erase k) = ((m.entries.kerase k).map fun entry => f entry.2).sum := rfl

/-- The total counts the new value and everything under other keys. -/
theorem total_insert (f : β → M) (m : KeyedMap α β) (k : α) (b : β) :
    total f (m.insert k b) = f b + total f (m.erase k) := by
  rw [total, AList.entries_insert, List.map_cons, List.sum_cons]
  rfl

/-- What an entry contributes goes with it. -/
theorem total_erase_of_lookup (f : β → M) {m : KeyedMap α β} {k : α} {b : β}
    (h : m.lookup k = some b) : f b + total f (m.erase k) = total f m := by
  have hmem : k ∈ m.entries.keys := AList.lookup_isSome.mp (Option.isSome_of_eq_some h)
  obtain ⟨b', before, after, -, hentries, herase⟩ := List.exists_of_kerase hmem
  have hlookup : m.lookup k = some b' := by
    rw [← mem_entries_iff, hentries]
    exact List.mem_append_right _ List.mem_cons_self
  cases h.symm.trans hlookup
  rw [total_erase, total, herase, hentries]
  simp only [List.map_append, List.map_cons, List.sum_append, List.sum_cons]
  exact add_left_comm _ _ _

theorem total_erase_of_notMem (f : β → M) {m : KeyedMap α β} {k : α} (h : m.lookup k = none) :
    total f (m.erase k) = total f m := by
  rw [total_erase, List.kerase_of_notMem_keys (AList.lookup_eq_none.mp h)]
  rfl

end

variable [PartialOrder M] [IsOrderedAddMonoid M] {f g : β → M} {m : KeyedMap α β}

theorem total_nonneg (h : ∀ entry ∈ m.entries, 0 ≤ f entry.2) : 0 ≤ total f m := by
  refine List.sum_nonneg fun x hx => ?_
  obtain ⟨entry, hentry, rfl⟩ := List.mem_map.mp hx
  exact h entry hentry

/-- Erasing does not raise a total of values that are not negative. -/
theorem total_erase_le [DecidableEq α] (h : ∀ entry ∈ m.entries, 0 ≤ f entry.2) (k : α) :
    total f (m.erase k) ≤ total f m := by
  cases hlookup : m.lookup k with
  | none => exact (total_erase_of_notMem f hlookup).le
  | some b =>
      rw [← total_erase_of_lookup f hlookup]
      exact le_add_of_nonneg_left (h ⟨k, b⟩ (mem_entries_iff.mpr hlookup))

theorem total_eraseIf_le (h : ∀ entry ∈ m.entries, 0 ≤ f entry.2) (p : β → Bool) :
    total f (eraseIf m p) ≤ total f m := by
  refine (List.filter_sublist.map _).sum_le_sum fun x hx => ?_
  obtain ⟨entry, hentry, rfl⟩ := List.mem_map.mp hx
  exact h entry hentry

/-- When every value gains at most so much. -/
theorem total_le_total_add {gain : M} (h : ∀ entry ∈ m.entries, f entry.2 ≤ g entry.2 + gain) :
    total f m ≤ total g m + size m • gain := by
  calc total f m
      ≤ (m.entries.map fun entry => g entry.2 + gain).sum := List.sum_le_sum h
    _ = total g m + size m • gain := by
        rw [List.sum_map_add, List.map_const', List.sum_replicate]
        rfl

end Total

/-! ## The entry of least rank -/

variable {γ : Type w} [LinearOrder γ]

/-- The scan `best = begin; for (it) if (rank(it) < rank(best)) best = it`. -/
def scanLeast (rank : β → γ) (best : (_ : α) × β) (entries : List ((_ : α) × β)) :
    (_ : α) × β :=
  entries.foldl (fun best entry => if rank entry.2 < rank best.2 then entry else best) best

/-- The first entry of least rank in iteration order, if there is an entry. -/
def least? (m : KeyedMap α β) (rank : β → γ) : Option ((_ : α) × β) :=
  match m.entries with
  | [] => none
  | entry :: _ => some (scanLeast rank entry m.entries)

/-- The value under the one key ranks before that under the other; both are there. -/
def ranksBefore [DecidableEq α] (m : KeyedMap α β) (rank : β → γ) (k k' : α) : Bool :=
  match m.lookup k, m.lookup k' with
  | some b, some b' => decide (rank b < rank b')
  | _, _ => false

/-- The same scan by iterators: each is the key it stands at, and is looked up where it
is read. -/
def scanKeys [DecidableEq α] (m : KeyedMap α β) (rank : β → γ) (best : α) (keys : List α) : α :=
  keys.foldl (fun best k => if ranksBefore m rank k best then k else best) best

/-- Over the keys of entries of the map the scan by iterators finds the same entry. -/
theorem scanKeys_eq [DecidableEq α] {m : KeyedMap α β} (rank : β → γ)
    (entries : List ((_ : α) × β)) :
    ∀ best : (_ : α) × β, (∀ entry ∈ best :: entries, entry ∈ m.entries) →
      scanKeys m rank best.1 (entries.map (·.1)) = (scanLeast rank best entries).1 := by
  induction entries with
  | nil => exact fun best _ => rfl
  | cons entry entries ih =>
      intro best hmem
      have hbest := mem_entries_iff.mp (hmem best List.mem_cons_self)
      have hentry := mem_entries_iff.mp (hmem entry (.tail _ List.mem_cons_self))
      have hrank : ranksBefore m rank entry.1 best.1 = decide (rank entry.2 < rank best.2) := by
        rw [ranksBefore, hentry, hbest]
      change scanKeys m rank (if ranksBefore m rank entry.1 best.1 then entry.1 else best.1)
          (entries.map (·.1)) =
        (scanLeast rank (if rank entry.2 < rank best.2 then entry else best) entries).1
      rw [hrank]
      by_cases hlt : rank entry.2 < rank best.2
      · simp only [hlt, decide_true, if_true]
        exact ih entry fun other hother => hmem other (.tail _ hother)
      · simp only [hlt, decide_false, Bool.false_eq_true, if_false]
        refine ih best fun other hother => ?_
        rcases List.mem_cons.mp hother with rfl | hother
        · exact hmem _ List.mem_cons_self
        · exact hmem _ (.tail _ (.tail _ hother))

/-- The scan ends at the entry it starts from or at one it has seen, and its rank
is at most that of each of them. -/
theorem scanLeast_spec (rank : β → γ) (entries : List ((_ : α) × β)) :
    ∀ best : (_ : α) × β,
      (scanLeast rank best entries = best ∨ scanLeast rank best entries ∈ entries) ∧
        rank (scanLeast rank best entries).2 ≤ rank best.2 ∧
        ∀ entry ∈ entries, rank (scanLeast rank best entries).2 ≤ rank entry.2 := by
  induction entries with
  | nil => intro best; simp [scanLeast]
  | cons entry entries ih =>
      intro best
      have hunfold : scanLeast rank best (entry :: entries) =
          scanLeast rank (if rank entry.2 < rank best.2 then entry else best) entries := rfl
      rw [hunfold]
      obtain ⟨hmem, hbest, hall⟩ :=
        ih (if rank entry.2 < rank best.2 then entry else best)
      by_cases hlt : rank entry.2 < rank best.2
      · rw [if_pos hlt] at hmem hbest hall ⊢
        refine ⟨.inr ?_, hbest.trans hlt.le, ?_⟩
        · rcases hmem with heq | hmem
          · rw [heq]
            exact List.mem_cons_self
          · exact List.mem_cons_of_mem _ hmem
        · intro other hother
          rcases List.mem_cons.mp hother with rfl | hother
          · exact hbest
          · exact hall other hother
      · rw [if_neg hlt] at hmem hbest hall ⊢
        refine ⟨?_, hbest, ?_⟩
        · rcases hmem with heq | hmem
          · exact .inl heq
          · exact .inr (List.mem_cons_of_mem _ hmem)
        · intro other hother
          rcases List.mem_cons.mp hother with rfl | hother
          · exact hbest.trans (not_lt.mp hlt)
          · exact hall other hother

/-- Only an empty map has no least entry. -/
theorem least?_eq_none_iff {m : KeyedMap α β} {rank : β → γ} :
    least? m rank = none ↔ size m = 0 := by
  unfold least? size
  cases m.entries <;> simp

/-- The entry the scan picks is in the map and no entry has a smaller rank. -/
theorem least?_spec [DecidableEq α] {m : KeyedMap α β} {rank : β → γ} {entry : (_ : α) × β}
    (h : least? m rank = some entry) :
    m.lookup entry.1 = some entry.2 ∧
      ∀ k b, m.lookup k = some b → rank entry.2 ≤ rank b := by
  unfold least? at h
  split at h
  · cases h
  · rename_i first rest heq
    have hspec := scanLeast_spec rank m.entries first
    rw [Option.some.inj h] at hspec
    obtain ⟨hmem, _, hall⟩ := hspec
    have hentry : entry ∈ m.entries := by
      rcases hmem with rfl | hmem
      · rw [heq]
        exact List.mem_cons_self
      · exact hmem
    exact ⟨mem_entries_iff.mp hentry,
      fun k b hlookup => hall ⟨k, b⟩ (mem_entries_iff.mpr hlookup)⟩

end KeyedMap

end RpcSpec.Foundation
