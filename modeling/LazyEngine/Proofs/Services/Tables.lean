/-
Tables as lists.

* `Table.mem_entries_iff` — the entries of a table are what can be looked up in it;
* `Table.mem_sorted_iff`, `Table.pairwise_sorted` — so are the entries in order, and then every key
  is smaller than the keys that follow it;
* `Table.sorted_eq_nil_iff`, `Table.isEmpty_iff` — there are none exactly when every look-up fails.
-/
import LazyEngine.Table

namespace LazyEngine.Table

variable {K V : Type}

section Order

variable [LE K] [DecidableLE K]

theorem nodup_sorted (t : Table K V) : (t.sorted.map (·.1)).Nodup :=
  ((List.mergeSort_perm t.entries _).map _).nodup_iff.mpr t.distinct

variable [LT K] [Std.IsLinearOrder K] [Std.LawfulOrderLT K]

/-- **The keys are listed in order**, and none of them twice. -/
theorem pairwise_sorted (t : Table K V) : t.sorted.Pairwise (·.1 < ·.1) := by
  have hle : t.sorted.Pairwise (·.1 ≤ ·.1) := by
    refine (List.pairwise_mergeSort (fun a b c hab hbc => ?_) (fun a b => ?_) t.entries).imp
      of_decide_eq_true
    · simpa using Std.le_trans (of_decide_eq_true hab) (of_decide_eq_true hbc)
    · simpa using Std.le_total (a := a.1) (b := b.1)
  refine hle.imp₂ (fun a b hab hne => ?_) (List.pairwise_map.mp (nodup_sorted t))
  exact Std.lt_of_le_of_ne hab hne

end Order

variable [DecidableEq K]

/-- In a list of entries with distinct keys the first entry with a key is the only one. -/
theorem mem_iff_lookup_eq {l : List (K × V)} (hl : (l.map (·.1)).Nodup) {key : K} {value : V} :
    (key, value) ∈ l ↔ l.lookup key = some value := by
  induction l with
  | nil => simp
  | cons e rest ih =>
    obtain ⟨k, v⟩ := e
    rw [List.map_cons, List.nodup_cons] at hl
    by_cases hk : key = k
    · subst hk
      have hrest : (key, value) ∉ rest := fun hmem => hl.1 (List.mem_map.mpr ⟨_, hmem, rfl⟩)
      simp [hrest, eq_comm]
    · have hne : (key == k) = false := by simpa using hk
      simp [hk, List.lookup_cons, hne, ih hl.2]

theorem mem_entries_iff {t : Table K V} {key : K} {value : V} :
    (key, value) ∈ t.entries ↔ t.get? key = some value :=
  mem_iff_lookup_eq t.distinct

theorem isEmpty_iff {t : Table K V} : t.isEmpty = true ↔ ∀ key, t.get? key = none := by
  rw [isEmpty, List.isEmpty_iff, List.eq_nil_iff_forall_not_mem, Prod.forall]
  simp only [mem_entries_iff, Option.eq_none_iff_forall_ne_some, ne_eq]

variable [LE K] [DecidableLE K]

theorem mem_sorted_iff {t : Table K V} {key : K} {value : V} :
    (key, value) ∈ t.sorted ↔ t.get? key = some value :=
  (List.mergeSort_perm t.entries _).mem_iff.trans mem_entries_iff

theorem sorted_eq_nil_iff {t : Table K V} : t.sorted = [] ↔ ∀ key, t.get? key = none := by
  rw [← isEmpty_iff, isEmpty, List.isEmpty_iff, sorted, ← List.length_eq_zero_iff,
    List.length_mergeSort, List.length_eq_zero_iff]

end LazyEngine.Table
