/-
Tables from keys to values.

A table holds at most one value for a key. `get?_insert` and `get?_erase` say what the two
operations that change a table do to a look-up; nothing else about a table can be seen, apart from
the order in which it is listed, which is that of the keys (`sorted`).
-/

namespace LazyEngine

/-- Entries with distinct keys. -/
structure Table (K V : Type) where
  entries : List (K × V) := []
  distinct : (entries.map (·.1)).Nodup := by simp

namespace Table

variable {K V : Type} [DecidableEq K]

def empty : Table K V := {}

instance : Inhabited (Table K V) := ⟨empty⟩

def get? (t : Table K V) (key : K) : Option V :=
  t.entries.lookup key

def keys (t : Table K V) : List K :=
  t.entries.map (·.1)

def isEmpty (t : Table K V) : Bool :=
  t.entries.isEmpty

/-- Forget a key. -/
def erase (t : Table K V) (key : K) : Table K V where
  entries := t.entries.filter fun e => e.1 ≠ key
  distinct := t.distinct.sublist (List.filter_sublist.map _)

/-- Give a key a value, in place of the one it may have. -/
def insert (t : Table K V) (key : K) (value : V) : Table K V where
  entries := (t.erase key).entries ++ [(key, value)]
  distinct := by
    have h := (t.erase key).distinct
    simp only [List.map_append, List.map_cons, List.map_nil, List.nodup_append]
    refine ⟨h, by simp, ?_⟩
    intro a ha b hb
    simp only [erase, List.mem_map, List.mem_filter, decide_eq_true_eq] at ha
    obtain ⟨e, ⟨_, hne⟩, rfl⟩ := ha
    simp only [List.mem_singleton] at hb
    exact hb ▸ hne

/-- The entries in the order of their keys. -/
def sorted [LE K] [DecidableLE K] (t : Table K V) : List (K × V) :=
  t.entries.mergeSort fun a b => decide (a.1 ≤ b.1)

theorem lookup_filter_ne (l : List (K × V)) (key other : K) :
    (l.filter fun e => e.1 ≠ key).lookup other
      = if other = key then none else l.lookup other := by
  induction l with
  | nil => simp
  | cons e rest ih =>
    obtain ⟨k, v⟩ := e
    by_cases hk : k = key
    · subst hk
      by_cases ho : other = k
      · simpa [ho] using ih
      · have : (other == k) = false := by simpa using ho
        simpa [ho, List.lookup_cons, this] using ih
    · by_cases ho : other = k
      · subst ho
        simp [hk]
      · have : (other == k) = false := by simpa using ho
        simpa [hk, List.lookup_cons, this] using ih

theorem get?_erase (t : Table K V) (key other : K) :
    (t.erase key).get? other = if other = key then none else t.get? other :=
  lookup_filter_ne t.entries key other

theorem lookup_append_singleton (l : List (K × V)) (key other : K) (value : V) :
    (l ++ [(key, value)]).lookup other
      = (l.lookup other).or (if other = key then some value else none) := by
  rw [List.lookup_append]
  by_cases h : other = key
  · simp [h]
  · have : (other == key) = false := by simpa using h
    simp [h, List.lookup_cons, this]

theorem get?_insert (t : Table K V) (key other : K) (value : V) :
    (t.insert key value).get? other = if other = key then some value else t.get? other := by
  have h := get?_erase t key other
  simp only [get?, insert] at h ⊢
  rw [lookup_append_singleton, h]
  by_cases hk : other = key <;> simp [hk]

end Table

end LazyEngine
