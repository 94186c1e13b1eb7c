/-
Version codes from one run to the next.

The version code of the last run is kept between runs, zero if there was none. Comparing it with
the code of this run tells whether the stored data may have been written by a newer engine.
-/

namespace LazyEngine

/-- How the version code of this run compares with that of the last one. -/
inductive VersionChange where
  | firstRun
  | unchanged
  | upgraded (last : UInt32)
  | downgraded (last : UInt32)
deriving DecidableEq, Repr

namespace VersionChange

/-- Compare the last version code, zero for none, with the current one. -/
def between (last current : UInt32) : VersionChange :=
  if last = 0 then firstRun
  else if last = current then unchanged
  else if current < last then downgraded last
  else upgraded last

/-- Whether stored data has to go. -/
def isDowngrade : VersionChange → Bool
  | downgraded _ => true
  | _ => false

theorem between_self {v : UInt32} (h : v ≠ 0) : between v v = unchanged := by
  simp [between, h]

theorem between_eq_firstRun_iff {last current : UInt32} :
    between last current = firstRun ↔ last = 0 := by
  by_cases h0 : last = 0
  · simp [between, h0]
  · by_cases h1 : last = current
    · simp [between, h1]
    · by_cases h2 : current < last <;> simp [between, h0, h1, h2]

theorem between_eq_unchanged_iff {last current : UInt32} :
    between last current = unchanged ↔ last = current ∧ last ≠ 0 := by
  by_cases h0 : last = 0
  · simp [between, h0]
  · by_cases h1 : last = current
    · simp [between, h0, ← h1]
    · by_cases h2 : current < last <;> simp [between, h0, h1, h2]

theorem isDowngrade_between_iff {last current : UInt32} :
    (between last current).isDowngrade = true ↔ current < last := by
  by_cases h0 : last = 0
  · simp [between, h0, isDowngrade]
  · by_cases h1 : last = current
    · simp [between, h0, ← h1, isDowngrade]
    · by_cases h2 : current < last <;> simp [between, h0, h1, h2, isDowngrade]

end VersionChange

end LazyEngine
