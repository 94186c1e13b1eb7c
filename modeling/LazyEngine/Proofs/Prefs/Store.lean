/-
The version that the store has recorded.

What the store's file says depends on the bytes of the file alone, so the recorded version is spoken
of whether or not the file can be read at the moment:

* `PrefsStore.recorded` — the version code that the file holds, zero if it holds none;
* **`PrefsStore.recorded_mono`** — a file system with more in it has the same version recorded, or
  one where there was none;
* **`PrefsStore.write_recorded`** — writing a record makes its version the recorded one;
* `PrefsStore.checkVersion_cases` — all that a version check can come to.
-/
import LazyEngine.Prefs.Store
import LazyEngine.Proofs.Files.Contents
import LazyEngine.Proofs.Prefs.Format

namespace LazyEngine

/-- The record that some bytes are, the default one if they are none. -/
def Prefs.ofBytes (bytes : ByteArray) : Prefs :=
  match String.fromUTF8? bytes with
  | none => {}
  | some text =>
    match ofJson text with
    | .ok prefs => prefs
    | .error _ => {}

theorem Prefs.ofBytes_toJson (p : Prefs) : ofBytes p.toJson.toUTF8 = p := by
  rw [ofBytes, fromUTF8?_toUTF8]
  simp only [ofJson_toJson]

namespace FileSystem

/-- The file system in which nothing is refused. -/
def willing (fs : FileSystem) : FileSystem :=
  { fs with refuses := fun _ _ => false }

end FileSystem

namespace PrefsStore

variable {s : PrefsStore} {fs fs' : FileSystem}

/-- The version that the store's file holds, whether or not it can be read at the moment; zero if
there is none. -/
def recorded (s : PrefsStore) (fs : FileSystem) : UInt32 :=
  (s.readOrDefault fs.willing).lastVersion

/-- The store's file can be read, if there is one. -/
def Readable (s : PrefsStore) (fs : FileSystem) : Prop :=
  ∀ l bytes, fs.find s.path = .ok (l, .file bytes) → fs.refuses .read l = false

theorem readOrDefault_of_file {l : Location} {bytes : ByteArray}
    (h : fs.find s.path = .ok (l, .file bytes)) (hread : fs.refuses .read l = false) :
    s.readOrDefault fs = .ofBytes bytes := by
  have hexists : fs.exists? s.path = true := by
    rw [FileSystem.exists?, h]
    rfl
  have hbytes : fs.read s.path = .ok bytes := by
    simp [FileSystem.read, h, hread]
  have htext : fs.readText s.path = (String.fromUTF8? bytes).elim (.error .notText) .ok := by
    simp only [FileSystem.readText, hbytes]
    cases String.fromUTF8? bytes <;> rfl
  rw [readOrDefault, read, hexists, Prefs.ofBytes, htext]
  cases String.fromUTF8? bytes with
  | none => rfl
  | some text =>
    simp only [Bool.not_true, Bool.false_eq_true, if_false, Option.elim_some]
    cases Prefs.ofJson text <;> rfl

theorem readOrDefault_of_no_file (h : ∀ l bytes, fs.find s.path ≠ .ok (l, .file bytes)) :
    s.readOrDefault fs = {} := by
  rw [readOrDefault, read]
  cases hfind : fs.find s.path with
  | error e => simp [FileSystem.exists?, hfind, Except.isOk, Except.toBool]
  | ok found =>
    obtain ⟨l, n⟩ := found
    have htext : ∃ e, fs.readText s.path = .error e := by
      cases n with
      | file bytes => exact absurd hfind (h l bytes)
      | link | directory =>
        exact ⟨.isDirectory, by simp [FileSystem.readText, FileSystem.read, hfind]⟩
    obtain ⟨e, htext⟩ := htext
    simp [FileSystem.exists?, hfind, Except.isOk, Except.toBool, htext]

theorem recorded_of_file {l : Location} {bytes : ByteArray}
    (h : fs.find s.path = .ok (l, .file bytes)) :
    s.recorded fs = (Prefs.ofBytes bytes).lastVersion := by
  have hwilling : fs.willing.find s.path = .ok (l, .file bytes) := h
  rw [recorded, readOrDefault_of_file hwilling rfl]

theorem recorded_of_no_file (h : ∀ l bytes, fs.find s.path ≠ .ok (l, .file bytes)) :
    s.recorded fs = 0 := by
  have hwilling : ∀ l bytes, fs.willing.find s.path ≠ .ok (l, .file bytes) := h
  rw [recorded, readOrDefault_of_no_file hwilling]

/-- What is read from a file that can be read is what is recorded. -/
theorem Readable.lastVersion_eq (h : s.Readable fs) :
    (s.readOrDefault fs).lastVersion = s.recorded fs := by
  by_cases hfile : ∃ l bytes, fs.find s.path = .ok (l, .file bytes)
  · obtain ⟨l, bytes, hfind⟩ := hfile
    rw [readOrDefault_of_file hfind (h l bytes hfind), recorded_of_file hfind]
  · push Not at hfile
    rw [readOrDefault_of_no_file hfile, recorded_of_no_file hfile]

/-- **What is added to a file system does not lower the recorded version.** -/
theorem recorded_mono (h : fs.Within fs') : s.recorded fs ≤ s.recorded fs' := by
  by_cases hfile : ∃ l bytes, fs.find s.path = .ok (l, .file bytes)
  · obtain ⟨l, bytes, hfind⟩ := hfile
    obtain ⟨n, hfind', hform⟩ := FileSystem.find_mono h.root h.here.symm hfind
    rw [Node.form_eq_file_iff.mp hform] at hfind'
    rw [recorded_of_file hfind, recorded_of_file hfind']
    exact UInt32.le_refl _
  · push Not at hfile
    rw [recorded_of_no_file hfile]
    exact UInt32.zero_le

/-- **What is written is recorded**, in a file that is all that changes. -/
theorem write_recorded {p : Prefs} (h : s.write fs p = .ok fs') :
    s.recorded fs' = p.lastVersion ∧ ∃ l bytes, fs'.find s.path = .ok (l, .file bytes) ∧
      ∀ other, other ≠ l → fs'.root.look other = fs.root.look other := by
  rw [write] at h
  cases hwrite : fs.write s.path p.toJson.toUTF8 with
  | error e => rw [hwrite] at h; cases h
  | ok written =>
    rw [hwrite] at h
    obtain rfl : written = fs' := Except.ok.inj h
    obtain ⟨l, hfind, -, hsame⟩ := FileSystem.write_found hwrite
    exact ⟨by rw [recorded_of_file hfind, Prefs.ofBytes_toJson], l, _, hfind, hsame⟩

theorem openAt_within (fs : FileSystem) (path : String) : fs.Within (openAt fs path).2 := by
  delta openAt
  split
  · exact .refl fs
  · rename_i parent _
    have hwithin := fs.makeDirectories_within parent
    split <;>
    · rename_i h
      rwa [h] at hwithin

/-- What a version check comes to: the version is the last one and nothing is done, or the data
directory is emptied if the last version is larger, and the version is recorded unless that
fails. -/
theorem checkVersion_cases (s : PrefsStore) (fs : FileSystem) (current : UInt32)
    (dataDirectory now : String) :
    let last := (s.readOrDefault fs).lastVersion
    let record : Prefs := { lastVersion := current, updatedAt := some now }
    (last = current ∧ last ≠ 0 ∧
      s.checkVersion fs current dataDirectory now = (.ok .unchanged, fs)) ∨
    ∃ ready, (last ≤ current ∧ ready = fs ∨ current < last ∧ ready = fs.empty dataDirectory) ∧
      ((∃ fs', s.write ready record = .ok fs' ∧
          s.checkVersion fs current dataDirectory now
            = (.ok (VersionChange.between last current), fs')) ∨
        ∃ f, s.write ready record = .error f ∧
          s.checkVersion fs current dataDirectory now = (.error f, ready)) := by
  intro last record
  simp only [checkVersion, VersionChange.isDowngrade_between_iff]
  by_cases hunchanged : VersionChange.between last current = .unchanged
  · obtain ⟨hlast, hne⟩ := VersionChange.between_eq_unchanged_iff.mp hunchanged
    left
    -- Equal versions are no downgrade: nothing is emptied.
    have hnone : ¬current < last := by
      rw [hlast]
      exact UInt32.lt_irrefl _
    refine ⟨hlast, hne, ?_⟩
    rw [if_pos hunchanged, hunchanged, if_neg hnone]
  · right
    rw [if_neg hunchanged]
    refine ⟨if current < last then fs.empty dataDirectory else fs, ?_, ?_⟩
    · split
      · exact .inr ⟨‹_›, rfl⟩
      · exact .inl ⟨UInt32.not_lt.mp ‹_›, rfl⟩
    · cases hwrite : s.write (if current < last then fs.empty dataDirectory else fs) record with
      | ok fs' => exact .inl ⟨fs', rfl, rfl⟩
      | error f => exact .inr ⟨f, rfl, rfl⟩

end PrefsStore

end LazyEngine
