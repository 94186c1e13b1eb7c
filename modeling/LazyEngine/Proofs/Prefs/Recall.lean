/-
What a store remembers.

* `PrefsStore.read_found` — what is read where a record has been written;
* `PrefsStore.remove_ok`, `PrefsStore.read_after_remove` — how a record is removed, and that nothing
  is read then;
* **`PrefsStore.record_recalled`** — both together, for every record and whatever was there before.

Design notes: a record survives if the system lets the file be read. A file can be written and yet
be closed to readers, and then the reader is told so; it is never told another record.
-/
import LazyEngine.Proofs.Files.Contents
import LazyEngine.Proofs.Prefs.Checks

namespace LazyEngine.PrefsStore

variable {s : PrefsStore} {fs fs' : FileSystem}

/-- Where a record is found, it is read, unless the system refuses that. -/
theorem read_found {l : Location} {p : Prefs}
    (h : fs.find s.path = .ok (l, .file p.toJson.toUTF8)) :
    s.read fs = if fs.refuses .read l then .error ⟨[.readPrefs s.path], .file .denied⟩
      else .ok p := by
  cases hrefused : fs.refuses .read l with
  | false =>
    rw [if_neg Bool.false_ne_true]
    exact read_of_record h hrefused
  | true =>
    have hexists : fs.exists? s.path = true := by
      rw [FileSystem.exists?, h]
      rfl
    have htext : fs.readText s.path = .error .denied := by
      simp only [FileSystem.readText, FileSystem.read, h, hrefused, if_true]
    rw [read, hexists, htext]
    rfl

/-- Removing the record removes its file, if there is one. -/
theorem remove_ok (h : s.remove fs = .ok fs') :
    (fs.exists? s.path = false ∧ fs' = fs) ∨
      (fs.exists? s.path = true ∧ fs.removeFile s.path = .ok fs') := by
  rw [remove] at h
  cases hexists : fs.exists? s.path with
  | false =>
    rw [hexists, if_neg Bool.false_ne_true] at h
    exact .inl ⟨rfl, (Except.ok.inj h).symm⟩
  | true =>
    rw [hexists, if_pos rfl] at h
    cases hremove : fs.removeFile s.path with
    | error e => rw [hremove] at h; cases h
    | ok removed =>
      rw [hremove] at h
      exact .inr ⟨rfl, congrArg Except.ok (Except.ok.inj h)⟩

/-- A record that has been removed is not there. -/
theorem exists?_after_remove (hroot : fs.root.isDirectory = true) (h : s.remove fs = .ok fs') :
    fs'.exists? s.path = false := by
  rcases remove_ok h with ⟨hnone, rfl⟩ | ⟨-, hremove⟩
  · exact hnone
  · exact FileSystem.exists?_after_removeFile hroot hremove

/-- What is not there is read as the default record. -/
theorem read_of_absent (h : fs.exists? s.path = false) : s.read fs = .ok {} := by
  rw [read, h]
  rfl

/-- **What has been removed is not read**: the record is the default one. -/
theorem read_after_remove (hroot : fs.root.isDirectory = true) (h : s.remove fs = .ok fs') :
    s.read fs' = .ok {} :=
  read_of_absent (exists?_after_remove hroot h)

/-- **A record survives being written and read.** Every record, with any version code and any text
for its time, is read as it was written, whatever the file held before and whether or not there was
one, unless the system refuses to let the file be read. Once the file has been removed the default
record is read. -/
theorem record_recalled (s : PrefsStore) (fs : FileSystem) (hroot : fs.root.isDirectory = true) :
    (∀ p fs', s.write fs p = .ok fs' →
      ∃ l, fs'.find s.path = .ok (l, .file p.toJson.toUTF8) ∧
        s.read fs' = if fs.refuses .read l then .error ⟨[.readPrefs s.path], .file .denied⟩
          else .ok p) ∧
    ∀ fs', s.remove fs = .ok fs' → s.read fs' = .ok { lastVersion := 0, updatedAt := none } := by
  refine ⟨fun p fs' h => ?_, fun fs' h => read_after_remove hroot h⟩
  rw [write] at h
  cases hwrite : fs.write s.path p.toJson.toUTF8 with
  | error e => rw [hwrite] at h; cases h
  | ok written =>
    rw [hwrite] at h
    obtain rfl : written = fs' := Except.ok.inj h
    obtain ⟨l, hfind, -, hrefuses, -⟩ := FileSystem.find_of_write hwrite
    exact ⟨l, hfind, by rw [read_found hfind, hrefuses]⟩

/-- A record whose time is quotes, a backslash, a control character and one outside the basic plane,
in place of a file that is no record. -/
theorem record_recalled_over_broken :
    let fs : FileSystem := { root := .directory [.mk "prefs.json" (.file "\x7bbroken".toUTF8)] }
    let p : Prefs := { lastVersion := 0xFFFFFFFF, updatedAt := some "\x22\\\x01\n😀" }
    ∃ fs' fs'', topStore.write fs p = .ok fs' ∧ topStore.read fs' = .ok p ∧
      topStore.remove fs' = .ok fs'' ∧ topStore.read fs'' = .ok {} := by
  intro fs p
  let fs' : FileSystem :=
    { fs with root := .directory [.mk "prefs.json" (.file p.toJson.toUTF8)] }
  let fs'' : FileSystem := { fs with root := .directory [] }
  have hwrite : topStore.write fs p = .ok fs' := rfl
  have hremove : topStore.remove fs' = .ok fs'' := rfl
  obtain ⟨l, -, hread⟩ := (record_recalled topStore fs rfl).1 p fs' hwrite
  exact ⟨fs', fs'', hwrite, hread, hremove, (record_recalled topStore fs' rfl).2 fs'' hremove⟩

end LazyEngine.PrefsStore
