/-
Version checks, end to end.

A check reads the record of the last run, compares versions, empties the data directory on a
downgrade, and writes a record that the next check reads.

* `PrefsStore.checkVersion_recorded` — a check that succeeds answers how the versions compare, and
  its version is the recorded one from then on;
* **`PrefsStore.checkVersion_account`** — what is answered, what is in the files afterwards, and
  when a check fails;
* **`PrefsStore.checkVersion_again`** — the same version again changes nothing.

Design notes: the recorded version is that of `PrefsStore.recorded`, which no permission can hide,
so a check is only accounted for where the store's file can be read. Version zero stands for no run
at all: a check of version zero is answered with `firstRun`, however often it is made.
-/
import Mathlib
import LazyEngine.Proofs.Files.Clearing
import LazyEngine.Proofs.Prefs.Store

namespace LazyEngine.PrefsStore

variable {s : PrefsStore} {fs fs' : FileSystem} {current : UInt32} {dataDirectory now : String}

/-! ### Reading and writing -/

/-- A record that has been written can be read, if the file can. -/
theorem read_of_record {l : Location} {p : Prefs}
    (h : fs.find s.path = .ok (l, .file p.toJson.toUTF8)) (hread : fs.refuses .read l = false) :
    s.read fs = .ok p := by
  have hfile : fs.Holds s.path p.toJson := FileSystem.read_eq_ok_iff.mpr ⟨l, h, hread⟩
  rw [read, hfile.exists?, hfile.readText]
  simp only [Bool.not_true, Bool.false_eq_true, if_false, Prefs.ofJson_toJson]

/-- A record with a version has been read. -/
theorem read_of_lastVersion (h : (s.readOrDefault fs).lastVersion ≠ 0) :
    s.read fs = .ok (s.readOrDefault fs) := by
  rw [readOrDefault] at h ⊢
  cases hread : s.read fs with
  | ok p => rfl
  | error f =>
    rw [hread] at h
    exact absurd rfl h

/-- A write that succeeds leaves the record in the store's file, and all else as it was. -/
theorem write_ok {p : Prefs} (h : s.write fs p = .ok fs') :
    ∃ l, fs'.find s.path = .ok (l, .file p.toJson.toUTF8) ∧
      ∀ x, x ≠ l → fs'.root.look x = fs.root.look x := by
  rw [write] at h
  cases hwrite : fs.write s.path p.toJson.toUTF8 with
  | error e => rw [hwrite] at h; cases h
  | ok written =>
    rw [hwrite] at h
    obtain rfl : written = fs' := Except.ok.inj h
    obtain ⟨l, hfind, -, hsame⟩ := FileSystem.write_found hwrite
    exact ⟨l, hfind, hsame⟩

/-! ### One check -/

/-- The files that a record is written to: a downgrade empties the data directory first. -/
def ready (fs : FileSystem) (dataDirectory : String) (change : VersionChange) : FileSystem :=
  if change.isDowngrade then fs.empty dataDirectory else fs

/-- Nothing is done if nothing has changed. -/
theorem checkVersion_of_unchanged (hread : s.Readable fs)
    (h : VersionChange.between (s.recorded fs) current = .unchanged) :
    s.checkVersion fs current dataDirectory now = (.ok .unchanged, fs) := by
  simp [checkVersion, hread.lastVersion_eq, h, VersionChange.isDowngrade]

/-- Otherwise a record is written, and the check fails if that fails. -/
theorem checkVersion_of_changed (dataDirectory now : String) (hread : s.Readable fs)
    (h : VersionChange.between (s.recorded fs) current ≠ .unchanged) :
    let change := VersionChange.between (s.recorded fs) current
    let record : Prefs := { lastVersion := current, updatedAt := some now }
    (∃ fs', s.write (ready fs dataDirectory change) record = .ok fs' ∧
        s.checkVersion fs current dataDirectory now = (.ok change, fs')) ∨
      ∃ f, s.write (ready fs dataDirectory change) record = .error f ∧
        s.checkVersion fs current dataDirectory now
          = (.error f, ready fs dataDirectory change) := by
  intro change record
  simp only [checkVersion, hread.lastVersion_eq, h, if_false]
  cases hwrite : s.write (ready fs dataDirectory change) record with
  | ok fs' =>
    rw [ready] at hwrite
    exact .inl ⟨fs', rfl, by rw [hwrite]⟩
  | error f =>
    rw [ready] at hwrite
    exact .inr ⟨f, rfl, by rw [hwrite]; rfl⟩

/-- **A check that succeeds answers how the versions compare, and its version is the recorded one**
from then on. -/
theorem checkVersion_recorded {c : VersionChange} (hread : s.Readable fs)
    (h : s.checkVersion fs current dataDirectory now = (.ok c, fs')) :
    c = VersionChange.between (s.recorded fs) current ∧ s.recorded fs' = current := by
  by_cases hunchanged : VersionChange.between (s.recorded fs) current = .unchanged
  · rw [checkVersion_of_unchanged hread hunchanged] at h
    cases h
    exact ⟨hunchanged.symm, (VersionChange.between_eq_unchanged_iff.mp hunchanged).1⟩
  · rcases checkVersion_of_changed dataDirectory now hread hunchanged with
      ⟨_, hwrite, hcheck⟩ | ⟨_, _, hcheck⟩
    · rw [hcheck] at h
      cases h
      exact ⟨rfl, (write_recorded hwrite).1⟩
    · rw [hcheck] at h
      cases h

/-- The version of a check that has succeeded can be read, if the store's file can. -/
theorem read_after_checkVersion {c : VersionChange} (hread : s.Readable fs)
    (h : s.checkVersion fs current dataDirectory now = (.ok c, fs')) (hread' : s.Readable fs') :
    ∃ p, s.read fs' = .ok p ∧ p.lastVersion = current := by
  have hversion : (s.readOrDefault fs').lastVersion = current :=
    hread'.lastVersion_eq.trans (checkVersion_recorded hread h).2
  by_cases hunchanged : VersionChange.between (s.recorded fs) current = .unchanged
  · obtain ⟨hlast, hne⟩ := VersionChange.between_eq_unchanged_iff.mp hunchanged
    exact ⟨_, read_of_lastVersion (by rwa [hversion, ← hlast]), hversion⟩
  · rcases checkVersion_of_changed dataDirectory now hread hunchanged with
      ⟨_, hwrite, hcheck⟩ | ⟨_, _, hcheck⟩
    · rw [hcheck] at h
      cases h
      obtain ⟨l, hfind, -⟩ := write_ok hwrite
      exact ⟨_, read_of_record hfind (hread' l _ hfind), rfl⟩
    · rw [hcheck] at h
      cases h

/-- **What a check that succeeds leaves**: all files, if nothing has changed. Otherwise the store's
file holds the new record, and the rest is as it was, less what a downgrade clears. -/
theorem files_after_checkVersion {c : VersionChange} (hread : s.Readable fs)
    (hproper : fs.root.isProper = true)
    (h : s.checkVersion fs current dataDirectory now = (.ok c, fs')) :
    (c = .unchanged → fs' = fs) ∧
    (c ≠ .unchanged → ∃ l,
      fs'.find s.path = .ok (l, .file (Prefs.toJson ⟨current, some now⟩).toUTF8) ∧
      ∀ x, x ≠ l → fs'.root.look x =
        if ∃ y ∈ if c.isDowngrade then fs.cleared dataDirectory else [], y <+: x then none
        else fs.root.look x) := by
  by_cases hunchanged : VersionChange.between (s.recorded fs) current = .unchanged
  · rw [checkVersion_of_unchanged hread hunchanged] at h
    cases h
    exact ⟨fun _ => rfl, fun hne => absurd rfl hne⟩
  · -- A check that succeeds has compared with the recorded version.
    have hc := (checkVersion_recorded hread h).1
    refine ⟨fun heq => absurd (hc.symm.trans heq) hunchanged, fun _ => ?_⟩
    rcases checkVersion_of_changed dataDirectory now hread hunchanged with
      ⟨_, hwrite, hcheck⟩ | ⟨_, _, hcheck⟩
    · rw [hcheck] at h
      cases h
      obtain ⟨l, hfind, hsame⟩ := write_ok hwrite
      refine ⟨l, hfind, fun x hx => ?_⟩
      rw [hsame x hx, ready]
      by_cases hdown : (VersionChange.between (s.recorded fs) current).isDowngrade
      · simp only [hdown, if_true]
        exact FileSystem.look_empty hproper dataDirectory x
      · simp [hdown]
    · rw [hcheck] at h
      cases h

/-- **A check fails if the record cannot be written**, and for no other reason. -/
theorem checkVersion_fails_iff (hread : s.Readable fs) {f : Failure} :
    (s.checkVersion fs current dataDirectory now).1 = .error f ↔
      let change := VersionChange.between (s.recorded fs) current
      change ≠ .unchanged ∧
        s.write (ready fs dataDirectory change) ⟨current, some now⟩ = .error f := by
  by_cases hunchanged : VersionChange.between (s.recorded fs) current = .unchanged
  · simp [checkVersion_of_unchanged hread hunchanged, hunchanged]
  · rcases checkVersion_of_changed dataDirectory now hread hunchanged with
      ⟨_, hwrite, hcheck⟩ | ⟨_, hwrite, hcheck⟩ <;>
    simp [hcheck, hwrite, hunchanged]

/-! ### Checks one after another -/

/-- Version checks one after another, all of which succeed, with their versions and answers. -/
inductive Checks (s : PrefsStore) :
    FileSystem → List UInt32 → List VersionChange → FileSystem → Prop
  | nil {fs : FileSystem} : Checks s fs [] [] fs
  | cons {fs fs' fs'' : FileSystem} {current : UInt32} {dataDirectory now : String}
      {c : VersionChange} {versions : List UInt32} {changes : List VersionChange} :
      s.Readable fs → s.checkVersion fs current dataDirectory now = (.ok c, fs') →
      Checks s fs' versions changes fs'' →
      Checks s fs (current :: versions) (c :: changes) fs''

/-- Each of the checks compares its version with the one before it, the first one with the recorded
one. -/
theorem Checks.changes_eq {versions : List UInt32} {changes : List VersionChange}
    (h : Checks s fs versions changes fs') :
    changes = List.zipWith VersionChange.between (s.recorded fs :: versions) versions := by
  induction h with
  | nil => rfl
  | cons hread hcheck _ ih =>
    obtain ⟨hc, hrecorded⟩ := checkVersion_recorded hread hcheck
    rw [List.zipWith_cons_cons, ← hc, ih, hrecorded]

/-- **A version check, end to end.** It answers how its version compares with the recorded one, and
that version is read from then on. Files change if versions do: the store's file holds the new
record then, and the rest is as it was, less what a downgrade clears from the data directory, which
is all that is in it if no removal fails. Only a record that cannot be written makes the check
fail. -/
theorem checkVersion_account (s : PrefsStore) (fs : FileSystem) (current : UInt32)
    (dataDirectory now : String) (hread : s.Readable fs) (hproper : fs.root.isProper = true) :
    let change := VersionChange.between (s.recorded fs) current
    let record : Prefs := { lastVersion := current, updatedAt := some now }
    let r := s.checkVersion fs current dataDirectory now
    (∀ c, r.1 = .ok c → c = change ∧
      (s.Readable r.2 → ∃ p, s.read r.2 = .ok p ∧ p.lastVersion = current) ∧
      (c = .unchanged → r.2 = fs) ∧
      (c ≠ .unchanged → ∃ l, r.2.find s.path = .ok (l, .file record.toJson.toUTF8) ∧
        ∀ x, x ≠ l → r.2.root.look x =
          if ∃ y ∈ if c.isDowngrade then fs.cleared dataDirectory else [], y <+: x then none
          else fs.root.look x)) ∧
    (∀ y ∈ fs.cleared dataDirectory, ∃ l es name rest,
      fs.find dataDirectory = .ok (l, .directory es) ∧ y = l ++ name :: rest) ∧
    (∀ l es name rest, fs.find dataDirectory = .ok (l, .directory es) →
      fs.refuses .read l = false → fs.removesAll dataDirectory es →
      fs.root.look (l ++ name :: rest) ≠ none →
        ∃ y ∈ fs.cleared dataDirectory, y <+: l ++ name :: rest) ∧
    (∀ f, r.1 = .error f ↔
      change ≠ .unchanged ∧ s.write (ready fs dataDirectory change) record = .error f) ∧
    ∀ versions changes fs', s.Checks fs versions changes fs' →
      changes = List.zipWith VersionChange.between (s.recorded fs :: versions) versions := by
  intro change record r
  refine ⟨fun c hc => ?_, fun _ hy => FileSystem.below_of_mem_cleared hy,
    fun _ _ _ _ hfind hlisted hremoved hsome =>
      FileSystem.mem_cleared_of_removesAll hproper hfind hlisted hremoved hsome,
    fun _ => checkVersion_fails_iff hread, fun _ _ _ h => h.changes_eq⟩
  have hr : s.checkVersion fs current dataDirectory now = (.ok c, r.2) := Prod.ext hc rfl
  exact ⟨(checkVersion_recorded hread hr).1, read_after_checkVersion hread hr,
    files_after_checkVersion hread hproper hr⟩

/-- A store at the top of the tree. -/
def topStore : PrefsStore := ⟨"/prefs.json"⟩

/-- The files of the store when version 9 is recorded, with some entries in `/data`. -/
def topFiles (entries : List Entry) : FileSystem :=
  { root := .directory
      [.mk "prefs.json" (.file (Prefs.toJson { lastVersion := 9 }).toUTF8),
        .mk "data" (.directory entries)] }

theorem topStore_readable (entries : List Entry) : topStore.Readable (topFiles entries) :=
  fun _ _ _ => rfl

/-- A cookie file and a cache with a page in it. -/
def topEntries : List Entry :=
  [.mk "cookies" (.file .empty), .mk "cache" (.directory [.mk "page" (.file .empty)])]

/-- Version 5 after version 9: the record is the new one, and the page is gone. -/
theorem checkVersion_account_downgrade :
    let r := topStore.checkVersion (topFiles topEntries) 5 "/data" "now"
    r.1 = .ok (.downgraded 9) ∧ (∃ p, topStore.read r.2 = .ok p ∧ p.lastVersion = 5) ∧
      r.2.root.look ["data", "cache", "page"] = none ∧
      r.2.root.look ["data"] = some .directory := by
  intro r
  obtain ⟨hok, -, -, -, -⟩ := checkVersion_account topStore (topFiles topEntries) 5 "/data" "now"
    (topStore_readable topEntries) (by decide +kernel)
  have hr : r.1 = .ok (.downgraded 9) := by decide +kernel
  obtain ⟨-, hversion, -, hfiles⟩ := hok _ hr
  obtain ⟨l, hfind, hlook⟩ := hfiles (by decide)
  have hl : (r.2.find topStore.path).map (·.1) = .ok ["prefs.json"] := by decide +kernel
  have hfound : r.2.find topStore.path = .ok (l, _) := hfind
  rw [hfound] at hl
  cases hl
  refine ⟨hr, hversion fun _ _ _ => rfl, ?_, ?_⟩
  · rw [hlook _ (by decide)]
    decide +kernel
  · rw [hlook _ (by decide)]
    decide +kernel

/-- A data directory that is reached through a link within itself: when the link has been removed,
the path of the link's directory leads nowhere, so the directory stays. -/
theorem downgrade_leaves_entry :
    let fs := topFiles [.mk "inner" (.directory [.mk "back" (.link "..")])]
    let r := topStore.checkVersion fs 5 "/data/inner/back" "now"
    (fs.find "/data/inner/back").map (·.1) = .ok ["data"] ∧ r.1 = .ok (.downgraded 9) ∧
      fs.root.look ["data", "inner"] = some .directory ∧
      r.2.root.look ["data", "inner"] = some .directory := by
  decide +kernel

/-! ### The same version again -/

/-- **The same version again changes nothing**, whatever was recorded before and whatever the data
directory is. Version zero is the exception, for it is recorded as no run at all. -/
theorem checkVersion_again (s : PrefsStore) (fs : FileSystem) (current : UInt32)
    (dataDirectory now dataDirectory' now' : String) (hcurrent : current ≠ 0) (c : VersionChange)
    (hok : (s.checkVersion fs current dataDirectory now).1 = .ok c)
    (hread : s.Readable (s.checkVersion fs current dataDirectory now).2) :
    let after := (s.checkVersion fs current dataDirectory now).2
    s.checkVersion after current dataDirectory' now' = (.ok .unchanged, after) := by
  intro after
  suffices hrecorded : s.recorded after = current by
    refine checkVersion_of_unchanged hread ?_
    rw [hrecorded, VersionChange.between_self hcurrent]
  rcases s.checkVersion_cases fs current dataDirectory now with
    ⟨hlast, -, hcheck⟩ | ⟨ready, -, ⟨fs', hwrite, hcheck⟩ | ⟨f, -, hcheck⟩⟩
  · have hafter : after = fs := congrArg Prod.snd hcheck
    rw [← hread.lastVersion_eq]
    rwa [← hafter] at hlast
  · have hafter : after = fs' := congrArg Prod.snd hcheck
    rw [hafter]
    exact (write_recorded hwrite).1
  · rw [hcheck] at hok
    cases hok

/-- Version 5 after version 9, and again, for another data directory. -/
theorem checkVersion_again_after_downgrade :
    let after := (topStore.checkVersion (topFiles topEntries) 5 "/data" "now").2
    topStore.checkVersion after 5 "/" "later" = (.ok .unchanged, after) :=
  checkVersion_again topStore (topFiles topEntries) 5 "/data" "now" "/" "later" (by decide)
    (.downgraded 9) (by decide +kernel) fun _ _ _ => rfl

/-- Version zero again is a first run again, and is recorded with the later time. -/
theorem version_zero_again :
    let after := (topStore.checkVersion {} 0 "/data" "now").2
    (topStore.checkVersion {} 0 "/data" "now").1 = .ok .firstRun ∧
      (topStore.checkVersion after 0 "/data" "later").1 = .ok .firstRun ∧
      (topStore.readOrDefault after).updatedAt = some "now" ∧
      (topStore.readOrDefault (topStore.checkVersion after 0 "/data" "later").2).updatedAt
        = some "later" := by
  decide +kernel

end LazyEngine.PrefsStore
