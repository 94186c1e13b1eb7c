/-
Lifetimes of providers on one base directory.

Providers come and go, one after another. Each is created, or fails to be, with a version of its
own; one that has been created may start its engine, which then writes entries of the data
directory. In between, the user may reset everything. A history keeps account of which versions have
written the entries that there are.

* `History` — such a sequence of events, with the files and the authors of their entries;
* `Site.Safe` — what holds after each event: no author of an entry is newer than the recorded
  version, which is that of the provider if there is one;
* **`History.no_newer_author`** — when the initializer of a provider runs, no entry of the data
  directory has been written by a newer engine.

Design notes: `Site.Safe` holds because a version check that finds a newer version recorded empties
the data directory before it records the older one, and because a reset empties it after it has
removed the record. If an event is cut short, the recorded version is still the larger one, or there
are no entries.
-/
import LazyEngine.Boot
import LazyEngine.CommandLine.Reset
import LazyEngine.Proofs.Prefs.Store
import LazyEngine.Proofs.Startup.Rejection
import LazyEngine.Provider

namespace LazyEngine

/-! ### Preparing for a provider -/

namespace PrefsStore

/-- A store that has been opened is the one at the path. -/
theorem openAt_ok {fs fs' : FileSystem} {path : String} {s : PrefsStore}
    (h : openAt fs path = (.ok s, fs')) : s = ⟨path⟩ := by
  delta openAt at h
  split at h
  · cases h
    rfl
  · split at h <;> cases h
    rfl

end PrefsStore

/-- The files as the version check of a provider finds them, if it comes to that. -/
def Config.opened? (c : Config) (fs : FileSystem) : Option FileSystem :=
  match fs.makeDirectories c.baseDirectory with
  | (.error _, _) => none
  | (.ok (), made) =>
    match PrefsStore.openAt made c.prefsPath with
    | (.error _, _) => none
    | (.ok _, opened) => some opened

theorem Config.opened?_within {c : Config} {fs opened : FileSystem}
    (h : c.opened? fs = some opened) : fs.Within opened := by
  have hbase := fs.makeDirectories_within c.baseDirectory
  rw [opened?] at h
  rcases hmake : fs.makeDirectories c.baseDirectory with ⟨e | ⟨⟩, made⟩
  · rw [hmake] at h
    cases h
  · rw [hmake] at h hbase
    have hstore := PrefsStore.openAt_within made c.prefsPath
    simp only at h
    rcases hopen : PrefsStore.openAt made c.prefsPath with ⟨f | s, opened'⟩
    · rw [hopen] at h
      cases h
    · rw [hopen] at h hstore
      cases h
      exact hbase.trans hstore

/-- The preparations for a provider fail while directories are made, or come to what the version
check comes to. -/
theorem Provider.prepare_cases (c : Config) (fs : FileSystem) (now : String) :
    (∃ f fs', fs.Within fs' ∧ prepare c fs now = (.error f, fs')) ∨
    ∃ opened, c.opened? fs = some opened ∧
      prepare c fs now =
        match PrefsStore.checkVersion ⟨c.prefsPath⟩ opened c.version c.dataDirectory now with
        | (.error f, fs') => (.error (f.within .checkVersion), fs')
        | (.ok change, fs') => (.ok change, fs') := by
  have hbase := fs.makeDirectories_within c.baseDirectory
  rw [prepare, Config.opened?]
  rcases hmake : fs.makeDirectories c.baseDirectory with ⟨e | ⟨⟩, made⟩
  · rw [hmake] at hbase
    exact .inl ⟨_, made, hbase, rfl⟩
  · rw [hmake] at hbase
    have hstore := PrefsStore.openAt_within made c.prefsPath
    simp only
    rcases hopen : PrefsStore.openAt made c.prefsPath with ⟨f | s, opened⟩
    · rw [hopen] at hstore
      exact .inl ⟨f, opened, hbase.trans hstore, rfl⟩
    · obtain rfl := PrefsStore.openAt_ok hopen
      exact .inr ⟨opened, rfl, rfl⟩

/-- A reset fails when the record cannot be removed, or empties the data directory after it. -/
theorem CommandLine.Reset.perform_cases (c : Config) (fs : FileSystem) :
    (∃ f, perform c fs = .failed (PrefsStore.openAt fs c.prefsPath).2 [] f) ∨
    ∃ opened removed, PrefsStore.openAt fs c.prefsPath = (.ok ⟨c.prefsPath⟩, opened) ∧
      PrefsStore.remove ⟨c.prefsPath⟩ opened = .ok removed ∧
      ∃ told, perform c fs = .done (removed.empty c.dataDirectory) told := by
  delta perform
  rcases hopen : PrefsStore.openAt fs c.prefsPath with ⟨f | s, opened⟩
  · exact .inl ⟨f, rfl⟩
  · obtain rfl := PrefsStore.openAt_ok hopen
    simp only
    cases hremove : PrefsStore.remove ⟨c.prefsPath⟩ opened with
    | error f => exact .inl ⟨f, rfl⟩
    | ok removed => exact .inr ⟨opened, removed, rfl, hremove, _, rfl⟩

/-! ### A base directory through time -/

/-- A base directory, and where its data directory is. -/
structure Site where
  base : String
  data : Location

namespace Site

/-- The store of the base directory. -/
def store (site : Site) : PrefsStore :=
  ⟨Path.join site.base "prefs.json"⟩

/-- The path of the data directory. -/
def dataPath (site : Site) : String :=
  Path.join site.base "data"

theorem store_eq {site : Site} {c : Config} (hbase : c.baseDirectory = site.base) :
    (⟨c.prefsPath⟩ : PrefsStore) = site.store := by
  rw [store, ← hbase, Config.prefsPath]

theorem dataPath_eq {site : Site} {c : Config} (hbase : c.baseDirectory = site.base) :
    c.dataDirectory = site.dataPath := by
  rw [dataPath, ← hbase, Config.dataDirectory]

/-- There is an entry at a location in the data directory, other than the store's file, should that
be kept there. -/
structure Holds (site : Site) (fs : FileSystem) (l : Location) : Prop where
  below : ∃ rest, rest ≠ [] ∧ l = site.data ++ rest
  present : fs.root.look l ≠ none
  no_record : ∀ bytes, fs.find site.store.path ≠ .ok (l, .file bytes)

/-- If there is a data directory, its path leads to it, and listing and deleting in it succeed. -/
def Clear (site : Site) (fs : FileSystem) : Prop :=
  ∀ es, fs.root.at? site.data = some (.directory es) →
    fs.Clearable site.dataPath site.data es

/-- What a version check for a version takes for granted: the record can be read, and the data
directory can be emptied if it has to be. -/
structure Ready (site : Site) (version : UInt32) (fs : FileSystem) : Prop where
  readable : site.store.Readable fs
  clear : version < site.store.recorded fs → site.Clear fs

end Site

/-- Which versions have written the entries of the data directory. -/
abbrev Authors := Location → UInt32 → Prop

/-- The authors of the entries that there still are. -/
def Authors.of (authors : Authors) (site : Site) (fs : FileSystem) : Authors :=
  fun l v => authors l v ∧ site.Holds fs l

/-- What can have happened to a base directory: the configuration of the provider that there is, the
files, and who has written the entries of the data directory. -/
inductive History (site : Site) : Option Config → FileSystem → Authors → Prop where
  /-- In the beginning no engine has written anything. -/
  | start (fs : FileSystem) : History site none fs fun _ _ => False
  /-- A provider is created, after the time of the one before. -/
  | created {before : Option Config} {c : Config} {fs fs' : FileSystem} {authors : Authors}
      {now : String} {change : VersionChange} :
      History site before fs authors → c.baseDirectory = site.base →
      (∀ opened, c.opened? fs = some opened → site.Ready c.version opened) →
      Provider.prepare c fs now = (.ok change, fs') →
      History site (some c) fs' (authors.of site fs')
  /-- A provider cannot be created. What has been done to the files stays. -/
  | failed {before : Option Config} {c : Config} {fs fs' : FileSystem} {authors : Authors}
      {now : String} {f : Failure} :
      History site before fs authors → c.baseDirectory = site.base →
      (∀ opened, c.opened? fs = some opened → site.Ready c.version opened) →
      Provider.prepare c fs now = (.error f, fs') →
      History site none fs' (authors.of site fs')
  /-- The engine of the provider writes, and leaves the record alone. -/
  | wrote {c : Config} {fs fs' : FileSystem} {authors : Authors} (written : Location → Prop) :
      History site (some c) fs authors → site.store.recorded fs' = site.store.recorded fs →
      History site (some c) fs'
        (Authors.of (fun l v => authors l v ∨ written l ∧ v = c.version) site fs')
  /-- Something else happens: access is refused or granted, or a file changes that is not the
  record. -/
  | changed {alive : Option Config} {fs fs' : FileSystem} {authors : Authors} :
      History site alive fs authors → site.store.recorded fs' = site.store.recorded fs →
      History site alive fs' (authors.of site fs')
  /-- Everything is reset after the time of the provider, or as much as can be. -/
  | reset {before : Option Config} {c : Config} {fs : FileSystem} {authors : Authors} :
      History site before fs authors → c.baseDirectory = site.base →
      (∀ s opened removed, PrefsStore.openAt fs c.prefsPath = (.ok s, opened) →
        s.remove opened = .ok removed → site.Clear removed) →
      History site none (CommandLine.Reset.perform c fs).files
        (authors.of site (CommandLine.Reset.perform c fs).files)

namespace Site

variable {site : Site} {fs fs' : FileSystem} {authors : Authors}

/-- No author of an entry is newer than the recorded version. -/
def Bounded (site : Site) (fs : FileSystem) (authors : Authors) : Prop :=
  ∀ l v, authors l v → v ≤ site.store.recorded fs

/-- What holds at every point of a history. -/
structure Safe (site : Site) (alive : Option Config) (fs : FileSystem) (authors : Authors) :
    Prop where
  bounded : site.Bounded fs authors
  current : ∀ c, alive = some c → site.store.recorded fs = c.version

theorem Bounded.of_le (h : site.Bounded fs authors)
    (hle : site.store.recorded fs ≤ site.store.recorded fs') :
    site.Bounded fs' (authors.of site fs') :=
  fun l v hl => UInt32.le_trans (h l v hl.1) hle

/-- There is nothing in the data directory, but possibly the record. -/
def Vacant (site : Site) (fs : FileSystem) : Prop :=
  ∀ l, ¬site.Holds fs l

theorem Vacant.bounded (h : site.Vacant fs) : site.Bounded fs (authors.of site fs) :=
  fun l _ hl => absurd hl.2 (h l)

/-- There is nothing in the data directory at all. -/
def Empty (site : Site) (fs : FileSystem) : Prop :=
  ∀ rest, rest ≠ [] → fs.root.look (site.data ++ rest) = none

theorem Empty.vacant (h : site.Empty fs) : site.Vacant fs := by
  rintro l ⟨⟨rest, hrest, rfl⟩, hpresent, -⟩
  exact hpresent (h rest hrest)

/-- A data directory that can be emptied is empty then. -/
theorem Clear.empty (h : site.Clear fs) : site.Empty (fs.empty site.dataPath) := by
  intro rest hrest
  by_contra hpresent
  obtain ⟨name, rest, rfl⟩ := List.exists_cons_of_ne_nil hrest
  obtain ⟨f, hf⟩ := Option.ne_none_iff_exists'.mp hpresent
  -- What is in the directory in the end has been in it before, so it is a directory.
  have hbefore : fs.root.look (site.data ++ name :: rest) ≠ none := by
    rw [(fs.empty_within site.dataPath).root hf]
    simp
  obtain ⟨n, hat, hform⟩ := Option.map_eq_some_iff.mp (Node.look_above hbefore)
  cases n with
  | file | link => cases hform
  | directory es => exact hpresent (FileSystem.empty_clears (h es hat) hrest)

/-- The record is no entry: when it is written, an empty data directory gets none. -/
theorem Empty.write {p : Prefs} (h : site.Empty fs) (hwrite : site.store.write fs p = .ok fs') :
    site.Vacant fs' := by
  obtain ⟨-, l, bytes, hfind, hsame⟩ := PrefsStore.write_recorded hwrite
  rintro other ⟨⟨rest, hrest, rfl⟩, hpresent, hno⟩
  have hne : site.data ++ rest ≠ l := by
    rintro rfl
    exact hno bytes hfind
  exact hpresent ((hsame _ hne).trans (h rest hrest))

/-- A version check leaves no author newer than what it leaves recorded, and if it succeeds, that
is the version. -/
theorem checkVersion_safe {current : UInt32} (now : String) (hready : site.Ready current fs)
    (h : site.Bounded fs authors) :
    let checked := site.store.checkVersion fs current site.dataPath now
    site.Bounded checked.2 (authors.of site checked.2) ∧
      ∀ change, checked.1 = .ok change → site.store.recorded checked.2 = current := by
  have hlast := hready.readable.lastVersion_eq
  rcases site.store.checkVersion_cases fs current site.dataPath now with
    ⟨heq, -, hcheck⟩ | ⟨ready, hempty, hwrite⟩
  · rw [hcheck]
    rw [hlast] at heq
    exact ⟨h.of_le (UInt32.le_refl _), fun _ _ => heq⟩
  rw [hlast] at hempty
  -- Before the version is recorded, the recorded one is not newer, or the data directory is empty.
  have hbefore : site.store.recorded fs ≤ current ∧ ready = fs ∨ site.Empty ready := by
    rcases hempty with hkept | ⟨hlt, rfl⟩
    · exact .inl hkept
    · exact .inr (hready.clear hlt).empty
  rcases hwrite with ⟨fs', hwrite, hcheck⟩ | ⟨f, -, hcheck⟩
  · obtain ⟨hrecorded, -⟩ := PrefsStore.write_recorded hwrite
    rw [hcheck]
    refine ⟨?_, fun _ _ => hrecorded⟩
    rcases hbefore with ⟨hle, rfl⟩ | hnothing
    · exact h.of_le (hrecorded ▸ hle)
    · exact (hnothing.write hwrite).bounded
  · rw [hcheck]
    refine ⟨?_, nofun⟩
    rcases hbefore with ⟨-, rfl⟩ | hnothing
    · exact h.of_le (UInt32.le_refl _)
    · exact hnothing.vacant.bounded

/-- So do the preparations for a provider. -/
theorem prepare_safe {c : Config} (now : String) (hbase : c.baseDirectory = site.base)
    (hready : ∀ opened, c.opened? fs = some opened → site.Ready c.version opened)
    (h : site.Bounded fs authors) :
    let prepared := Provider.prepare c fs now
    site.Bounded prepared.2 (authors.of site prepared.2) ∧
      ∀ change, prepared.1 = .ok change → site.store.recorded prepared.2 = c.version := by
  rcases Provider.prepare_cases c fs now with
    ⟨f, fs', hwithin, hprepare⟩ | ⟨opened, hopened, hprepare⟩
  · rw [hprepare]
    exact ⟨h.of_le (PrefsStore.recorded_mono hwithin), nofun⟩
  · have hbounded : site.Bounded opened authors := fun l v hl =>
      UInt32.le_trans (h l v hl) (PrefsStore.recorded_mono (Config.opened?_within hopened))
    have hchecked := checkVersion_safe now (hready opened hopened) hbounded
    rw [store_eq hbase, dataPath_eq hbase] at hprepare
    rw [hprepare]
    rcases hcheck : site.store.checkVersion opened c.version site.dataPath now
      with ⟨f | change, fs'⟩
    · rw [hcheck] at hchecked
      exact ⟨hchecked.1, nofun⟩
    · rw [hcheck] at hchecked
      exact hchecked

/-- A reset leaves the recorded version, or nothing that has an author. -/
theorem reset_safe {c : Config} (hbase : c.baseDirectory = site.base)
    (hclear : ∀ s opened removed, PrefsStore.openAt fs c.prefsPath = (.ok s, opened) →
      s.remove opened = .ok removed → site.Clear removed)
    (h : site.Bounded fs authors) :
    site.Bounded (CommandLine.Reset.perform c fs).files
      (authors.of site (CommandLine.Reset.perform c fs).files) := by
  rcases CommandLine.Reset.perform_cases c fs with
    ⟨f, hfailed⟩ | ⟨opened, removed, hopen, hremove, told, hdone⟩
  · rw [hfailed]
    exact h.of_le (PrefsStore.recorded_mono (PrefsStore.openAt_within fs c.prefsPath))
  · rw [hdone, dataPath_eq hbase]
    exact (hclear _ opened removed hopen hremove).empty.vacant.bounded

end Site

/-- Any machine, as it opens for a provider of a configuration: its initializer is the one that the
provider starts the engine with, and its host has the files. -/
def Config.setup (c : Config) (initializer : Initializer Host Engine) (fs : FileSystem)
    (s : Setup Host Engine) : Setup Host Engine :=
  { s with initializer := c.starting initializer, host := { files := fs } }

namespace History

variable {site : Site} {alive : Option Config} {fs : FileSystem} {authors : Authors}

/-- **At every point of a history, no author of an entry is newer than the recorded version**, and
the recorded version is that of the provider that there is. -/
theorem safe (h : History site alive fs authors) : site.Safe alive fs authors := by
  induction h with
  | start fs => exact ⟨nofun, nofun⟩
  | @created before c fs fs' authors now change _ hbase hready hprepare ih =>
    have hsafe := Site.prepare_safe now hbase hready ih.bounded
    rw [hprepare] at hsafe
    exact ⟨hsafe.1, fun c hc => by cases hc; exact hsafe.2 _ rfl⟩
  | @failed before c fs fs' authors now f _ hbase hready hprepare ih =>
    have hsafe := Site.prepare_safe now hbase hready ih.bounded
    rw [hprepare] at hsafe
    exact ⟨hsafe.1, nofun⟩
  | @wrote c fs fs' authors written _ hrecorded ih =>
    have hversion := ih.current c rfl
    refine ⟨?_, fun c' hc' => ?_⟩
    · -- An entry keeps its author, or has just been written by the provider that there is.
      rintro l v ⟨hauthor | ⟨-, rfl⟩, -⟩
      · rw [hrecorded]
        exact ih.bounded l v hauthor
      · rw [hrecorded, hversion]
        exact UInt32.le_refl _
    · cases hc'
      rw [hrecorded, hversion]
  | changed _ hrecorded ih =>
    refine ⟨ih.bounded.of_le ?_, fun c hc => ?_⟩
    · rw [hrecorded]
      exact UInt32.le_refl _
    · rw [hrecorded]
      exact ih.current c hc
  | reset _ hbase hclear ih => exact ⟨Site.reset_safe hbase hclear ih.bounded, nofun⟩

/-- **No downgrade meets newer data.** Whatever has happened to a base directory, when a provider's
initializer runs, on any machine that opens with the files that its creation and what came after it
have left, the host still has these files, and no entry of the data directory has been written by an
engine of a newer version than the provider's. -/
theorem no_newer_author {c : Config} (h : History site (some c) fs authors)
    (initializer : Initializer Host Engine) (s : Setup Host Engine) {before : List ThreadId}
    {t : ThreadId} {outcome : InitOutcome Engine}
    (hinvokes : ((c.setup initializer fs s).machine.run before).Invokes t
      (c.starting initializer) outcome) :
    ((c.setup initializer fs s).machine.run before).host.files = fs ∧
      ∀ l v, site.Holds fs l → authors l v → ¬c.version < v := by
  have hsound := Machine.sound_run (c.setup initializer fs s) before
  obtain ⟨f, below, m', -, hdecides⟩ := hsound.decides_of_invokes hinvokes
  have hhost := Machine.host_eq_of_undecided (c.setup initializer fs s) before hdecides.undecided
  refine ⟨congrArg Host.files hhost, fun l v _ hauthor => ?_⟩
  have hle := h.safe.bounded l v hauthor
  rw [h.safe.current c rfl] at hle
  exact UInt32.not_lt.mpr hle

/-- A site at the top of the tree. -/
def top : Site := ⟨"/b", ["b", "data"]⟩

/-- Its configurations. -/
def topConfig (version : UInt32) : Config := { baseDirectory := "/b", version }

/-- The site before its first provider. -/
def topBefore : FileSystem := { root := .directory [.mk "b" (.directory [])] }

/-- The site with an entry in its data directory, and version 5 recorded. -/
def topUsed : FileSystem :=
  { root := .directory [.mk "b" (.directory
      [.mk "prefs.json" (.file (Prefs.toJson { lastVersion := 5 }).toUTF8),
        .mk "data" (.directory [.mk "cookies" (.file .empty)])])] }

/-- An engine of version 5 has written an entry. -/
theorem topUsed_history : ∃ authors, History top (some (topConfig 5)) topUsed authors ∧
    top.Holds topUsed ["b", "data", "cookies"] ∧ authors ["b", "data", "cookies"] 5 := by
  -- Nothing is recorded before the first run, so that there is no downgrade to clear for.
  have hready : ∀ opened, (topConfig 5).opened? topBefore = some opened →
      top.Ready (topConfig 5).version opened := by
    intro opened hopened
    refine ⟨fun l bytes _ => ?_, fun hlt => ?_⟩
    · rw [← (Config.opened?_within hopened).refuses]
      rfl
    · have hnone : ((topConfig 5).opened? topBefore).map (fun fs => top.store.recorded fs)
          = some 0 := by
        decide +kernel
      rw [hopened, Option.map_some, Option.some.injEq] at hnone
      rw [hnone] at hlt
      exact absurd hlt (by decide)
  have hcreated : (Provider.prepare (topConfig 5) topBefore "now").1 = .ok .firstRun := by
    decide +kernel
  have hrecorded : top.store.recorded topUsed
      = top.store.recorded (Provider.prepare (topConfig 5) topBefore "now").2 := by
    decide +kernel
  have hholds : top.Holds topUsed ["b", "data", "cookies"] := by
    refine ⟨⟨["cookies"], by simp, rfl⟩, by decide +kernel, fun bytes hfind => ?_⟩
    have hrecord : (topUsed.find top.store.path).map (·.1) = .ok ["b", "prefs.json"] := by
      decide +kernel
    rw [hfind] at hrecord
    simp [Except.map] at hrecord
  have hhistory := ((History.start topBefore).created rfl hready
    (Prod.ext hcreated rfl)).wrote (· = ["b", "data", "cookies"]) hrecorded
  exact ⟨_, hhistory, hholds, .inr ⟨rfl, rfl⟩, hholds⟩

/-- A machine whose owner starts the engine. -/
def topSetup : Setup Host Engine :=
  { initializer := fun host => (.failed [], host), host := { files := {} }, owner := ⟨0, none⟩
    scripts := [[.ensureStarted .owner]] }

/-- Whatever the files are, the initializer runs when the owner's call takes its second step. -/
theorem topSetup_invokes (c : Config) (initializer : Initializer Host Engine) (fs : FileSystem) :
    ∃ outcome, ((c.setup initializer fs topSetup).machine.run [0]).Invokes 0
      (c.starting initializer) outcome := by
  have hsound := Machine.sound_run (c.setup initializer fs topSetup) [0]
  have hundecided : ((c.setup initializer fs topSetup).machine.run [0]).coordinator.Undecided :=
    ⟨nofun, rfl⟩
  have hstack : ((c.setup initializer fs topSetup).machine.run [0]).stack 0
      = [.entering true .caller false, .script .caller []] := rfl
  obtain ⟨outcome, m', hstep, hd⟩ :=
    hsound.decides_of_launch hundecided hstack (.inline rfl)
  exact ⟨outcome, hd.invokes hstep⟩

/-- A provider of version 3 finds the entry of version 5 and starts without it. -/
theorem no_newer_author_after_downgrade :
    (∃ authors, History top (some (topConfig 5)) topUsed authors ∧
      top.Holds topUsed ["b", "data", "cookies"] ∧ authors ["b", "data", "cookies"] 5) ∧
    (Provider.prepare (topConfig 3) topUsed "later").1 = .ok (.downgraded 5) ∧
    ∃ fs authors, History top (some (topConfig 3)) fs authors ∧
      (∃ outcome, (((topConfig 3).setup (topConfig 3).boot fs topSetup).machine.run [0]).Invokes 0
        ((topConfig 3).starting (topConfig 3).boot) outcome) ∧
      (((topConfig 3).setup (topConfig 3).boot fs topSetup).machine.run [0]).host.files = fs ∧
      ∀ l v, top.Holds fs l → authors l v → ¬3 < v := by
  obtain ⟨authors, hhistory, hholds, hauthor⟩ := topUsed_history
  have hdowngraded : (Provider.prepare (topConfig 3) topUsed "later").1 = .ok (.downgraded 5) := by
    decide +kernel
  refine ⟨⟨authors, hhistory, hholds, hauthor⟩, hdowngraded, ?_⟩
  have hready : ∀ opened, (topConfig 3).opened? topUsed = some opened →
      top.Ready (topConfig 3).version opened := by
    intro opened hopened
    have hwithin := Config.opened?_within hopened
    -- The directories are there, so nothing has to be made.
    have hroot : ((topConfig 3).opened? topUsed).map FileSystem.root = some topUsed.root := by
      decide +kernel
    rw [hopened, Option.map_some, Option.some.injEq] at hroot
    obtain rfl : opened = topUsed := by
      obtain ⟨root, here, refuses⟩ := opened
      simp only at hroot
      rw [FileSystem.mk.injEq]
      exact ⟨hroot, hwithin.here.symm, hwithin.refuses.symm⟩
    refine ⟨fun _ _ _ => rfl, fun _ es hes => ?_⟩
    obtain rfl : es = [.mk "cookies" (.file .empty)] := by
      have hdata : topUsed.root.at? top.data
          = some (.directory [.mk "cookies" (.file .empty)]) := by
        decide +kernel
      rw [hdata] at hes
      cases hes
      rfl
    exact ⟨by decide +kernel, rfl, by decide +kernel, by decide +kernel⟩
  have hlater := hhistory.created rfl hready (Prod.ext hdowngraded rfl)
  obtain ⟨outcome, hinvokes⟩ := topSetup_invokes (topConfig 3) (topConfig 3).boot
    (Provider.prepare (topConfig 3) topUsed "later").2
  obtain ⟨hfiles, hnone⟩ := no_newer_author hlater (topConfig 3).boot topSetup hinvokes
  exact ⟨_, _, hlater, ⟨outcome, hinvokes⟩, hfiles, hnone⟩

end History

end LazyEngine
