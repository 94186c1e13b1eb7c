/-
What a reset takes away.

The reset command asks, unless it has been told not to, and then takes away two things, one after
the other: the record of the last run, and what is in the data directory. It makes the base
directory first, and touches nothing else.

* `Reset.Assents` — the answers that agree;
* `FileSystem.Reduced` — one file system is another one without a record, or without some of what is
  in the data directory beside it;
* `Config.StandsApart` — the path of the base directory does not lead through any of that;
* `Config.Founds`, `Config.Cleared`, `Config.Forgets` — the base directory has been made; record and
  data have been taken away; nothing of a run is found;
* **`reset_confined`** — what a reset does to the files, and what is found after it.

Design notes: every operation follows its path anew. If the base directory is reached through its
own record, which may be a link, or through its own data directory, then a reset cuts its own way
off and succeeds all the same. And a record that is a link to nothing is not there for a reset: it
stays, and the next version check tries to write where it points. `reset_cut_off` has an example of
each.
-/
import Mathlib
import LazyEngine.CommandLine.Program
import LazyEngine.Proofs.CommandLine.Forecast
import LazyEngine.Proofs.Files.Contents
import LazyEngine.Proofs.Files.Housing
import LazyEngine.Proofs.Files.ProperTrees
import LazyEngine.Proofs.Prefs.Recall
import LazyEngine.Proofs.Text.Cutting

namespace LazyEngine

variable {config : Config} {fs fs' made removed : FileSystem} {base : Location}

/-! ### Answers -/

namespace Text

theorem toNat_toLower (c : Char) :
    c.toLower.toNat = if 65 ≤ c.toNat ∧ c.toNat ≤ 90 then c.toNat + 32 else c.toNat := by
  unfold Char.toLower
  by_cases h : 65 ≤ c.toNat ∧ c.toNat ≤ 90
  · have hcapital : c.val ≥ 'A'.val ∧ c.val ≤ 'Z'.val := h
    have hsum : (c.val + ('a'.val - 'A'.val)).toNat = c.toNat + 32 := by
      have hstep : ('a'.val - 'A'.val).toNat = 32 := by decide
      have hsmall : c.val.toNat ≤ 90 := h.2
      rw [UInt32.toNat_add, hstep, Nat.mod_eq_of_lt (by omega)]
      rfl
    rw [dif_pos hcapital, if_pos h]
    exact hsum
  · have hother : ¬(c.val ≥ 'A'.val ∧ c.val ≤ 'Z'.val) := h
    rw [dif_neg hother, if_neg h]

/-- A letter becomes a small one if it is that one, or its capital. -/
theorem toLower_eq_iff {c small capital : Char}
    (hcapital : 65 ≤ capital.toNat ∧ capital.toNat ≤ 90)
    (hsmall : small.toNat = capital.toNat + 32) : c.toLower = small ↔ c = small ∨ c = capital := by
  simp only [← Char.toNat_inj, toNat_toLower]
  split <;> omega

end Text

namespace CommandLine

/-- The first line of what is typed. -/
def firstLine (typed : String) : String :=
  String.ofList (typed.toList.takeWhile (· != '\n'))

namespace Reset

/-- The word `y` or `yes`, in small letters or capitals. -/
def IsYes (word : List Char) : Prop :=
  (∃ y ∈ ['y', 'Y'], word = [y]) ∨
    ∃ y ∈ ['y', 'Y'], ∃ e ∈ ['e', 'E'], ∃ s ∈ ['s', 'S'], word = [y, e, s]

/-- The user agrees: the first line that is typed is that word, with blanks around it. -/
def Assents (typed : String) : Prop :=
  ∃ before word after rest, typed.toList = before ++ word ++ after ++ rest ∧
    '\n' ∉ before ++ word ++ after ∧ (∀ c ∈ rest.head?, c = '\n') ∧
    Text.AreBlank before ∧ Text.AreBlank after ∧ IsYes word

theorem isYes_iff {word : List Char} :
    IsYes word ↔ word.map Char.toLower = ['y'] ∨ word.map Char.toLower = ['y', 'e', 's'] := by
  have hy : ∀ c : Char, c.toLower = 'y' ↔ c = 'y' ∨ c = 'Y' := fun _ =>
    Text.toLower_eq_iff (by decide) (by decide)
  have he : ∀ c : Char, c.toLower = 'e' ↔ c = 'e' ∨ c = 'E' := fun _ =>
    Text.toLower_eq_iff (by decide) (by decide)
  have hs : ∀ c : Char, c.toLower = 's' ↔ c = 's' ∨ c = 'S' := fun _ =>
    Text.toLower_eq_iff (by decide) (by decide)
  simp only [IsYes, List.map_eq_cons_iff, List.map_eq_nil_iff, hy, he, hs, List.mem_cons,
    List.not_mem_nil, or_false]
  aesop

/-- The word neither begins nor ends with a blank. -/
theorem IsYes.no_blank {word : List Char} (h : IsYes word) :
    (∀ c ∈ word.head?, Text.isBlank c = false) ∧ ∀ c ∈ word.getLast?, Text.isBlank c = false := by
  have hy : ∀ y ∈ ['y', 'Y'], Text.isBlank y = false := by
    simp [Text.isBlank, Text.blankRuns]
  have hs : ∀ s ∈ ['s', 'S'], Text.isBlank s = false := by
    simp [Text.isBlank, Text.blankRuns]
  rcases h with ⟨y, hmem, rfl⟩ | ⟨y, hmem, e, -, s, hmem', rfl⟩
  · simp [hy y hmem]
  · simp [hy y hmem, hs s hmem']

theorem agrees_eq_true_iff {answer : String} :
    agrees answer = true ↔ ∃ word, Text.Trims answer.toList word ∧ IsYes word := by
  simp [agrees, ← Text.trim_eq_iff, isYes_iff]

/-- **Who types such a line agrees, and nobody else does.** -/
theorem agrees_firstLine_iff {typed : String} :
    agrees (firstLine typed) = true ↔ Assents typed := by
  rw [agrees_eq_true_iff, firstLine, String.toList_ofList]
  constructor
  · rintro ⟨word, ⟨before, after, hfront, hbefore, hafter, -, -⟩, hyes⟩
    obtain ⟨hline, rest, htyped, hrest⟩ := Text.takeWhile_ne_eq_iff.mp hfront
    exact ⟨before, word, after, rest, htyped, hline, hrest, hbefore, hafter, hyes⟩
  · rintro ⟨before, word, after, rest, htyped, hline, hrest, hbefore, hafter, hyes⟩
    refine ⟨word, ⟨before, after, ?_, hbefore, hafter, hyes.no_blank⟩, hyes⟩
    exact Text.takeWhile_ne_eq_iff.mpr ⟨hline, rest, htyped, hrest⟩

end Reset

end CommandLine

/-! ### What may be taken away -/

namespace FileSystem

/-- One file system is another one without the record in a base directory, or without some of what
is in the data directory beside it. -/
structure Reduced (small large : FileSystem) (base : Location) : Prop where
  within : small.Within large
  elsewhere : ∀ x, x ≠ base ++ ["prefs.json"] →
    ¬(base ++ ["data"] <+: x ∧ x ≠ base ++ ["data"]) → small.root.look x = large.root.look x

theorem Reduced.refl (fs : FileSystem) (base : Location) : fs.Reduced fs base :=
  ⟨.refl fs, fun _ _ _ => rfl⟩

theorem Reduced.trans {a b c : FileSystem} (h : a.Reduced b base) (h' : b.Reduced c base) :
    a.Reduced c base :=
  ⟨h.within.trans h'.within,
    fun x hrecord hdata => (h.elsewhere x hrecord hdata).trans (h'.elsewhere x hrecord hdata)⟩

theorem Depleted.reduced (h : fs'.Depleted fs (base ++ ["data"])) : fs'.Reduced fs base :=
  ⟨h.within, fun x _ hdata => h.outside x hdata⟩

/-- All that may be taken away is in the base directory. -/
theorem Reduced.depleted (h : fs'.Reduced fs base) : fs'.Depleted fs base := by
  refine ⟨h.within, fun x hx => h.elsewhere x ?_ ?_⟩
  · rintro rfl
    exact hx ⟨List.prefix_append _ _, by simp⟩
  · rintro ⟨hdata, -⟩
    refine hx ⟨(List.prefix_append _ _).trans hdata, ?_⟩
    rintro rfl
    simpa using hdata.length_le

/-- The data directory itself stays. -/
theorem Reduced.look_data (h : fs'.Reduced fs base) :
    fs'.root.look (base ++ ["data"]) = fs.root.look (base ++ ["data"]) :=
  h.elsewhere _ (by simp) fun hdata => hdata.2 rfl

theorem exists?_eq_true_iff {path : String} :
    fs.exists? path = true ↔ ∃ found, fs.find path = .ok found := by
  rw [exists?]
  cases fs.find path <;> simp [Except.isOk, Except.toBool]

/-- Where the root is a directory, it stays one when others are added. -/
theorem Furnished.isDirectory (h : fs.Furnished fs') (hroot : fs.root.isDirectory = true) :
    fs'.root.isDirectory = true := by
  have hlook : fs.root.look [] = some .directory :=
    congrArg some (Node.form_eq_directory_iff.mpr hroot)
  exact Node.form_eq_directory_iff.mp (Option.some.inj (h.within.root hlook))

/-- What is found in a directory is found where its path leads. -/
theorem housed_of_find {path name : String} {found : Location × Node} (hname : Path.IsName name)
    (h : fs.find (Path.join path name) = .ok found) : ∃ l, fs.Houses path l := by
  obtain ⟨-, slash, hleads, -⟩ := find_eq_ok_iff.mp h
  obtain ⟨l, -, hhouses, -⟩ := hleads.housed hname
  exact ⟨l, hhouses⟩

end FileSystem

namespace PrefsStore

variable {s : PrefsStore}

theorem remove_proper (hproper : fs.root.isProper = true) (h : s.remove fs = .ok fs') :
    fs'.root.isProper = true := by
  rcases remove_ok h with ⟨-, rfl⟩ | ⟨-, hremove⟩
  · exact hproper
  · obtain ⟨l, node, -, -, -, rfl⟩ := FileSystem.removeFile_ok hremove
    exact Node.isProper_remove hproper l

/-- **Where there is no record, a version check is answered with a first run**, unless a record
cannot be written. -/
theorem checkVersion_of_absent (s : PrefsStore) (h : fs.exists? s.path = false) (current : UInt32)
    (dataDirectory now : String) :
    (∃ fs', s.write fs ⟨current, some now⟩ = .ok fs' ∧
      s.checkVersion fs current dataDirectory now = (.ok .firstRun, fs')) ∨
    ∃ f, s.write fs ⟨current, some now⟩ = .error f ∧
      s.checkVersion fs current dataDirectory now = (.error f, fs) := by
  have hlast : (s.readOrDefault fs).lastVersion = 0 := by
    rw [readOrDefault, read_of_absent h]
  have hfirst : VersionChange.between 0 current = .firstRun :=
    VersionChange.between_eq_firstRun_iff.mpr rfl
  simp only [checkVersion, hlast, hfirst, VersionChange.isDowngrade, Bool.false_eq_true, if_false,
    reduceCtorEq]
  cases hwrite : s.write fs ⟨current, some now⟩ with
  | ok fs' => exact .inl ⟨fs', rfl, rfl⟩
  | error f => exact .inr ⟨f, rfl, rfl⟩

end PrefsStore

namespace Config

theorem isName_record : Path.IsName "prefs.json" := by decide

theorem isName_data : Path.IsName "data" := by decide

/-- Removing the record takes away its entry in the base directory, if it is there. -/
theorem remove_reduced (hbase : fs.Houses config.baseDirectory base)
    (h : PrefsStore.remove ⟨config.prefsPath⟩ fs = .ok fs') :
    fs'.Reduced fs base ∧ (fs.exists? config.prefsPath = true →
      fs'.root.look (base ++ ["prefs.json"]) = none) := by
  rcases PrefsStore.remove_ok h with ⟨hnone, rfl⟩ | ⟨-, hremove⟩
  · refine ⟨.refl _ base, fun hexists => ?_⟩
    rw [hnone] at hexists
    cases hexists
  · obtain ⟨l, node, hleads, hat, hleaf, hfs'⟩ := FileSystem.removeFile_ok hremove
    obtain ⟨base', k, hbase', hlast⟩ := hleads.housed isName_record
    obtain rfl := hbase.unique hbase'
    -- A link at the end of the path is removed itself.
    obtain rfl := hlast.name_eq isName_record (.inl rfl)
    have hne : base ++ ["prefs.json"] ≠ [] := by simp
    refine ⟨⟨FileSystem.removeFile_within hremove, fun x hx _ => ?_⟩, fun _ => ?_⟩
    · rw [hfs', FileSystem.look_lacking_leaf hne hat hleaf hx]
    · rw [hfs', FileSystem.look_lacking hne (List.prefix_refl _)]

/-- Where the path of the base directory leads nowhere, there is nothing to take away. -/
theorem remove_eq_self (hnone : ∀ base, ¬fs.Houses config.baseDirectory base)
    (h : PrefsStore.remove ⟨config.prefsPath⟩ fs = .ok fs') : fs' = fs := by
  rcases PrefsStore.remove_ok h with ⟨-, rfl⟩ | ⟨hexists, -⟩
  · rfl
  · obtain ⟨found, hfind⟩ := FileSystem.exists?_eq_true_iff.mp hexists
    obtain ⟨base, hbase⟩ := FileSystem.housed_of_find isName_record hfind
    exact absurd hbase (hnone base)

theorem empty_eq_self (hnone : ∀ base, ¬fs.Houses config.baseDirectory base) :
    fs.empty config.dataDirectory = fs := by
  refine FileSystem.empty_eq_self fun l es hfind => ?_
  obtain ⟨base, hbase⟩ := FileSystem.housed_of_find isName_data hfind
  exact hnone base hbase

/-- What is taken away next is in the data directory, if that is no link. -/
theorem empty_reduced (hproper : fs'.root.isProper = true)
    (hbase : fs.Houses config.baseDirectory base)
    (hdata : ∀ target, fs.root.look (base ++ ["data"]) ≠ some (.link target))
    (h : fs'.Reduced fs base) : (fs'.empty config.dataDirectory).Reduced fs base := by
  by_cases hfind : ∃ l es, fs'.find config.dataDirectory = .ok (l, .directory es)
  · obtain ⟨l, es, hfind⟩ := hfind
    obtain ⟨base', hbase'⟩ := FileSystem.housed_of_find isName_data hfind
    -- Where the path still leads to a directory, it leads to the same one as before.
    obtain rfl := hbase.unique (hbase'.of_within h.within)
    obtain rfl := hbase'.eq_of_find isName_data (by rwa [h.look_data]) hfind
    exact (FileSystem.empty_depleted hproper hfind).reduced.trans h
  · push Not at hfind
    rw [FileSystem.empty_eq_self hfind]
    exact h

/-- The path of the base directory leads to it whatever a reset takes away. -/
def StandsApart (config : Config) (fs : FileSystem) (base : Location) : Prop :=
  ∀ fs' : FileSystem, fs'.Reduced fs base → fs'.Houses config.baseDirectory base

/-- So it is if it comes from outside, as the path of its location does. -/
theorem standsApart_of_fromOutside (h : fs.FromOutside config.baseDirectory base) :
    config.StandsApart fs base := by
  intro fs' hreduced
  obtain ⟨es, hfind⟩ := h fs' hreduced.depleted
  exact FileSystem.houses_of_find hfind

/-- The system keeps nothing in the data directory: it refuses to remove none of it and to list no
directory that has something in it, and no path is too long. -/
def Removable (config : Config) (fs : FileSystem) (base : Location) : Prop :=
  ∀ rest, rest ≠ [] → fs.root.look (base ++ ["data"] ++ rest) ≠ none →
    ¬fs.Keeps config.dataDirectory (base ++ ["data"]) rest

/-- Then the data directory becomes empty, for its path stands apart as well. -/
theorem empty_data (hproper : fs'.root.isProper = true) (hstands : config.StandsApart fs base)
    (h : fs'.Reduced fs base) (hnone : config.Removable fs base) {rest : Location}
    (hrest : rest ≠ []) :
    (fs'.empty config.dataDirectory).root.look (base ++ ["data"] ++ rest) = none := by
  have hwithin := (fs'.empty_within config.dataDirectory).trans h.within
  by_cases hsome : fs.root.look (base ++ ["data"] ++ rest) = none
  · exact hwithin.root.look_eq_none hsome
  -- What can be removed has a path that is followed, and so has the directory that it is in.
  have hreaches : Path.Reaches config.dataDirectory rest := by
    by_contra hnot
    exact hnone rest hrest hsome (.inr (.inr hnot))
  have hallowed : Path.Allowed config.dataDirectory :=
    hreaches.allowed.of_foldl (isName_data.join_ne_empty _)
  have hdirectory : fs.root.look (base ++ ["data"]) = some .directory := by
    obtain ⟨name, more, rfl⟩ := List.exists_cons_of_ne_nil hrest
    exact Node.look_above hsome
  have houtside : fs'.FromOutside config.dataDirectory (base ++ ["data"]) := by
    intro fs'' hdepleted
    have hreduced := hdepleted.reduced.trans h
    have hlook := hreduced.look_data.trans hdirectory
    obtain ⟨node, hat, hform⟩ := Option.map_eq_some_iff.mp hlook
    cases node with
    | file | link => cases hform
    | directory es =>
      exact ⟨es, (hstands fs'' hreduced).find_join isName_data hat ⟨hallowed, by decide⟩⟩
  have hempty := FileSystem.empty_of_nothing_kept hproper houtside fun more hmore hthere hkeeps =>
    hnone more hmore (fun hnot => hthere (h.within.root.look_eq_none hnot))
      ((FileSystem.keeps_of_within h.within).mp hkeeps)
  obtain ⟨name, more, rfl⟩ := List.exists_cons_of_ne_nil hrest
  rw [Node.look_append, hempty]
  rfl

end Config

namespace CommandLine

/-! ### The command -/

/-- The reset command, with everything typed in advance. -/
def reset (config : Config) (yes : Bool) (typed : String) (fs : FileSystem) : Report :=
  if yes then Reset.perform config fs
  else
    let r := Reset.afterAnswer config fs (firstLine typed)
    { r with output := .prompt (Reset.question config) :: r.output }

/-- The program comes to it if its arguments say so. -/
theorem Program.run_reset {args : List String} {env : Environment} {a : Arguments} {yes : Bool}
    (typed now : String) (hparse : Arguments.parse args env.engineHome = .ok a)
    (hconfig : configure fs env a = .ok config) (hcommand : a.command = some (.reset yes)) :
    run args env typed fs now = reset config yes typed fs := by
  cases yes <;> simp [run, start, hparse, hconfig, hcommand, reset, firstLine]

namespace Reset

/-- The user has agreed, or need not be asked. -/
def Agreed (yes : Bool) (typed : String) : Prop :=
  yes = true ∨ Assents typed

/-- A reset is done as has been agreed, or not at all. -/
theorem reset_cases (config : Config) (yes : Bool) (typed : String) (fs : FileSystem) :
    let r := reset config yes typed fs
    (Agreed yes typed ∧ r.ending = (perform config fs).ending ∧
      r.files = (perform config fs).files) ∨
    (¬Agreed yes typed ∧ r.ending = .code 0 ∧ r.files = fs) := by
  cases yes with
  | true => exact .inl ⟨.inl rfl, rfl, rfl⟩
  | false =>
    have hagreed : Agreed false typed ↔ agrees (firstLine typed) = true := by
      simp [Agreed, agrees_firstLine_iff]
    simp only [reset, afterAnswer, Bool.false_eq_true, if_false, hagreed]
    by_cases h : agrees (firstLine typed) = true
    · simp only [h, if_true]
      exact .inl ⟨trivial, trivial, trivial⟩
    · simp only [h, Bool.false_eq_true, if_false]
      exact .inr ⟨not_false, rfl, rfl⟩

end Reset

/-! ### What is found -/

/-- Where no record is found, the status command says that there has been no run. -/
theorem status_of_absent
    (hmake : made.makeDirectories (Path.tidy config.baseDirectory) = (.ok (), fs'))
    (hbase : fs.Houses config.baseDirectory base) (hnone : fs.exists? config.prefsPath = false) :
    (status config fs).ending = .code 0 ∧ (status config fs).files = fs ∧
      Status.neverRan ∈ (status config fs).output := by
  have hmakes := FileSystem.makeDirectories_eq_self hbase.stands
  have htidy : fs.Stands (Path.tidy config.baseDirectory) :=
    (FileSystem.stands_tidy_iff hmakes hmake fs).mp hbase.stands
  have hopen : PrefsStore.openAt fs config.prefsPath = (.ok ⟨config.prefsPath⟩, fs) :=
    Config.openAt_ok_iff.mpr (FileSystem.makeDirectories_eq_self htidy)
  have hread : PrefsStore.read ⟨config.prefsPath⟩ fs = .ok {} := PrefsStore.read_of_absent hnone
  delta status
  simp only [hopen, hread]
  exact ⟨rfl, rfl, Status.neverRan_mem_iff.mpr rfl⟩

end CommandLine

namespace Config

/-- A record can be written where there is none, unless that is refused. -/
theorem write_record (hbase : fs.Houses config.baseDirectory base)
    (hallowed : Path.Allowed config.prefsPath)
    (hfree : fs.root.look (base ++ ["prefs.json"]) = none)
    (hgranted : fs.refuses .create (base ++ ["prefs.json"]) = false) (prefs : Prefs) :
    ∃ fs', PrefsStore.write ⟨config.prefsPath⟩ fs prefs = .ok fs' := by
  have hname := isName_record
  have henters : Walk.Enters .entry "prefs.json" [] :=
    ⟨fun h _ => hname.nonempty h, hname.no_dot, hname.no_dots, by simp, by decide⟩
  have hleads : fs.Leads .entry config.prefsPath (.free base "prefs.json" false) :=
    hbase.leads (by simp) hname ⟨hallowed, by decide⟩ fun _ =>
      .free hbase.look henters hfree rfl
  obtain ⟨fs', hwrite⟩ := FileSystem.write_free hleads hgranted prefs.toJson.toUTF8
  exact ⟨fs', by rw [PrefsStore.write, hwrite]; rfl⟩

/-- Opening the store makes the tidy base directory, as far as it can be made. -/
theorem files_openAt (config : Config) (fs : FileSystem) :
    (PrefsStore.openAt fs config.prefsPath).2
      = (fs.makeDirectories (Path.tidy config.baseDirectory)).2 := by
  delta PrefsStore.openAt
  simp only [config.parent?_prefsPath]
  split <;> rename_i hmake <;> rw [hmake]

/-- The base directory is made, with directories above it, unless its path leads to it already. -/
structure Founds (config : Config) (fs made : FileSystem) : Prop where
  furnished : fs.Furnished made
  there : ∀ base, fs.Houses config.baseDirectory base → made = fs
  above : ∀ x, fs.root.look x = none → made.root.look x ≠ none →
    ∃ above ∈ Path.ancestors (Path.tidy config.baseDirectory), ∃ es,
      made.find above = .ok (x, .directory es)

theorem founds (config : Config) (fs : FileSystem) :
    config.Founds fs (fs.makeDirectories (Path.tidy config.baseDirectory)).2 where
  furnished := fs.makeDirectories_furnished _
  there _ hbase := FileSystem.makeDirectories_tidy_of_stands hbase.stands
  above _ := FileSystem.makeDirectories_added

/-- The base directory is found as if there had been no run before. -/
structure Forgets (config : Config) (made after : FileSystem) (base : Location) : Prop where
  data : config.Removable made base →
    ∀ rest, rest ≠ [] → after.root.look (base ++ ["data"] ++ rest) = none
  status : (CommandLine.status config after).ending = .code 0 ∧
    (CommandLine.status config after).files = after ∧
    CommandLine.Status.neverRan ∈ (CommandLine.status config after).output
  /-- Any version is the first one, if a record can be made where there has been one, or nothing. -/
  checks : made.refuses .create (base ++ ["prefs.json"]) = false →
    (made.exists? config.prefsPath = true ∨
      Path.Allowed config.prefsPath ∧ made.root.look (base ++ ["prefs.json"]) = none) →
    ∀ version dataDirectory now, (PrefsStore.checkVersion ⟨config.prefsPath⟩ after version
      dataDirectory now).1 = .ok .firstRun

/-- **A base directory whose path stands apart is found so after a reset.** -/
theorem forgets (hroot : made.root.isDirectory = true) (hproper : made.root.isProper = true)
    (hmake : fs.makeDirectories (Path.tidy config.baseDirectory) = (.ok (), made))
    (hremove : PrefsStore.remove ⟨config.prefsPath⟩ made = .ok removed)
    (hdata : ∀ target, made.root.look (base ++ ["data"]) ≠ some (.link target))
    (hstands : config.StandsApart made base) :
    config.Forgets made (removed.empty config.dataDirectory) base := by
  have hbase := hstands made (.refl made base)
  obtain ⟨hreduced, hgone⟩ := remove_reduced hbase hremove
  have hproper' := PrefsStore.remove_proper hproper hremove
  have hafter := empty_reduced hproper' hbase hdata hreduced
  have hbase' := hstands _ hafter
  have hwithin := removed.empty_within config.dataDirectory
  have hnone : (removed.empty config.dataDirectory).exists? config.prefsPath = false :=
    FileSystem.exists?_of_within hwithin (PrefsStore.exists?_after_remove hroot hremove)
  refine ⟨fun hkeeps rest hrest => empty_data hproper' hstands hreduced hkeeps hrest,
    CommandLine.status_of_absent hmake hbase' hnone, fun hgranted hrecord version data now => ?_⟩
  -- The name of the record is free: what has been there has gone, or nothing has been there.
  have hfree : (removed.empty config.dataDirectory).root.look (base ++ ["prefs.json"]) = none :=
    hwithin.root.look_eq_none
      (hrecord.elim hgone fun h => hreduced.within.root.look_eq_none h.2)
  have hallowed : Path.Allowed config.prefsPath := by
    refine hrecord.elim (fun hexists => ?_) And.left
    obtain ⟨⟨l, n⟩, hfind⟩ := FileSystem.exists?_eq_true_iff.mp hexists
    obtain ⟨-, slash, hleads, -⟩ := FileSystem.find_eq_ok_iff.mp hfind
    exact hleads.allowed
  obtain ⟨written, hwrite⟩ := write_record hbase' hallowed hfree
    (by rw [hafter.within.refuses]; exact hgranted) ⟨version, some now⟩
  rcases PrefsStore.checkVersion_of_absent ⟨config.prefsPath⟩ hnone version data now with
    ⟨fs', -, hcheck⟩ | ⟨f, hfail, -⟩
  · exact congrArg Prod.fst hcheck
  · rw [hwrite] at hfail
    cases hfail

/-- What a reset that succeeds leaves, once it has made the base directory. -/
structure Cleared (config : Config) (made after : FileSystem) : Prop where
  record : after.exists? config.prefsPath = false
  checks : ∀ version dataDirectory now change,
    (PrefsStore.checkVersion ⟨config.prefsPath⟩ after version dataDirectory now).1 = .ok change →
      change = .firstRun
  /-- The path of the base directory may be too long, though its tidy form is not. -/
  nowhere : (∀ base, ¬made.Houses config.baseDirectory base) → after = made
  reduced : ∀ base, made.Houses config.baseDirectory base →
    (∀ target, made.root.look (base ++ ["data"]) ≠ some (.link target)) →
      after.Reduced made base ∧ (config.StandsApart made base → config.Forgets made after base)

theorem cleared (hroot : made.root.isDirectory = true) (hproper : made.root.isProper = true)
    (hmake : fs.makeDirectories (Path.tidy config.baseDirectory) = (.ok (), made))
    (hremove : PrefsStore.remove ⟨config.prefsPath⟩ made = .ok removed) :
    config.Cleared made (removed.empty config.dataDirectory) := by
  have hnone : (removed.empty config.dataDirectory).exists? config.prefsPath = false :=
    FileSystem.exists?_of_within (removed.empty_within _)
      (PrefsStore.exists?_after_remove hroot hremove)
  refine ⟨hnone, fun version data now change hchange => ?_, fun hnowhere => ?_,
    fun base hbase hdata => ⟨?_, forgets hroot hproper hmake hremove hdata⟩⟩
  · rcases PrefsStore.checkVersion_of_absent ⟨config.prefsPath⟩ hnone version data now with
      ⟨fs', -, hcheck⟩ | ⟨f, -, hcheck⟩ <;> rw [hcheck] at hchange <;> cases hchange
    rfl
  · rw [remove_eq_self hnowhere hremove]
    exact empty_eq_self hnowhere
  · exact empty_reduced (PrefsStore.remove_proper hproper hremove) hbase hdata
      (remove_reduced hbase hremove).1

end Config

/-! ### A reset -/

namespace CommandLine

/-- **A reset touches only what it may.** If it is not agreed to, nothing changes. Otherwise the
base directory is made, unless its path leads to it already. A reset that fails does no more than
that, and it fails if it cannot remove the record. After one that succeeds no record is found, and a
version check that succeeds reports a first run. If the path of the base directory leads to none
even then, nothing else has changed. If it leads to one in which the data directory is no link, then
only the record and what is in the data directory have been taken away. If besides it stands apart
from those, the data directory is empty where the system keeps nothing in it, the status command
says that there has been no run, and so does a version check of any version if a record can be
made. -/
theorem reset_confined (config : Config) (yes : Bool) (typed : String) (fs : FileSystem)
    (hroot : fs.root.isDirectory = true) (hproper : fs.root.isProper = true) :
    let made := (fs.makeDirectories (Path.tidy config.baseDirectory)).2
    let r := reset config yes typed fs
    (∀ args env a now, Arguments.parse args env.engineHome = .ok a →
      Program.configure fs env a = .ok config → a.command = some (.reset yes) →
        Program.run args env typed fs now = r) ∧
    (¬Reset.Agreed yes typed → r.ending = .code 0 ∧ r.files = fs) ∧
    config.Founds fs made ∧
    (∀ f, Reset.Agreed yes typed → PrefsStore.remove ⟨config.prefsPath⟩ made = .error f →
      r.ending ≠ .code 0) ∧
    (r.ending ≠ .code 0 → r.files = made) ∧
    (Reset.Agreed yes typed → r.ending = .code 0 → config.Cleared made r.files) := by
  intro made r
  have hfounds : config.Founds fs made := config.founds fs
  refine ⟨fun _ _ _ now hparse hconfig hcommand =>
    Program.run_reset typed now hparse hconfig hcommand, ?_⟩
  rcases Reset.reset_cases config yes typed fs with
    ⟨hagreed, hending, hfiles⟩ | ⟨hnot, hsame⟩
  · refine ⟨fun hnot => absurd hagreed hnot, hfounds, ?_⟩
    have hopened : (PrefsStore.openAt fs config.prefsPath).2 = made := config.files_openAt fs
    -- It fails if the store cannot be opened or the record not be removed, and else it clears.
    rcases Reset.perform_cases config fs with
      ⟨f, hperform⟩ | ⟨opened, removed, hopen, hremove, told, hperform⟩ <;>
      rw [hperform] at hending hfiles
    · have hfailed : r.ending ≠ .code 0 := by simp [r, hending, Report.failed]
      exact ⟨fun _ _ _ => hfailed, fun _ => hfiles.trans hopened, fun _ hok => absurd hok hfailed⟩
    · obtain rfl : opened = made := by rw [← hopened, hopen]
      refine ⟨fun f _ hfault => ?_, fun hfailed => absurd hending hfailed, fun _ _ => ?_⟩
      · cases hfault.symm.trans hremove
      · rw [show r.files = removed.empty config.dataDirectory from hfiles]
        exact Config.cleared (hfounds.furnished.isDirectory hroot)
          (FileSystem.makeDirectories_proper hproper _) (Config.openAt_ok_iff.mp hopen) hremove
  · exact ⟨fun _ => hsame, hfounds, fun _ hagreed => absurd hagreed hnot,
      fun hfailed => absurd hsame.1 hfailed, fun hagreed => absurd hagreed hnot⟩

/-- A base directory below the top of the tree, and beside it another file. -/
def nestedFiles : FileSystem where
  root := .directory
    [.mk "base" (PrefsStore.topFiles [.mk "cookies" (.file .empty)]).root,
      .mk "other" (.file .empty)]

/-- The configuration for it. -/
def nestedConfig : Config :=
  { baseDirectory := "/base" }

/-- A user agrees, and the cookies are gone and nothing has ever run; the other file is there. -/
theorem reset_confined_agreed :
    let r := reset nestedConfig false " Yes \n" nestedFiles
    r.ending = .code 0 ∧ r.files.root.look ["base", "data", "cookies"] = none ∧
      r.files.root.look ["other"] = some (.file .empty) ∧
      Status.neverRan ∈ (status nestedConfig r.files).output ∧
      ∀ version now, (PrefsStore.checkVersion ⟨nestedConfig.prefsPath⟩ r.files version
        nestedConfig.dataDirectory now).1 = .ok .firstRun := by
  intro r
  have hproper : nestedFiles.root.isProper = true := by decide +kernel
  obtain ⟨-, -, hfounds, -, -, hdone⟩ :=
    reset_confined nestedConfig false " Yes \n" nestedFiles (by decide) hproper
  obtain ⟨es, hat⟩ : ∃ es, nestedFiles.root.at? ["base"] = some (.directory es) := ⟨_, rfl⟩
  have houtside : nestedFiles.FromOutside nestedConfig.baseDirectory ["base"] :=
    FileSystem.fromOutside_ofLocation hproper hat ⟨by decide, by decide, by decide⟩ (by decide)
  have hstands := Config.standsApart_of_fromOutside houtside
  have hbase := hstands nestedFiles (.refl _ _)
  rw [hfounds.there ["base"] hbase] at hdone
  have hblank : Text.AreBlank [' '] := by
    simp [Text.AreBlank, Text.isBlank, Text.blankRuns]
  -- The answer is a yes among blanks, in whatever case.
  have hagreed : Reset.Agreed false " Yes \n" :=
    .inr ⟨[' '], ['Y', 'e', 's'], [' '], ['\n'], by decide, by decide, by simp, hblank, hblank,
      .inr ⟨'Y', by simp, 'e', by simp, 's', by simp, rfl⟩⟩
  have hcode : r.ending = .code 0 := by decide +kernel
  have hcleared := hdone hagreed hcode
  have hdata : nestedFiles.root.look (["base"] ++ ["data"]) = some .directory := by decide +kernel
  obtain ⟨hreduced, hforgets⟩ := hcleared.reduced ["base"] hbase fun target => by
    rw [hdata]
    simp
  obtain ⟨hempty, ⟨-, -, hnever⟩, hchecks⟩ := hforgets hstands
  refine ⟨hcode, hempty (fun rest hrest hsome => ?_) ["cookies"] (by simp),
    hreduced.elsewhere ["other"] (by decide) (by decide), hnever, fun version now => ?_⟩
  · -- There is nothing but the cookies.
    obtain ⟨name, rest, rfl⟩ := List.exists_cons_of_ne_nil hrest
    have hcookies : nestedFiles.root.at? (["base"] ++ ["data"])
        = some (.directory [.mk "cookies" (.file .empty)]) := rfl
    obtain ⟨e, he, rfl⟩ := Node.exists_entry hcookies hsome
    obtain rfl := List.mem_singleton.mp he
    obtain rfl : rest = [] := by
      cases rest with
      | nil => rfl
      | cons below rest =>
        have hfile : nestedFiles.root.at? (["base"] ++ ["data"] ++ ["cookies"])
            = some (.file .empty) := rfl
        rw [List.append_cons] at hsome
        exact absurd (Node.look_below_leaf hfile rfl) hsome
    have hreaches : Path.Reaches nestedConfig.dataDirectory ["cookies"] :=
      ⟨⟨by decide, by decide, by decide⟩, by decide⟩
    rintro (hremove | ⟨above, below, -, -, hread⟩ | hnot)
    · cases hremove
    · cases hread
    · exact hnot hreaches
  · exact hchecks rfl (.inl (by decide +kernel)) version nestedConfig.dataDirectory now

/-- A base directory in which the record is a link. -/
def linkedFiles (target : String) : FileSystem where
  root := .directory [.mk "b" (.directory
    [.mk "prefs.json" (.link target), .mk "data" (.directory [.mk "cookies" (.file .empty)])])]

/-- Two resets that succeed, though the system refuses nothing. The first one removes the link that
the path of the base directory goes through: it does not find the data directory any more, and the
status command, which makes directories on that path, takes one of them for the record. The second
one leaves a link that leads to nothing, through which no record can be written. -/
theorem reset_cut_off :
    let config : Config := { baseDirectory := "/b/prefs.json/.." }
    let fs := linkedFiles "data"
    let r := reset config true "" fs
    let r' := reset { baseDirectory := "/b" } true "" (linkedFiles "gone/prefs.json")
    ((fs.find config.baseDirectory).map (·.1) = .ok ["b"] ∧
      fs.root.look ["b", "data"] = some .directory ∧ r.ending = .code 0 ∧
      r.files.root.look ["b", "data", "cookies"] = some (.file .empty) ∧
      (status config r.files).ending = .code 1) ∧
    (r'.ending = .code 0 ∧ r'.files.root.look ["b", "data", "cookies"] = none ∧
      (PrefsStore.checkVersion ⟨"/b/prefs.json"⟩ r'.files 1 "/b/data" "now").1.isOk = false) := by
  decide +kernel

end CommandLine

end LazyEngine
