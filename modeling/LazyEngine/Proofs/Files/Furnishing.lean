/-
Making directories.

Making a directory with all its ancestors does nothing where the path leads to a directory already,
and adds directories otherwise. `PrefsStore.openAt` makes the parent of a path, which is tidied up
(`Files/Parents`); for the tree that makes no difference:

* `FileSystem.Furnished` — one file system is another one with directories added;
* **`FileSystem.makeDirectories_furnished`** — all that is made are directories;
* **`FileSystem.makeDirectories_eq_self`** — a directory is not made twice;
* **`FileSystem.makeDirectories_tidy`** — whether a path or the tidy one is made a directory, the
  outcome is the same, if both succeed.

Design notes: a walk can fail in many ways, and how it does decides what is made next. The proofs
avoid all that: where an operation succeeds in the end, the walks that matter have come to an end
too, so only walks that lead somewhere are compared (`Walk.Leads`).
-/
import LazyEngine.Proofs.Files.Operations
import LazyEngine.Proofs.Files.Parents

namespace LazyEngine

namespace Walk

variable {look look' : Location → Option Form} {aim : Aim}

/-! ### Walks that end with idle steps -/

theorem Leads.of_idle {n : Nat} {here : Location} {more : List String} (h : Path.Idle more)
    (hhere : look here = some .directory) :
    ∃ slash, Leads look aim n here more (.node here slash) := by
  induction h with
  | nil => exact ⟨false, .stop⟩
  | slash => exact ⟨true, .slash⟩
  | dot _ ih => exact ih.imp fun _ h => .stay hhere h

/-- No name is looked up in idle steps. -/
theorem Enters.not_idle {step : String} {rest : List String} (h : Enters aim step rest) :
    ¬Path.Idle (step :: rest) := by
  intro hidle
  cases hidle with
  | slash => exact h.not_slash rfl rfl
  | dot => exact h.no_dot rfl

/-- Idle steps are the rest, or come after the first name. -/
theorem cons_eq_append {names more rest : List String} {step : String}
    (h : names ++ more = step :: rest) :
    (names = [] ∧ more = step :: rest) ∨
      ∃ names', names = step :: names' ∧ rest = names' ++ more := by
  cases names with
  | nil => exact .inl ⟨rfl, h⟩
  | cons first names =>
    cases h
    exact .inr ⟨names, rfl, rfl⟩

/-- What a link is replaced by, with idle steps behind it, are the names of its target and idle
steps. -/
theorem throughLink_append (target : String) (names : List String) {more : List String}
    (h : Path.Idle more) : ∃ more', Path.Idle more' ∧
      throughLink target (names ++ more) = (Path.names target ++ names) ++ more' ∧
      (names ++ more ≠ [] → more' = more) := by
  by_cases hempty : names ++ more = []
  · obtain ⟨rfl, rfl⟩ := List.append_eq_nil_iff.mp hempty
    rcases Path.steps_eq target with hsteps | hsteps
    · exact ⟨[], .nil, by simp [throughLink, hsteps], fun hne => absurd rfl hne⟩
    · exact ⟨[""], .slash, by simp [throughLink, hsteps], fun hne => absurd rfl hne⟩
  · refine ⟨more, h, ?_, fun _ => rfl⟩
    rw [throughLink, if_neg (by simpa using hempty), List.append_assoc]
    rfl

/-- **At a directory idle steps do not matter**: with some in place of others, a path leads to the
same directory. -/
theorem Leads.idle {n : Nat} {here : Location} {names more more' : List String} {l : Location}
    {slash : Bool} (hnames : ∀ step ∈ names, step ≠ "") (hmore : Path.Idle more)
    (hmore' : Path.Idle more') (hl : look l = some .directory)
    (h : Leads look .target n here (names ++ more) (.node l slash)) :
    ∃ slash', Leads look .target n here (names ++ more') (.node l slash') := by
  generalize hsteps : names ++ more = steps at h
  generalize hs : Spot.node l slash = s at h
  -- By induction on the walk, whose steps go along the names until only idle ones are left.
  induction h generalizing names more more' with
  | stop =>
    cases hs
    obtain ⟨rfl, rfl⟩ := List.append_eq_nil_iff.mp hsteps
    exact Leads.of_idle hmore' hl
  | slash =>
    cases hs
    rcases cons_eq_append hsteps with ⟨rfl, -⟩ | ⟨names', rfl, -⟩
    · exact Leads.of_idle hmore' hl
    · exact absurd rfl (hnames "" (by simp))
  | stay hlook _ ih =>
    rcases cons_eq_append hsteps with ⟨rfl, rfl⟩ | ⟨names', rfl, rfl⟩
    · exact ih hnames hmore.of_dot hmore' rfl hs
    · exact (ih (fun step hstep => hnames step (by simp [hstep])) hmore hmore' rfl hs).imp
        fun _ h => .stay hlook h
  | up hlook _ ih =>
    rcases cons_eq_append hsteps with ⟨rfl, rfl⟩ | ⟨names', rfl, rfl⟩
    · exact absurd hmore Path.Idle.not_up
    · exact (ih (fun step hstep => hnames step (by simp [hstep])) hmore hmore' rfl hs).imp
        fun _ h => .up hlook h
  | free => cases hs
  | last _ _ _ _ haim => cases haim
  | @link n here step target rest s hlook henters hlink hend hne _ ih =>
    rcases cons_eq_append hsteps with ⟨rfl, rfl⟩ | ⟨names', rfl, rfl⟩
    · exact absurd hmore henters.not_idle
    · -- The idle steps stay behind the target of the link.
      obtain ⟨tail, htail, heq, -⟩ := throughLink_append target names' hmore
      obtain ⟨tail', htail', heq', -⟩ := throughLink_append target names' hmore'
      obtain ⟨slash', h⟩ := ih (fun step hstep => (List.mem_append.mp hstep).elim
        Path.nonempty_of_mem_names fun h => hnames step (List.mem_cons_of_mem _ h))
        htail htail' heq.symm hs
      rw [← heq'] at h
      exact ⟨slash', .link hlook (henters.of_name (by simp) (hnames step (by simp))) hlink
        (by simp) hne h⟩
  | @enter n here step f rest s hlook henters hsome hno _ ih =>
    rcases cons_eq_append hsteps with ⟨rfl, rfl⟩ | ⟨names', rfl, rfl⟩
    · exact absurd hmore henters.not_idle
    · exact (ih (fun step hstep => hnames step (by simp [hstep])) hmore hmore' rfl hs).imp
        fun _ h => .enter hlook (henters.of_name (by simp) (hnames step (by simp))) hsome hno h

/-- A path that leads to something ends with an entry. -/
theorem Leads.entry_of_target {n : Nat} {here : Location} {steps : List String} {l : Location}
    {slash : Bool} (h : Leads look .target n here steps (.node l slash)) :
    ∃ l' slash', Leads look .entry n here steps (.node l' slash') := by
  generalize hs : Spot.node l slash = s at h
  induction h with
  | stop => exact ⟨_, _, .stop⟩
  | slash => exact ⟨_, _, .slash⟩
  | stay hlook _ ih =>
    obtain ⟨l', slash', h⟩ := ih hs
    exact ⟨l', slash', .stay hlook h⟩
  | up hlook _ ih =>
    obtain ⟨l', slash', h⟩ := ih hs
    exact ⟨l', slash', .up hlook h⟩
  | free => cases hs
  | last _ _ _ _ haim => cases haim
  | @link n here step target rest s hlook henters hlink _ hne _ ih =>
    by_cases hend : isEnd rest
    · exact ⟨_, _, .last hlook (henters.of_aim (by simp)) hlink hend rfl⟩
    · obtain ⟨l', slash', h⟩ := ih hs
      exact ⟨l', slash', .link hlook (henters.of_aim (by simp)) hlink (fun h => hend h.1) hne h⟩
  | enter hlook henters hsome hno _ ih =>
    obtain ⟨l', slash', h⟩ := ih hs
    exact ⟨l', slash', .enter hlook (henters.of_aim (by simp)) hsome hno h⟩

/-- Where a directory is to be made, there it is found, once it has been put there. -/
theorem Leads.made {n : Nat} {here : Location} {steps : List String} {parent : Location}
    {name : String} {slash : Bool} (hsub : ∀ l f, look l = some f → look' l = some f)
    (hnew : look' (parent ++ [name]) = some .directory)
    (h : Leads look .entry n here steps (.free parent name slash)) :
    ∃ slash', Leads look' .target n here steps (.node (parent ++ [name]) slash') := by
  generalize hs : Spot.free parent name slash = s at h
  induction h with
  | stop | slash | last => cases hs
  | stay hlook _ ih => exact (ih hs).imp fun _ h => .stay (hsub _ _ hlook) h
  | up hlook _ ih => exact (ih hs).imp fun _ h => .up (hsub _ _ hlook) h
  | @free n here step rest hlook henters _ hend =>
    cases hs
    have hstop : ∃ slash', Leads look' .target n (parent ++ [name]) rest
        (.node (parent ++ [name]) slash') := by
      rcases (by simpa [isEnd] using hend : rest = [] ∨ rest = [""]) with rfl | rfl
      · exact ⟨false, .stop⟩
      · exact ⟨true, .slash⟩
    exact hstop.imp fun _ h => .enter (hsub _ _ hlook) (henters.of_aim (by simp)) hnew (by simp) h
  | link hlook henters hlink _ hne _ ih =>
    exact (ih hs).imp fun _ h => .link (hsub _ _ hlook) (henters.of_aim (by simp)) (hsub _ _ hlink)
      (by simp) hne h
  | enter hlook henters hsome hno _ ih =>
    exact (ih hs).imp fun _ h => .enter (hsub _ _ hlook) (henters.of_aim (by simp))
      (hsub _ _ hsome) hno h

end Walk

namespace FileSystem

variable {fs fs' : FileSystem} {path : String}

/-! ### One directory -/

theorem isDirectory_iff : fs.isDirectory path = true ↔
    ∃ l slash, fs.Leads .target path (.node l slash) ∧ fs.root.look l = some .directory := by
  rw [isDirectory]
  constructor
  · intro h
    cases hfind : fs.find path with
    | error e => simp [hfind] at h
    | ok found =>
      obtain ⟨l, n⟩ := found
      obtain ⟨hat, slash, hleads, -⟩ := find_eq_ok_iff.mp hfind
      refine ⟨l, slash, hleads, ?_⟩
      rw [Node.look_of_at? hat, Node.form_eq_directory_iff.mpr (by simpa [hfind] using h)]
  · rintro ⟨l, slash, hleads, hlook⟩
    obtain ⟨n, hat, hform⟩ := Option.map_eq_some_iff.mp hlook
    have hn := Node.form_eq_directory_iff.mp hform
    rw [find_eq_ok_iff.mpr ⟨hat, slash, hleads, fun _ => hn⟩]
    exact hn

theorem makeDirectory_ok_iff : fs.makeDirectory path = .ok fs' ↔
    ∃ parent name slash, fs.Leads .entry path (.free parent name slash) ∧
      fs.refuses .create (parent ++ [name]) = false ∧
      fs' = { fs with root := fs.root.put (.directory []) (parent ++ [name]) } := by
  rw [makeDirectory]
  constructor
  · intro h
    cases hwalk : fs.walk .entry path with
    | error e => simp [hwalk] at h
    | ok d =>
      cases d with
      | node => simp [hwalk] at h
      | free parent name slash =>
        simp only [hwalk] at h
        split at h
        · cases h
        · rename_i hgranted
          cases h
          exact ⟨parent, name, slash, (walk_eq_ok_iff.mp hwalk).1, by simpa using hgranted, rfl⟩
  · rintro ⟨parent, name, slash, hleads, hgranted, rfl⟩
    have hwalk : fs.walk .entry path = .ok (.free parent name slash) :=
      walk_eq_ok_iff.mpr ⟨hleads, trivial⟩
    simp [hwalk, hgranted]

/-- Where a path leads, there its walk ends. -/
theorem Leads.walk {aim : Aim} {s : Spot} (h : fs.Leads aim path s) :
    ∃ d, fs.walk aim path = .ok d ∧ d.spot = s := by
  have hempty : Trail.Taken fs.root [] := trivial
  have hextend := hempty.extend? (fs.start path)
  cases htrail : Trail.extend? fs.root [] (fs.start path) with
  | none =>
    rw [htrail] at hextend
    exact absurd hextend h.begins
  | some trail =>
    rw [htrail] at hextend
    obtain ⟨d, -, hspot, hin⟩ := Walk.follow_of_leads h.leads hextend.1 hextend.2
    exact ⟨d, walk_eq_ok_iff.mpr ⟨hspot ▸ h, hin⟩, hspot⟩

/-- What is a directory is not made one. -/
theorem makeDirectory_of_isDirectory (h : fs.isDirectory path = true) :
    fs.makeDirectory path = .error .alreadyExists := by
  obtain ⟨l, slash, ⟨hallowed, hbegins, hleads⟩, -⟩ := isDirectory_iff.mp h
  obtain ⟨l', slash', hentry⟩ := hleads.entry_of_target
  have hentry : fs.Leads .entry path (.node l' slash') := ⟨hallowed, hbegins, hentry⟩
  obtain ⟨d, hwalk, hspot⟩ := hentry.walk
  rw [makeDirectory, hwalk]
  cases d with
  | free => cases hspot
  | node => rfl

/-- What has been made is a directory. -/
theorem isDirectory_of_makeDirectory (h : fs.makeDirectory path = .ok fs') :
    fs'.isDirectory path = true := by
  have hwithin := makeDirectory_within h
  obtain ⟨parent, name, slash, ⟨hallowed, hbegins, hleads⟩, -, rfl⟩ := makeDirectory_ok_iff.mp h
  obtain ⟨hparent, hfree⟩ := hleads.free_parent
  generalize hroot : fs.root.put (.directory []) (parent ++ [name]) = root at hwithin ⊢
  have hnew : root.look (parent ++ [name]) = some .directory := by
    rw [← hroot, Node.look_put rfl hparent (by simp [hfree]), if_pos rfl]
    rfl
  have hsub : ∀ l f, fs.root.look l = some f → root.look l = some f :=
    fun _ _ hl => hwithin.root hl
  obtain ⟨slash', hmade⟩ := hleads.made hsub hnew
  refine isDirectory_iff.mpr ⟨_, slash', ⟨hallowed, fun hnone => ?_, hmade⟩, hnew⟩
  exact hbegins (hwithin.root.look_eq_none hnone)

/-! ### Directories with their ancestors -/

/-- One file system is another one with directories added. -/
structure Furnished (fs fs' : FileSystem) : Prop where
  within : fs.Within fs'
  added : ∀ l, fs.root.look l = none →
    fs'.root.look l = none ∨ fs'.root.look l = some .directory

theorem Furnished.refl (fs : FileSystem) : fs.Furnished fs := ⟨.refl fs, fun _ => .inl⟩

theorem Furnished.trans {a b c : FileSystem} (h : a.Furnished b) (h' : b.Furnished c) :
    a.Furnished c :=
  ⟨h.within.trans h'.within, fun l hl =>
    (h.added l hl).elim (h'.added l) fun hdirectory => .inr (h'.within.root hdirectory)⟩

/-- A file is still found when directories have been added. -/
theorem Furnished.find_file {l : Location} {bytes : ByteArray} (h : fs.Furnished fs')
    (hfind : fs.find path = .ok (l, .file bytes)) : fs'.find path = .ok (l, .file bytes) := by
  obtain ⟨n, hfind', hform⟩ := find_mono h.within.root h.within.here.symm hfind
  rwa [Node.form_eq_file_iff.mp hform] at hfind'

theorem makeDirectory_furnished (h : fs.makeDirectory path = .ok fs') : fs.Furnished fs' := by
  refine ⟨makeDirectory_within h, fun l hl => ?_⟩
  obtain ⟨parent, name, slash, hleads, -, rfl⟩ := makeDirectory_ok_iff.mp h
  obtain ⟨hparent, hfree⟩ := hleads.leads.free_parent
  simp only
  rw [Node.look_put rfl hparent (by simp [hfree])]
  split
  · exact .inr rfl
  · exact .inl hl

/-- **All that is made are directories**, whether or not making them succeeds. -/
theorem makeDirectories_furnished (fs : FileSystem) (path : String) :
    fs.Furnished (fs.makeDirectories path).2 :=
  makeFirst_keeps .refl .trans makeDirectory_furnished fs _

/-- There is nothing to be made: the path leads to a directory, or it is empty. -/
def Stands (fs : FileSystem) (path : String) : Prop :=
  path = "" ∨ fs.isDirectory path = true

theorem makeFirst_of_stands (h : fs.Stands path) (above : List String) :
    fs.makeFirst (path :: above) = (.ok (), fs) := by
  by_cases hpath : path = ""
  · simp [makeFirst, hpath]
  · have hdirectory := h.resolve_left hpath
    simp [makeFirst, hpath, makeDirectory_of_isDirectory hdirectory, hdirectory]

/-- **A directory is not made twice.** -/
theorem makeDirectories_eq_self (h : fs.Stands path) :
    fs.makeDirectories path = (.ok (), fs) := by
  rw [makeDirectories, Path.ancestors_eq]
  exact makeFirst_of_stands h _

/-- How a path comes to be a directory: it is made one, it is one, or its ancestors have to be made
first. -/
theorem makeFirst_ok {above : List String} (hpath : path ≠ "")
    (h : fs.makeFirst (path :: above) = (.ok (), fs')) :
    fs.makeDirectory path = .ok fs' ∨
      fs.isDirectory path = true ∧ fs' = fs ∨
      fs.makeDirectory path = .error .notFound ∧
        ∃ between, fs.makeFirst above = (.ok (), between) ∧
          (between.makeDirectory path = .ok fs' ∨
            between.isDirectory path = true ∧ fs' = between) := by
  -- Where it could not be made, it counts as made only if it is a directory all the same.
  have hsettled : ∀ {fs : FileSystem} {e : FileError},
      ((if fs.isDirectory path then .ok () else .error e, fs) :
        Except FileError Unit × FileSystem) = (.ok (), fs') →
      fs.isDirectory path = true ∧ fs' = fs := by
    intro fs e h
    split at h <;> cases h
    exact ⟨‹_›, rfl⟩
  rw [makeFirst, if_neg (by simpa using hpath)] at h
  split at h
  · cases h
    exact .inl ‹_›
  · rename_i hmissing
    split at h
    · cases h
    · rename_i between habove
      refine .inr (.inr ⟨hmissing, between, habove, ?_⟩)
      split at h
      · cases h
        exact .inl ‹_›
      · exact .inr (hsettled h)
  · exact .inr (.inl (hsettled h))

theorem isDirectory_of_makeFirst {above : List String} (hpath : path ≠ "")
    (h : fs.makeFirst (path :: above) = (.ok (), fs')) : fs'.isDirectory path = true := by
  rcases makeFirst_ok hpath h with hmade | ⟨hdirectory, rfl⟩ |
    ⟨-, between, -, hmade | ⟨hdirectory, rfl⟩⟩
  · exact isDirectory_of_makeDirectory hmade
  · exact hdirectory
  · exact isDirectory_of_makeDirectory hmade
  · exact hdirectory

theorem isDirectory_of_makeDirectories (hpath : path ≠ "")
    (h : fs.makeDirectories path = (.ok (), fs')) : fs'.isDirectory path = true := by
  rw [makeDirectories, Path.ancestors_eq] at h
  exact isDirectory_of_makeFirst hpath h

theorem allowed_of_isDirectory (h : fs.isDirectory path = true) : Path.Allowed path := by
  obtain ⟨l, slash, hleads, -⟩ := isDirectory_iff.mp h
  exact hleads.allowed

theorem start_tidy (hpath : path ≠ "") : fs.start (Path.tidy path) = fs.start path := by
  rw [start, start, Path.isAbsolute_tidy hpath]

theorem isDirectory_tidy (hpath : path ≠ "") (hallowed : Path.Allowed path)
    (htidy : Path.Allowed (Path.tidy path)) (fs : FileSystem) :
    fs.isDirectory path = fs.isDirectory (Path.tidy path) := by
  obtain ⟨more, hmore, hsteps⟩ := Path.steps_tidy hpath
  have hnames : ∀ step ∈ Path.names (Path.tidy path), step ≠ "" :=
    fun _ hstep => Path.nonempty_of_mem_names hstep
  have htidySteps : Path.steps (Path.tidy path) = Path.names (Path.tidy path) ++ [] := by
    rw [Path.steps_tidy_eq hpath, List.append_nil]
  rw [Bool.eq_iff_iff, isDirectory_iff, isDirectory_iff]
  constructor
  · rintro ⟨l, slash, ⟨-, hbegins, hleads⟩, hlook⟩
    rw [hsteps] at hleads
    obtain ⟨slash', hleads⟩ := hleads.idle hnames hmore .nil hlook
    rw [← htidySteps, ← start_tidy hpath] at hleads
    exact ⟨l, slash', ⟨htidy, start_tidy hpath ▸ hbegins, hleads⟩, hlook⟩
  · rintro ⟨l, slash, ⟨-, hbegins, hleads⟩, hlook⟩
    rw [htidySteps] at hleads
    obtain ⟨slash', hleads⟩ := hleads.idle hnames .nil hmore hlook
    rw [← hsteps, start_tidy hpath] at hleads
    exact ⟨l, slash', ⟨hallowed, start_tidy hpath ▸ hbegins, hleads⟩, hlook⟩

/-- Wherever a path stands, the tidy one does, and the other way round, if both are paths that can
be made somewhere. -/
theorem stands_tidy_iff {c d a b : FileSystem} (h : c.makeDirectories path = (.ok (), a))
    (h' : d.makeDirectories (Path.tidy path) = (.ok (), b)) (fs : FileSystem) :
    fs.Stands path ↔ fs.Stands (Path.tidy path) := by
  by_cases hpath : path = ""
  · subst hpath
    exact iff_of_true (.inl rfl) (.inl (by decide))
  have htidy := Path.tidy_ne_empty hpath
  have hallowed := allowed_of_isDirectory (isDirectory_of_makeDirectories hpath h)
  have hallowed' := allowed_of_isDirectory (isDirectory_of_makeDirectories htidy h')
  rw [Stands, Stands, isDirectory_tidy hpath hallowed hallowed' fs]
  simp [hpath, htidy]

end FileSystem

end LazyEngine
