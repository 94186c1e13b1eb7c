/-
What a file holds.

A text goes into a file as its bytes and comes out again, as long as the path keeps leading to the
file and the system lets it be read:

* `FileSystem.Holds` — a path leads to a file with a text in it, which may be read;
* **`FileSystem.read_after_write`** — a file that could be read before it was written can be read
  afterwards, and is what has been written;
* **`FileSystem.exists?_after_removeFile`** — a path at which a file has been removed leads to
  nothing any more.

Design notes: a path is followed in one way to be written and in another way to be read, and what
it leads to is compared by its location. The last theorem needs the root to be a directory: the root
itself cannot be taken away.
-/
import LazyEngine.Proofs.Files.Operations
import LazyEngine.Proofs.Files.Parents

namespace LazyEngine

/-- A text comes back from its bytes. -/
theorem fromUTF8?_toUTF8 (text : String) : String.fromUTF8? text.toUTF8 = some text := by
  rw [String.fromUTF8?, String.toUTF8_eq_toByteArray, dif_pos text.isValidUTF8]
  rfl

/-! ### Paths to a file that is gone -/

/-- A path without a name to follow begins with a slash. -/
theorem Path.isAbsolute_of_steps {path : String} (hpath : path ≠ "") (h : steps path = []) :
    isAbsolute path = true := by
  by_contra habsolute
  obtain ⟨first, others, hparts⟩ := List.exists_cons_of_ne_nil (parts_ne_nil path)
  have hne : first ≠ "" := by
    have hfirst := head?_parts hpath (by simpa using habsolute)
    rw [hparts] at hfirst
    rintro rfl
    exact hfirst rfl
  have hnames : names path = [] := by
    rcases steps_eq path with heq | heq
    · rw [← heq, h]
    · rw [heq] at h
      simp at h
  rw [names_eq, hparts] at hnames
  exact absurd hne (by simpa using List.filter_eq_nil_iff.mp hnames first List.mem_cons_self)

namespace Walk

variable {look look' : Location → Option Form}

/-- Steps that end with a file or a link lead nowhere once it is gone. `look'` is `look` without
that location, and possibly without others. -/
theorem Leads.gone {n : Nat} {here l : Location} {steps : List String}
    (habove : ∀ l name, look (l ++ [name]) ≠ none → look l = some .directory)
    (hleaf : look l ≠ some .directory) (hsub : ∀ x f, look' x = some f → look x = some f)
    (hgone : look' l = none) (hsteps : steps = [] → look here = some .directory)
    (h : Leads look .entry n here steps (.node l false)) {l' : Location} {slash : Bool} :
    ¬Leads look' .target n here steps (.node l' slash) := by
  generalize hs : Spot.node l false = s at h
  induction h with
  | stop =>
    cases hs
    exact fun _ => hleaf (hsteps rfl)
  | slash | free => cases hs
  | @stay n here rest s hlook _ ih =>
    intro h'
    generalize hstep : "." :: rest = steps' at h'
    cases h' with
    | stop => cases hstep
    | slash | up => simp at hstep
    | stay _ h' =>
      cases hstep
      exact ih (fun _ => hlook) hs h'
    | last _ henters | link _ henters | enter _ henters =>
      cases hstep
      exact henters.no_dot rfl
  | @up n here rest s hlook _ ih =>
    intro h'
    generalize hstep : ".." :: rest = steps' at h'
    cases h' with
    | stop => cases hstep
    | slash | stay => simp at hstep
    | up _ h' =>
      cases hstep
      refine ih (fun _ => ?_) hs h'
      -- The directory above a directory is one.
      rcases List.eq_nil_or_concat here with rfl | ⟨l, name, rfl⟩
      · exact hlook
      · rw [List.concat_eq_append, List.dropLast_concat]
        rw [List.concat_eq_append] at hlook
        exact habove l name (by rw [hlook]; simp)
    | last _ henters | link _ henters | enter _ henters =>
      cases hstep
      exact henters.no_dots rfl
  | @last n here step target rest hlook henters hlink hend haim =>
    obtain ⟨rfl, -⟩ := Spot.node.inj hs
    intro h'
    cases h' with
    | slash => exact henters.not_slash rfl rfl
    | stay => exact henters.no_dot rfl
    | up => exact henters.no_dots rfl
    | last _ _ _ _ haim => cases haim
    | link _ _ hsome | enter _ _ hsome => rw [hgone] at hsome; cases hsome
  | @link n here step target rest s hlook henters hlink hend htarget h ih =>
    have hmore : throughLink target rest ≠ [] := by
      intro hnil
      have hrest : rest = [] := by
        by_contra hne
        rw [throughLink, if_neg (by simpa using hne)] at hnil
        exact hne (List.append_eq_nil_iff.mp hnil).2
      exact hend ⟨by simp [isEnd, hrest], rfl⟩
    intro h'
    cases h' with
    | slash => exact henters.not_slash rfl rfl
    | stay => exact henters.no_dot rfl
    | up => exact henters.no_dots rfl
    | last _ _ _ _ haim => cases haim
    | link _ _ hsome _ _ h' =>
      cases hlink.symm.trans (hsub _ _ hsome)
      exact ih (fun hnil => absurd hnil hmore) hs h'
    | enter _ _ hsome hno =>
      cases hlink.symm.trans (hsub _ _ hsome)
      exact hno _ rfl
  | @enter n here step f rest s hlook henters hsome hno h ih =>
    intro h'
    cases h' with
    | slash => exact henters.not_slash rfl rfl
    | stay => exact henters.no_dot rfl
    | up => exact henters.no_dots rfl
    | last _ _ _ _ haim => cases haim
    | link _ _ hsome' =>
      cases hsome.symm.trans (hsub _ _ hsome')
      exact hno _ rfl
    | enter _ _ hsome' _ h' =>
      refine ih (fun hnil => ?_) hs h'
      -- If the steps end here, this is the location that is gone.
      subst hnil
      cases h with
      | stop =>
        cases hs
        rw [hgone] at hsome'
        cases hsome'

end Walk

namespace FileSystem

variable {fs fs' : FileSystem} {path : String} {bytes old : ByteArray}

/-- The path leads to a file that may be read, and the file holds the text. -/
def Holds (fs : FileSystem) (path text : String) : Prop :=
  fs.read path = .ok text.toUTF8

theorem Holds.readText {text : String} (h : fs.Holds path text) : fs.readText path = .ok text := by
  rw [Holds] at h
  simp only [FileSystem.readText, h, fromUTF8?_toUTF8]

theorem read_eq_ok_iff :
    fs.read path = .ok bytes ↔
      ∃ l, fs.find path = .ok (l, .file bytes) ∧ fs.refuses .read l = false := by
  rw [read]
  cases hfind : fs.find path with
  | error e => simp
  | ok found =>
    obtain ⟨l, n⟩ := found
    cases n with
    | link | directory => simp
    | file bytes' =>
      simp only [Except.ok.injEq, Prod.mk.injEq, Node.file.injEq]
      by_cases hrefused : fs.refuses .read l = true
      · rw [if_pos hrefused]
        simp only [reduceCtorEq, false_iff, not_exists, not_and]
        rintro l' ⟨rfl, -⟩
        simp [hrefused]
      · rw [if_neg hrefused]
        constructor
        · intro h
          cases h
          exact ⟨l, ⟨rfl, rfl⟩, by simpa using hrefused⟩
        · rintro ⟨l', ⟨rfl, rfl⟩, -⟩
          rfl

theorem Holds.exists? {text : String} (h : fs.Holds path text) : fs.exists? path = true := by
  obtain ⟨l, hfind, -⟩ := read_eq_ok_iff.mp h
  rw [FileSystem.exists?, hfind]
  rfl

/-! ### Writing -/

/-- Where a path leads that is followed to write a file, there a file is found in a tree that has
one at that location and is otherwise the same. -/
theorem find_of_leads_file {s : Spot} (h : fs.Leads .file path s) (hhere : fs'.here = fs.here)
    (hold : ∀ f, fs.root.look s.location = some f → ∃ bytes, f = .file bytes)
    (hnew : fs'.root.look s.location = some (.file bytes))
    (hsame : ∀ l, l ≠ s.location → fs'.root.look l = fs.root.look l) :
    fs'.find path = .ok (s.location, .file bytes) := by
  obtain ⟨hallowed, hbegins, hleads⟩ := h
  have hstart : fs'.start path = fs.start path := by rw [start, start, hhere]
  have hfound : Walk.Leads fs'.root.look .target Walk.linkLimit (fs.start path) (Path.steps path)
      (.node s.location false) :=
    hleads.fill (fun _ _ => Node.look_parent) hold hnew hsame
      (fun hslash => absurd hslash (Path.steps_ne_slash path))
  refine find_eq_ok_iff.mpr ⟨Node.at?_of_look_file hnew, false, ⟨hallowed, ?_, ?_⟩, by simp⟩
  · rw [hstart]
    by_cases hspot : fs.start path = s.location
    · rw [hspot, hnew]
      simp
    · rwa [hsame _ hspot]
  · rwa [hstart]

/-- What is written to a path is found there, in the file that the path led to if it led to one. -/
theorem find_of_write (h : fs.write path bytes = .ok fs') :
    ∃ l, fs'.find path = .ok (l, .file bytes) ∧ fs'.here = fs.here ∧ fs'.refuses = fs.refuses ∧
      (fs.root.look l = none ∨ ∃ old, fs.find path = .ok (l, .file old)) ∧
      ∀ x, x ≠ l → fs'.root.look x = fs.root.look x := by
  obtain ⟨d, hwalk, hold, rfl⟩ := write_ok h
  have hleads := (walk_eq_ok_iff.mp hwalk).1
  have hput : ∀ x, (fs.root.put (.file bytes) d.spot.location).look x
      = if x = d.spot.location then some (.file bytes) else fs.root.look x := by
    have hleaf : (Node.file bytes).entries = [] := rfl
    refine Node.look_put_leaf hleaf (fun _ _ => look_above_walk hwalk) fun hdirectory => ?_
    obtain ⟨bytes, h⟩ := hold _ hdirectory
    cases h
  refine ⟨d.spot.location, find_of_leads_file hleads rfl hold (by simp [hput])
    (fun l hl => by simp [hput, hl]), rfl, rfl, ?_, fun x hx => by simp [hput, hx]⟩
  cases hlook : fs.root.look d.spot.location with
  | none => exact .inl rfl
  | some f =>
    obtain ⟨old, rfl⟩ := hold f hlook
    exact .inr ⟨old, find_of_leads_file hleads rfl hold hlook fun _ _ => rfl⟩

/-- **A file that could be read before it was written can be read afterwards.** -/
theorem read_after_write (hread : fs.read path = .ok old) (h : fs.write path bytes = .ok fs') :
    fs'.read path = .ok bytes := by
  obtain ⟨l, hfind, hallowed⟩ := read_eq_ok_iff.mp hread
  obtain ⟨l', hfind', hhere, hrefuses, hplace, hsame⟩ := find_of_write h
  obtain rfl : l = l' := by
    rcases hplace with hfree | ⟨old', hfile⟩
    · -- Where a file is added to a tree, every path leads on to what it led to before.
      have hwithin : fs.root.Within fs'.root := by
        intro x f hx
        rwa [hsame x]
        rintro rfl
        rw [hfree] at hx
        cases hx
      obtain ⟨n, hfound, -⟩ := find_mono hwithin hhere hfind
      rw [hfind'] at hfound
      cases hfound
      rfl
    · rw [hfind] at hfile
      cases hfile
      rfl
  exact read_eq_ok_iff.mpr ⟨l, hfind', by rw [hrefuses]; exact hallowed⟩

/-! ### Removing -/

/-- A path does not lead on where the end of it has been taken away. -/
theorem Leads.exists?_without {l : Location} (h : fs.Leads .entry path (.node l false))
    (hroot : fs.root.isDirectory = true) (hleaf : fs.root.look l ≠ some .directory) :
    ({ fs with root := fs.root.remove l } : FileSystem).exists? path = false := by
  have hl : l ≠ [] := by
    rintro rfl
    exact hleaf (congrArg some (Node.form_eq_directory_iff.mpr hroot))
  rw [FileSystem.exists?]
  cases hfind : ({ fs with root := fs.root.remove l } : FileSystem).find path with
  | error e => rfl
  | ok found =>
    obtain ⟨l', n⟩ := found
    obtain ⟨-, slash, hleads, -⟩ := find_eq_ok_iff.mp hfind
    have hsub : ∀ x f, (fs.root.remove l).look x = some f → fs.root.look x = some f :=
      fun _ _ hx => Node.remove_within fs.root l hx
    have hgone : (fs.root.remove l).look l = none := by simp [Node.look_remove _ hl]
    refine absurd hleads.leads (h.leads.gone (fun _ _ => Node.look_parent) hleaf hsub hgone
      fun hsteps => ?_)
    -- Only the root is meant by a path without names.
    rw [start, Path.isAbsolute_of_steps h.allowed.nonempty hsteps, if_pos rfl, Node.look_nil,
      Node.form_eq_directory_iff.mpr hroot]

/-- **Where a path has led to a file or a link that is gone, it leads nowhere.** -/
theorem exists?_after_removeFile (hroot : fs.root.isDirectory = true)
    (h : fs.removeFile path = .ok fs') : fs'.exists? path = false := by
  rw [removeFile] at h
  cases hwalk : fs.walk .entry path with
  | error e => rw [hwalk] at h; cases h
  | ok d =>
    rw [hwalk] at h
    obtain ⟨hleads, hin⟩ := walk_eq_ok_iff.mp hwalk
    cases d with
    | free => cases h
    | node l n slash =>
      have hform : fs.root.look l = some n.form := Node.look_of_at? hin
      cases n with
      | directory => cases h
      | file | link =>
        simp only at h
        split at h
        · cases h
        · rename_i hslash
          split at h <;> cases h
          obtain rfl : slash = false := by simpa using hslash
          exact hleads.exists?_without hroot (by rw [hform]; simp [Node.form])

end FileSystem

end LazyEngine
