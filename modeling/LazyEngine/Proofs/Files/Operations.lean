/-
What the file operations do to the tree.

* **`FileSystem.write_found`** — what has been written to a path is found there, and nothing else
  has changed;
* **`FileSystem.makeDirectories_within`** — making directories, also if it fails, only adds to the
  tree;
* **`FileSystem.empty_within`**, **`FileSystem.empty_clears`** — emptying a directory only takes
  away, and leaves nothing in it if no removal fails.

Design notes: a removal in a directory may take away links that the paths of later removals go
through, so the paths are compared with the tree as it was in the beginning: where they lead at all,
they lead to the same place.
-/
import LazyEngine.Proofs.Files.Walks

namespace LazyEngine

namespace Node

/-- Putting a leaf in place of another leaf, or of nothing, changes nothing but that location. -/
theorem look_put_leaf {n value : Node} (hleaf : value.entries = []) {l : Location}
    (habove : ∀ parent name, l = parent ++ [name] → n.look parent = some .directory)
    (hfree : n.look l ≠ some .directory) (other : Location) :
    (n.put value l).look other = if other = l then some value.form else n.look other := by
  rcases List.eq_nil_or_concat l with rfl | ⟨parent, name, rfl⟩
  · cases n with
    | directory es => exact absurd rfl hfree
    | file bytes =>
      have hold : (file bytes).entries = [] := rfl
      by_cases h : other = [] <;> simp [put, look_leaf hleaf, look_leaf hold, h]
    | link target =>
      have hold : (link target).entries = [] := rfl
      by_cases h : other = [] <;> simp [put, look_leaf hleaf, look_leaf hold, h]
  · rw [List.concat_eq_append] at hfree ⊢
    exact look_put hleaf (habove parent name List.concat_eq_append) hfree other

end Node

namespace FileSystem

variable {fs fs' : FileSystem} {path : String}

/-- One file system has all that another one has in its tree, and is like it otherwise. -/
structure Within (small large : FileSystem) : Prop where
  root : small.root.Within large.root
  here : small.here = large.here
  refuses : small.refuses = large.refuses

theorem Within.refl (fs : FileSystem) : fs.Within fs := ⟨.refl _, rfl, rfl⟩

theorem Within.trans {a b c : FileSystem} (h : a.Within b) (h' : b.Within c) : a.Within c :=
  ⟨h.root.trans h'.root, h.here.trans h'.here, h.refuses.trans h'.refuses⟩

/-! ### Writing -/

/-- What is written to is the end of the walk, which holds a file or nothing. -/
theorem write_ok {bytes : ByteArray} (h : fs.write path bytes = .ok fs') :
    ∃ d : Destination, fs.walk .file path = .ok d ∧
      (∀ f, fs.root.look d.spot.location = some f → ∃ bytes, f = .file bytes) ∧
      fs' = { fs with root := fs.root.put (.file bytes) d.spot.location } := by
  rw [write] at h
  cases hwalk : fs.walk .file path with
  | error e => rw [hwalk] at h; cases h
  | ok d =>
    obtain ⟨hleads, hin⟩ := walk_eq_ok_iff.mp hwalk
    rw [hwalk] at h
    cases d with
    | free parent name slash =>
      simp only at h
      split at h
      · cases h
      · cases h
        refine ⟨_, rfl, fun f hf => ?_, rfl⟩
        -- The walk ends at a name that is free, or at a file.
        have hfree : fs.root.look (parent ++ [name]) = none := hleads.leads.free_parent.2
        exact absurd (hf.symm.trans hfree) (by simp)
    | node l n slash =>
      cases n with
      | file old =>
        simp only at h
        split at h
        · cases h
        · cases h
          refine ⟨_, rfl, fun f hf => ⟨old, ?_⟩, rfl⟩
          have hfile : fs.root.look l = some (.file old) := Node.look_of_at? hin
          exact Option.some.inj (hf.symm.trans hfile)
      | link | directory => cases h

/-- Above the end of a walk there is a directory. -/
theorem look_above_walk {aim : Aim} {d : Destination} {parent : Location} {name : String}
    (hwalk : fs.walk aim path = .ok d) (hl : d.spot.location = parent ++ [name]) :
    fs.root.look parent = some .directory := by
  obtain ⟨hleads, hin⟩ := walk_eq_ok_iff.mp hwalk
  cases d with
  | free p n slash =>
    obtain ⟨rfl, rfl⟩ : p = parent ∧ n = name := by
      simpa [Destination.spot, Spot.location] using hl
    exact hleads.leads.free_parent.1
  | node l n slash =>
    obtain rfl : l = parent ++ [name] := hl
    have hsome : fs.root.look (parent ++ [name]) ≠ none := by
      rw [Node.look_of_at? hin]
      simp
    exact Node.look_parent hsome

/-- **What has been written is found**, and nothing else has changed. -/
theorem write_found {bytes : ByteArray} (h : fs.write path bytes = .ok fs') :
    ∃ l, fs'.find path = .ok (l, .file bytes) ∧ fs'.refuses = fs.refuses ∧
      ∀ other, other ≠ l → fs'.root.look other = fs.root.look other := by
  obtain ⟨d, hwalk, hold, rfl⟩ := write_ok h
  obtain ⟨⟨hallowed, hbegins, hleads⟩, -⟩ := walk_eq_ok_iff.mp hwalk
  -- The file is put where the walk ends, and the same walk ends there afterwards.
  have hput : ∀ other, (fs.root.put (.file bytes) d.spot.location).look other
      = if other = d.spot.location then some (.file bytes) else fs.root.look other := by
    have hleaf : (Node.file bytes).entries = [] := rfl
    refine Node.look_put_leaf hleaf (fun _ _ => look_above_walk hwalk) fun hdirectory => ?_
    obtain ⟨bytes, h⟩ := hold _ hdirectory
    cases h
  have hnew : (fs.root.put (.file bytes) d.spot.location).look d.spot.location
      = some (.file bytes) := by
    simp [hput]
  have hfound : Walk.Leads (fs.root.put (.file bytes) d.spot.location).look .target
      Walk.linkLimit (fs.start path) (Path.steps path) (.node d.spot.location false) :=
    hleads.fill (fun _ _ => Node.look_parent) hold hnew (fun l hl => by simp [hput, hl])
      (fun hslash => absurd hslash (Path.steps_ne_slash path))
  refine ⟨d.spot.location, find_eq_ok_iff.mpr ⟨?_, false, ⟨hallowed, ?_, hfound⟩, by simp⟩, rfl,
    fun other hother => by simp [hput, hother]⟩
  · exact Node.at?_of_look_file hnew
  · simp only [hput]
    split
    · simp
    · exact hbegins

/-! ### Making directories -/

theorem makeDirectory_within (h : fs.makeDirectory path = .ok fs') : fs.Within fs' := by
  rw [makeDirectory] at h
  cases hwalk : fs.walk .entry path with
  | error e => rw [hwalk] at h; cases h
  | ok d =>
    rw [hwalk] at h
    cases d with
    | node => cases h
    | free parent name slash =>
      simp only at h
      split at h
      · cases h
      · cases h
        refine ⟨fun l f hl => ?_, rfl, rfl⟩
        obtain ⟨hparent, hfree⟩ := (walk_eq_ok_iff.mp hwalk).1.leads.free_parent
        simp only
        rw [Node.look_put rfl hparent (by simp [hfree]), if_neg]
        · exact hl
        · rintro rfl
          rw [hfree] at hl
          cases hl

/-- What making one directory keeps is kept when many are made, whether or not that succeeds. -/
theorem makeFirst_keeps {R : FileSystem → FileSystem → Prop} (refl : ∀ fs, R fs fs)
    (trans : ∀ {a b c}, R a b → R b c → R a c)
    (one : ∀ {fs fs' path}, fs.makeDirectory path = .ok fs' → R fs fs') (fs : FileSystem)
    (paths : List String) : R fs (fs.makeFirst paths).2 := by
  induction paths generalizing fs with
  | nil => exact refl fs
  | cons path above ih =>
    rw [makeFirst]
    split
    · exact refl fs
    · split
      · rename_i h
        exact one h
      · have habove := ih fs
        split
        · rename_i h
          rwa [h] at habove
        · rename_i h
          rw [h] at habove
          split
          · rename_i h
            exact trans habove (one h)
          · exact habove
      · exact refl fs

/-- **Making directories only adds to the tree**, whether or not it succeeds. -/
theorem makeDirectories_within (fs : FileSystem) (path : String) :
    fs.Within (fs.makeDirectories path).2 :=
  makeFirst_keeps .refl .trans makeDirectory_within fs _

/-! ### Removing -/

/-- If an operation succeeds, it has taken away what a path leads to. -/
def TakesAway (fs : FileSystem) (path : String) (r : Except FileError FileSystem) : Prop :=
  ∀ fs', r = .ok fs' → ∃ l slash, fs.Leads .entry path (.node l slash) ∧
    fs' = { fs with root := fs.root.remove l }

theorem removeFile_takesAway (fs : FileSystem) (path : String) :
    fs.TakesAway path (fs.removeFile path) := by
  intro fs' h
  rw [removeFile] at h
  cases hwalk : fs.walk .entry path with
  | error e => rw [hwalk] at h; cases h
  | ok d =>
    rw [hwalk] at h
    have hleads := (walk_eq_ok_iff.mp hwalk).1
    cases d with
    | free => cases h
    | node l n slash =>
      cases n with
      | directory => cases h
      | file | link =>
        simp only at h
        split at h
        · cases h
        · split at h <;> cases h
          exact ⟨l, slash, hleads, rfl⟩

theorem removeDirectory_takesAway (fs : FileSystem) (path : String) :
    fs.TakesAway path (fs.removeDirectory path) := by
  intro fs' h
  rw [removeDirectory] at h
  cases hwalk : fs.walk .entry path with
  | error e => rw [hwalk] at h; cases h
  | ok d =>
    rw [hwalk] at h
    have hleads := (walk_eq_ok_iff.mp hwalk).1
    cases d with
    | free => cases h
    | node l n slash =>
      cases n with
      | file | link => cases h
      | directory =>
        simp only at h
        split at h
        · cases h
        · split at h <;> cases h
          exact ⟨l, slash, hleads, rfl⟩

/-- What an operation of this kind leaves, whether or not it succeeds. -/
theorem TakesAway.within {r : Except FileError FileSystem} (h : fs.TakesAway path r) :
    (r.toOption.getD fs).Within fs := by
  cases hr : r with
  | error e => exact .refl fs
  | ok fs' =>
    obtain ⟨l, slash, -, rfl⟩ := h fs' hr
    exact ⟨Node.remove_within fs.root l, rfl, rfl⟩

theorem TakesAway.of_isOk {r : Except FileError FileSystem} (h : fs.TakesAway path r)
    (hr : r.isOk) : ∃ l slash, fs.Leads .entry path (.node l slash) ∧
      r.toOption.getD fs = { fs with root := fs.root.remove l } := by
  cases hr' : r with
  | error e => rw [hr'] at hr; cases hr
  | ok fs' => exact h fs' hr'

mutual

theorem removeEntry_within (fs : FileSystem) (path : String) :
    (e : Entry) → (fs.removeEntry path e).Within fs
  | .mk name (.directory es) => by
    rw [removeEntry]
    refine (removeDirectory_takesAway _ _).within.trans ?_
    split
    · exact removeEntries_within fs _ es
    · exact .refl fs
  | .mk name (.file _) => by
    rw [removeEntry]
    exact (removeFile_takesAway fs _).within
  | .mk name (.link _) => by
    rw [removeEntry]
    exact (removeFile_takesAway fs _).within

theorem removeEntries_within (fs : FileSystem) (path : String) :
    (es : List Entry) → (fs.removeEntries path es).Within fs
  | [] => by
    rw [removeEntries]
    exact .refl fs
  | e :: es => by
    rw [removeEntries]
    exact (removeEntries_within _ path es).trans (removeEntry_within fs path e)

end

/-- **Emptying a directory only takes away.** -/
theorem empty_within (fs : FileSystem) (path : String) : (fs.empty path).Within fs := by
  rw [empty]
  split
  · exact removeEntries_within fs path _
  · exact .refl fs

/-- Whether an entry of the directory at a path goes when it is removed, with all in it. -/
def removes (fs : FileSystem) (path : String) : Entry → Bool
  | .mk name node =>
    let inner := Path.join path name
    match node with
    | .directory es =>
      let fs := if (fs.entries inner).isOk then fs.removeEntries inner es else fs
      (fs.removeDirectory inner).isOk
    | .file _ => (fs.removeFile inner).isOk
    | .link _ => (fs.removeFile inner).isOk

/-- Whether entries of the directory at a path go when they are removed one after another. -/
def removesAll (fs : FileSystem) (path : String) : List Entry → Bool
  | [] => true
  | e :: es => fs.removes path e && (fs.removeEntry path e).removesAll path es

/-- The directory at a path, which is the one at a location, can be emptied: it can be listed, its
entries have names, and no removal fails. -/
structure Clearable (fs : FileSystem) (path : String) (l : Location) (es : List Entry) : Prop where
  found : fs.find path = .ok (l, .directory es)
  listed : fs.refuses .read l = false
  named : ∀ e ∈ es, Path.IsName e.name
  removed : fs.removesAll path es

/-- A removal that does not fail ends with taking away what the path of the entry leads to. -/
theorem removeEntry_of_removes {e : Entry} (h : fs.removes path e) :
    ∃ fs' : FileSystem, fs'.Within fs ∧ ∃ l slash,
      fs'.Leads .entry (Path.join path e.name) (.node l slash) ∧
      fs.removeEntry path e = { fs' with root := fs'.root.remove l } := by
  obtain ⟨name, node⟩ := e
  rw [removes.eq_def] at h
  rw [removeEntry.eq_def]
  cases node with
  | directory es =>
    set inner := if (fs.entries (Path.join path name)).isOk then
      fs.removeEntries (Path.join path name) es else fs with hinner
    have hwithin : inner.Within fs := by
      rw [hinner]
      split
      · exact removeEntries_within fs _ es
      · exact .refl fs
    exact ⟨inner, hwithin, (removeDirectory_takesAway inner _).of_isOk h⟩
  | file | link => exact ⟨fs, .refl fs, (removeFile_takesAway fs _).of_isOk h⟩

/-- An entry that has been removed from a directory is gone from it. `large` is the tree in which
the path was found to lead to the directory. -/
theorem removeEntry_clears {large : FileSystem} {l : Location} {es : List Entry} {e : Entry}
    (hfound : large.find path = .ok (l, .directory es)) (hwithin : fs.Within large)
    (hname : Path.IsName e.name) (h : fs.removes path e) :
    (fs.removeEntry path e).root.look (l ++ [e.name]) = none := by
  obtain ⟨fs', hfs', gone, slash, hleads, heq⟩ := removeEntry_of_removes h
  have hpath : path ≠ "" := by
    obtain ⟨-, _, hleads, -⟩ := find_eq_ok_iff.mp hfound
    exact hleads.allowed.nonempty
  obtain ⟨parent, es', hgone, hparent⟩ := hleads.parent hpath hname
  -- The path before the name leads where it led in the beginning.
  have hsmall := hfs'.trans hwithin
  obtain ⟨n, hlarge, -⟩ := find_mono hsmall.root hsmall.here.symm hparent
  obtain rfl : l = parent := by
    rw [hfound] at hlarge
    cases hlarge
    rfl
  rw [heq, hgone, Node.look_remove _ (by simp)]
  simp

/-- **Emptying a directory leaves nothing in it**, if no removal fails. -/
theorem empty_clears {l : Location} {es : List Entry} (h : fs.Clearable path l es)
    {rest : Location} (hrest : rest ≠ []) : (fs.empty path).root.look (l ++ rest) = none := by
  have hentries : fs.entries path = .ok es := by
    rw [entries, h.found]
    simp [h.listed]
  have hempty : fs.empty path = fs.removeEntries path es := by
    rw [empty, hentries]
  -- Each of the entries goes when it is its turn, and nothing comes back.
  have hgone : ∀ (todo : List Entry) (small : FileSystem), small.Within fs →
      (∀ e ∈ todo, Path.IsName e.name) → small.removesAll path todo →
      ∀ e ∈ todo, (small.removeEntries path todo).root.look (l ++ [e.name]) = none := by
    intro todo
    induction todo with
    | nil => simp
    | cons first todo ih =>
      intro small hsmall hnamed hremoved e he
      rw [removesAll, Bool.and_eq_true] at hremoved
      rw [removeEntries]
      have hwithin := removeEntry_within small path first
      rcases List.mem_cons.mp he with rfl | he
      · exact (removeEntries_within _ path todo).root.look_eq_none
          (removeEntry_clears h.found hsmall (hnamed e (by simp)) hremoved.1)
      · exact ih _ (hwithin.trans hsmall) (fun e he => hnamed e (by simp [he])) hremoved.2 e he
  obtain ⟨name, rest, rfl⟩ := List.exists_cons_of_ne_nil hrest
  by_contra hsome
  have hentry : (fs.empty path).root.look (l ++ [name]) ≠ none := by
    cases rest with
    | nil => exact hsome
    | cons below rest =>
      have hbelow : (fs.empty path).root.look ((l ++ [name]) ++ below :: rest) ≠ none := by
        simpa using hsome
      rw [Node.look_above hbelow]
      simp
  -- What is there in the end was an entry in the beginning.
  obtain ⟨f, hf⟩ := Option.ne_none_iff_exists'.mp hentry
  have hbefore := (empty_within fs path).root hf
  obtain ⟨hat, -⟩ := find_eq_ok_iff.mp h.found
  rw [Node.look_append, hat, Option.bind_some, Node.look_cons] at hbefore
  obtain ⟨child, hchild, -⟩ := Option.bind_eq_some_iff.mp hbefore
  obtain ⟨e, he, -⟩ := Option.map_eq_some_iff.mp hchild
  obtain rfl : e.name = name := by simpa using List.find?_some he
  refine hentry ?_
  rw [hempty]
  exact hgone es fs (.refl fs) h.named h.removed e (List.mem_of_find?_eq_some he)

end FileSystem

end LazyEngine
