/-
What stands in the directory that a path names.

A program joins names to the path of a directory, and the system follows the joined paths. Where the
path leads to a directory, they lead to its entries; the empty path stands for the directory where
relative paths begin, though it leads nowhere itself.

* `FileSystem.Houses` — a path names a directory for what is joined to it;
* `Leads.housed`, `Houses.leads` — the path of an entry leads through that directory, and from there
  to the entry;
* `FileSystem.removeFile_ok`, `FileSystem.write_free` — removing what is no directory, and writing
  to a free name;
* `FileSystem.makeDirectories_tidy_of_stands` — where a path leads to a directory, nothing is made
  for its tidy form;
* **`FileSystem.makeDirectories_added`** — every directory that is made is what the path leads to in
  the end, or one of its ancestors.
-/
import LazyEngine.Proofs.Files.Keeping

namespace LazyEngine

/-! ### Names as paths -/

namespace Path

variable {name : String}

theorem join_empty (name : String) : join "" name = name := by
  simp [join]

theorem IsName.join_ne_empty (h : IsName name) (path : String) : join path name ≠ "" := by
  by_cases hpath : path = ""
  · rw [hpath, join_empty]
    exact h.nonempty
  · exact Path.join_ne_empty name hpath

theorem IsName.isAbsolute_eq (h : IsName name) : isAbsolute name = false := by
  have hhead : name.toList.head? ≠ some '/' := fun hhead =>
    h.no_slash (List.mem_of_mem_head? hhead)
  simpa [isAbsolute] using hhead

theorem IsName.steps_eq (h : IsName name) : steps name = [name] := by
  have hend : endsInSlash name = false := by
    have hlast : name.toList.getLast? ≠ some '/' := fun hlast =>
      h.no_slash (List.mem_of_mem_getLast? hlast)
    simpa [endsInSlash] using hlast
  simp [steps, hend, parts_of_isName h, h.nonempty]

end Path

namespace Walk

variable {look : Location → Option Form} {aim : Aim}

/-- A name is looked up in a directory. -/
theorem Leads.look_parent {n : Nat} {l : Location} {name : String} {s : Spot}
    (hname : Path.IsName name) (h : Leads look aim n l [name] s) : look l = some .directory := by
  cases h with
  | slash => exact absurd rfl hname.nonempty
  | stay | up | free | last | link | enter => assumption

/-- Where nothing can be found at the end of a path, a file can be written there. -/
theorem Leads.file_of_free {n : Nat} {here parent : Location} {steps : List String} {name : String}
    (h : Leads look .entry n here steps (.free parent name false)) :
    Leads look .file n here steps (.free parent name false) := by
  generalize hs : Spot.free parent name false = s at h
  -- A slash at the end would show in the spot.
  have hrest : ∀ {rest : List String} {n : Nat} {here : Location} {s : Spot},
      Spot.free parent name false = s → Leads look .entry n here rest s → rest ≠ [""] := by
    intro rest n here s hs h hslash
    cases h with
    | stop | slash | last => cases hs
    | stay | up => simp at hslash
    | free _ henters | link _ henters | enter _ henters =>
      obtain ⟨hstep, hrest⟩ := List.cons.inj hslash
      exact henters.not_slash hstep hrest
  have henters' : ∀ {step : String} {rest : List String}, Enters .entry step rest → rest ≠ [""] →
      Enters .file step rest := fun h hne =>
    ⟨h.not_slash, h.no_dot, h.no_dots, fun hfile => hne hfile.2, h.short⟩
  induction h with
  | stop | slash | last => cases hs
  | stay hlook _ ih => exact .stay hlook (ih hs)
  | up hlook _ ih => exact .up hlook (ih hs)
  | @free n here step rest hlook henters hfree hend =>
    obtain ⟨-, -, hnil⟩ := Spot.free.inj hs
    obtain rfl : rest = [] := by simpa using hnil.symm
    exact .free hlook (henters' henters (by simp)) hfree hend
  | link hlook henters hlink hend htarget _ ih =>
    exact .link hlook (henters' henters fun hrest => hend ⟨by simp [hrest, isEnd], rfl⟩) hlink
      (by simp) htarget (ih hs)
  | enter hlook henters hsome hno h ih =>
    exact .enter hlook (henters' henters (hrest hs h)) hsome hno (ih hs)

end Walk

namespace FileSystem

variable {fs fs' : FileSystem} {path name : String} {l : Location} {aim : Aim} {s : Spot}

/-! ### Directories that are named -/

/-- A path names the directory at a location for what is joined to it: it leads there, or it is
empty, and relative paths begin there. -/
def Houses (fs : FileSystem) (path : String) (l : Location) : Prop :=
  if path = "" then fs.here = l ∧ fs.root.look l = some .directory
  else ∃ es, fs.find path = .ok (l, .directory es)

theorem houses_of_find {es : List Entry} (h : fs.find path = .ok (l, .directory es)) :
    fs.Houses path l := by
  obtain ⟨-, slash, hleads, -⟩ := find_eq_ok_iff.mp h
  rw [Houses, if_neg hleads.allowed.nonempty]
  exact ⟨es, h⟩

namespace Houses

theorem look (h : fs.Houses path l) : fs.root.look l = some .directory := by
  rw [Houses] at h
  split at h
  · exact h.2
  · obtain ⟨es, hfind⟩ := h
    exact Node.look_of_at? (find_eq_ok_iff.mp hfind).1

theorem unique {l' : Location} (h : fs.Houses path l) (h' : fs.Houses path l') : l = l' := by
  rw [Houses] at h h'
  split at h
  · rw [if_pos ‹_›] at h'
    exact h.1.symm.trans h'.1
  · rw [if_neg ‹_›] at h'
    obtain ⟨es, hfind⟩ := h
    obtain ⟨es', hfind'⟩ := h'
    rw [hfind] at hfind'
    cases hfind'
    rfl

/-- In a larger tree a path names the same directory. -/
theorem of_within (hwithin : fs.Within fs') (h : fs.Houses path l) : fs'.Houses path l := by
  rw [Houses] at h ⊢
  split at h
  · rw [if_pos ‹_›]
    exact ⟨hwithin.here ▸ h.1, hwithin.root h.2⟩
  · rw [if_neg ‹_›]
    obtain ⟨es, hfind⟩ := h
    obtain ⟨n, hfind', hform⟩ := find_mono hwithin.root hwithin.here.symm hfind
    cases n with
    | directory es' => exact ⟨es', hfind'⟩
    | file | link => cases hform

theorem stands (h : fs.Houses path l) : fs.Stands path := by
  rw [Houses] at h
  split at h
  · exact .inl ‹_›
  · obtain ⟨es, hfind⟩ := h
    right
    rw [isDirectory, hfind]
    rfl

/-- The path of an entry leads where the name leads from the directory. -/
theorem leads (h : fs.Houses path l) (haim : aim ≠ .file) (hname : Path.IsName name)
    (hreaches : Path.Reaches path [name])
    (hlast : ∀ n, Walk.Leads fs.root.look aim n l [name] s) :
    fs.Leads aim (Path.join path name) s := by
  rw [Houses] at h
  split at h
  · rename_i hempty
    obtain ⟨rfl, hlook⟩ := h
    have hallowed : Path.Allowed (Path.join path name) := hreaches.allowed
    rw [hempty, Path.join_empty] at hallowed ⊢
    have hstart : fs.start name = fs.here := by
      rw [start, hname.isAbsolute_eq]
      rfl
    refine ⟨hallowed, ?_, ?_⟩
    · simp [hstart, hlook]
    · rw [hstart, hname.steps_eq]
      exact hlast _
  · obtain ⟨es, hfind⟩ := h
    exact Leads.join haim hname hfind hreaches hlast

/-- The path of a directory in the directory leads to it. -/
theorem find_join {sub : List Entry} (h : fs.Houses path l) (hname : Path.IsName name)
    (hat : fs.root.at? (l ++ [name]) = some (.directory sub))
    (hreaches : Path.Reaches path [name]) :
    fs.find (Path.join path name) = .ok (l ++ [name], .directory sub) := by
  refine find_eq_ok_iff.mpr ⟨hat, false, h.leads (by simp) hname hreaches fun n => ?_,
    fun _ => rfl⟩
  exact .of_name (by simp) h.look hname (hreaches.short name (by simp)) (Node.look_of_at? hat)
    (.inr fun target => by simp [Node.form])

end Houses

/-- **The path of an entry leads through the directory that the path before it names.** -/
theorem Leads.housed (hname : Path.IsName name) (h : fs.Leads aim (Path.join path name) s) :
    ∃ l k, fs.Houses path l ∧ Walk.Leads fs.root.look aim k l [name] s := by
  by_cases hpath : path = ""
  · subst hpath
    have hleads := h.leads
    rw [Path.join_empty, start, hname.isAbsolute_eq, hname.steps_eq, if_neg Bool.false_ne_true]
      at hleads
    refine ⟨fs.here, _, ?_, hleads⟩
    rw [Houses, if_pos rfl]
    exact ⟨rfl, hleads.look_parent hname⟩
  · obtain ⟨parent, es, k, hfind, hlast⟩ := h.split hpath hname
    exact ⟨parent, k, houses_of_find hfind, hlast⟩

/-- An entry that is no link is found in the directory that is named. -/
theorem Houses.eq_of_find {spot : Location} {node : Node} (h : fs.Houses path l)
    (hname : Path.IsName name) (hlink : ∀ target, fs.root.look (l ++ [name]) ≠ some (.link target))
    (hfind : fs.find (Path.join path name) = .ok (spot, node)) : spot = l ++ [name] := by
  obtain ⟨-, slash, hleads, -⟩ := find_eq_ok_iff.mp hfind
  obtain ⟨l', k, hhouses, hlast⟩ := hleads.housed hname
  obtain rfl := h.unique hhouses
  exact hlast.name_eq hname (.inr hlink)

/-! ### Removing and writing one entry -/

theorem exists?_of_within (hwithin : fs.Within fs') (h : fs'.exists? path = false) :
    fs.exists? path = false := by
  rw [exists?] at h ⊢
  cases hfind : fs.find path with
  | error e => rfl
  | ok found =>
    obtain ⟨n, hfind', -⟩ := find_mono hwithin.root hwithin.here.symm hfind
    rw [hfind'] at h
    cases h

/-- Removing a file or a link takes away what the path leads to. -/
theorem removeFile_ok (h : fs.removeFile path = .ok fs') :
    ∃ l node, fs.Leads .entry path (.node l false) ∧ fs.root.at? l = some node ∧
      node.isDirectory = false ∧ fs' = fs.lacking l := by
  rw [removeFile] at h
  cases hwalk : fs.walk .entry path with
  | error e => rw [hwalk] at h; cases h
  | ok d =>
    rw [hwalk] at h
    obtain ⟨hleads, hin⟩ := walk_eq_ok_iff.mp hwalk
    cases d with
    | free => cases h
    | node l node slash =>
      cases node with
      | directory => cases h
      | file | link =>
        simp only at h
        split at h
        · cases h
        · rename_i hslash
          split at h <;> cases h
          obtain rfl : slash = false := by simpa using hslash
          exact ⟨l, _, hleads, hin, rfl, rfl⟩

theorem removeFile_within (h : fs.removeFile path = .ok fs') : fs'.Within fs := by
  have hwithin := (removeFile_takesAway fs path).within
  rwa [h] at hwithin

/-- There is nothing below a file or a link that could go with it. -/
theorem look_lacking_leaf {node : Node} {x : Location} (hl : l ≠ [])
    (hat : fs.root.at? l = some node) (hnode : node.isDirectory = false) (hx : x ≠ l) :
    (fs.lacking l).root.look x = fs.root.look x := by
  rw [lacking, Node.look_remove fs.root hl]
  split
  · rename_i hbelow
    obtain ⟨first, rest, rfl⟩ := Location.exists_below hbelow hx
    exact (Node.look_below_leaf hat hnode).symm
  · rfl

/-- A free name can be written to, unless that is refused. -/
theorem write_free {parent : Location} (h : fs.Leads .entry path (.free parent name false))
    (hgranted : fs.refuses .create (parent ++ [name]) = false) (bytes : ByteArray) :
    ∃ fs', fs.write path bytes = .ok fs' := by
  have hfile : fs.Leads .file path (.free parent name false) :=
    ⟨h.allowed, h.begins, h.leads.file_of_free⟩
  have hwalk : fs.walk .file path = .ok (.free parent name false) :=
    walk_eq_ok_iff.mpr ⟨hfile, trivial⟩
  rw [write, hwalk]
  simp only [hgranted, Bool.false_eq_true, if_false]
  exact ⟨_, rfl⟩

/-! ### Directories that are made -/

/-- A path that is not followed is not made a directory, and not for want of one above it. -/
theorem makeFirst_of_not_allowed {above : List String} (hpath : path ≠ "")
    (h : ¬Path.Allowed path) : (fs.makeFirst (path :: above)).2 = fs := by
  have hfault : fs.makeDirectory path = .error .nulInPath ∨
      fs.makeDirectory path = .error .nameTooLong := by
    by_cases hnul : '\x00' ∈ path.toList
    · simp [makeDirectory, walk, hnul]
    · have hlong : Walk.longestPath < path.utf8ByteSize := by
        by_contra hshort
        exact h ⟨hnul, hpath, not_lt.mp hshort⟩
      simp [makeDirectory, walk, hnul, hpath, hlong]
  rcases hfault with hfault | hfault <;> simp [makeFirst, hpath, hfault]

/-- **Where a path stands, nothing is made for the tidy one.** -/
theorem makeDirectories_tidy_of_stands (h : fs.Stands path) :
    (fs.makeDirectories (Path.tidy path)).2 = fs := by
  by_cases hpath : path = ""
  · subst hpath
    rw [makeDirectories_eq_self (.inl (by decide))]
  by_cases htidy : Path.Allowed (Path.tidy path)
  · have hdirectory := h.resolve_left hpath
    have hsame := isDirectory_tidy hpath (allowed_of_isDirectory hdirectory) htidy fs
    rw [makeDirectories_eq_self (.inr (hsame ▸ hdirectory))]
  · rw [makeDirectories, Path.ancestors_eq]
    exact makeFirst_of_not_allowed (Path.tidy_ne_empty hpath) htidy

/-- A directory that has been made is found at the end of the path, and all else is as it was. -/
theorem find_of_makeDirectory (h : fs.makeDirectory path = .ok fs') :
    ∃ l es, fs'.find path = .ok (l, .directory es) ∧
      ∀ x, x ≠ l → fs'.root.look x = fs.root.look x := by
  have hwithin := makeDirectory_within h
  obtain ⟨parent, name, slash, ⟨hallowed, hbegins, hleads⟩, -, rfl⟩ := makeDirectory_ok_iff.mp h
  obtain ⟨hparent, hfree⟩ := hleads.free_parent
  generalize hroot : fs.root.put (.directory []) (parent ++ [name]) = root at hwithin ⊢
  have hput : ∀ x, root.look x
      = if x = parent ++ [name] then some .directory else fs.root.look x := by
    intro x
    rw [← hroot, Node.look_put rfl hparent (by simp [hfree])]
    rfl
  have hnew : root.look (parent ++ [name]) = some .directory := by simp [hput]
  have hsub : ∀ l f, fs.root.look l = some f → root.look l = some f :=
    fun _ _ hl => hwithin.root hl
  obtain ⟨slash', hmade⟩ := hleads.made hsub hnew
  obtain ⟨node, hat, hform⟩ := Option.map_eq_some_iff.mp hnew
  cases node with
  | file | link => cases hform
  | directory es =>
    refine ⟨parent ++ [name], es, find_eq_ok_iff.mpr
      ⟨hat, slash', ⟨hallowed, fun hnone => ?_, hmade⟩, fun _ => rfl⟩,
      fun x hx => by simp [hput, hx]⟩
    exact hbegins (hwithin.root.look_eq_none hnone)

/-- What is new after one directory has been made is what its path leads to. -/
theorem added_of_makeDirectory {x : Location} (h : fs.makeDirectory path = .ok fs')
    (hbefore : fs.root.look x = none) (hafter : fs'.root.look x ≠ none) :
    ∃ es, fs'.find path = .ok (x, .directory es) := by
  obtain ⟨l, es, hfind, hsame⟩ := find_of_makeDirectory h
  obtain rfl : x = l := by
    by_contra hx
    exact hafter ((hsame x hx).trans hbefore)
  exact ⟨es, hfind⟩

theorem makeFirst_added {paths : List String} {x : Location} (hbefore : fs.root.look x = none)
    (hafter : (fs.makeFirst paths).2.root.look x ≠ none) :
    ∃ path ∈ paths, ∃ es, (fs.makeFirst paths).2.find path = .ok (x, .directory es) := by
  induction paths generalizing fs with
  | nil => exact absurd hbefore hafter
  | cons path above ih =>
    rw [makeFirst] at hafter ⊢
    split at hafter
    · exact absurd hbefore hafter
    · rename_i hpath
      rw [if_neg hpath]
      split at hafter
      · rename_i made hmade
        exact ⟨path, List.mem_cons_self, added_of_makeDirectory hmade hbefore hafter⟩
      · -- An ancestor is missing: what is new has come with the ancestors, or with the path itself.
        have habove := ih hbefore
        split at hafter
        · rename_i hfirst
          rw [hfirst] at habove
          obtain ⟨path', hmem, hfind⟩ := habove hafter
          exact ⟨path', List.mem_cons_of_mem path hmem, hfind⟩
        · rename_i between hfirst
          rw [hfirst] at habove
          split at hafter
          · rename_i made hmade
            by_cases hnew : between.root.look x = none
            · exact ⟨path, List.mem_cons_self, added_of_makeDirectory hmade hnew hafter⟩
            · -- The ancestors still lead where they did.
              obtain ⟨path', hmem, es, hfind⟩ := habove hnew
              have hwithin := makeDirectory_within hmade
              have hhouses := (houses_of_find hfind).of_within hwithin
              rw [Houses, if_neg (Route.of_find hfind).nonempty] at hhouses
              exact ⟨path', List.mem_cons_of_mem path hmem, hhouses⟩
          · obtain ⟨path', hmem, hfind⟩ := habove hafter
            exact ⟨path', List.mem_cons_of_mem path hmem, hfind⟩
      · exact absurd hbefore hafter

/-- **Every directory that is made is what the path leads to, or one of its ancestors.** -/
theorem makeDirectories_added {x : Location} (hbefore : fs.root.look x = none)
    (hafter : (fs.makeDirectories path).2.root.look x ≠ none) :
    ∃ above ∈ Path.ancestors path, ∃ es,
      (fs.makeDirectories path).2.find above = .ok (x, .directory es) :=
  makeFirst_added hbefore hafter

end FileSystem

end LazyEngine
