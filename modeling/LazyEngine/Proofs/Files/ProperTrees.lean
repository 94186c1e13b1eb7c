/-
Proper trees stay proper.

In a proper tree entries have names, no two in one directory the same (`Node.isProper`). What the
operations make and take away keeps it so:

* `Entry.areProper_iff` — entries are proper if each of them is, and their names are distinct;
* `Node.isProper_put`, `Node.isProper_remove` — a node put under a name, a node taken away;
* `Walk.Leads.isName_of_free` — a free name at the end of a path can be the name of an entry;
* **`FileSystem.makeDirectories_proper`** — directories are made under such names only.

Design notes: a walk takes its steps from the path and from the targets of links, so that a step
holds no slash is known of both, and carried along behind a link.
-/
import LazyEngine.Proofs.Files.Clearing
import LazyEngine.Proofs.Files.Furnishing

namespace LazyEngine

/-! ### Entries -/

theorem Entry.areProper_iff {es : List Entry} :
    areProper es = true ↔ (∀ e ∈ es, e.isProper = true) ∧ (es.map Entry.name).Nodup := by
  induction es with
  | nil => simp [areProper]
  | cons e es ih =>
    rw [areProper_cons, ih, List.forall_mem_cons, List.map_cons, List.nodup_cons]
    have hnew : e.name ∉ es.map Entry.name ↔ ∀ other ∈ es, other.name ≠ e.name := by simp
    rw [hnew]
    tauto

namespace Node

variable {n value : Node} {name : String}

/-- An entry of a proper tree has a name, and is proper. -/
theorem isProper_of_child? {child : Node} (h : n.isProper = true)
    (hchild : n.child? name = some child) : Path.IsName name ∧ child.isProper = true := by
  cases n with
  | file | link => cases hchild
  | directory es =>
    obtain ⟨e, hfind, rfl⟩ := Option.map_eq_some_iff.mp hchild
    obtain rfl : e.name = name := by simpa using List.find?_some hfind
    exact Entry.isProper_iff.mp (Entry.isProper_of_mem h (List.mem_of_find?_eq_some hfind))

theorem isProper_setChild (h : n.isProper = true) (hname : Path.IsName name)
    (hvalue : value.isProper = true) : (n.setChild name value).isProper = true := by
  cases n with
  | file | link => exact h
  | directory es =>
    obtain ⟨hes, hnames⟩ := Entry.areProper_iff.mp h
    have hentry : (Entry.mk name value).isProper = true := Entry.isProper_iff.mpr ⟨hname, hvalue⟩
    rw [setChild]
    -- The name is there and its entry replaced, or a new entry comes last.
    split
    · refine Entry.areProper_iff.mpr ⟨fun e he => ?_, ?_⟩
      · obtain ⟨old, hold, rfl⟩ := List.mem_map.mp he
        split
        · exact hentry
        · exact hes old hold
      · -- The entry that is replaced has the same name.
        have hsame :
            Entry.name ∘ (fun e => if (e.name == name) = true then Entry.mk name value else e)
              = Entry.name := by
          funext e
          by_cases he : e.name = name <;> simp [he]
        rwa [List.map_map, hsame]
    · rename_i hnew
      have hfresh : name ∉ es.map Entry.name := by simpa using hnew
      refine Entry.areProper_iff.mpr ⟨fun e he => ?_, ?_⟩
      · rcases List.mem_append.mp he with he | he
        · exact hes e he
        · obtain rfl := List.mem_singleton.mp he
          exact hentry
      · rw [List.map_append, List.map_singleton, ← List.concat_eq_append]
        exact hnames.concat hfresh

theorem isProper_put {parent : Location} (h : n.isProper = true) (hname : Path.IsName name)
    (hvalue : value.isProper = true) : (n.put value (parent ++ [name])).isProper = true := by
  induction parent generalizing n with
  | nil => exact isProper_setChild h hname hvalue
  | cons first parent ih =>
    rw [List.cons_append, put_cons n value first (by simp)]
    cases hchild : n.child? first with
    | none => exact h
    | some child =>
      obtain ⟨hfirst, hproper⟩ := isProper_of_child? h hchild
      exact isProper_setChild h hfirst (ih hproper)

theorem isProper_eraseChild (h : n.isProper = true) (name : String) :
    (n.eraseChild name).isProper = true := by
  cases n with
  | file | link => exact h
  | directory es =>
    obtain ⟨hes, hnames⟩ := Entry.areProper_iff.mp h
    exact Entry.areProper_iff.mpr ⟨fun e he => hes e (List.mem_filter.mp he).1,
      hnames.sublist (List.filter_sublist.map Entry.name)⟩

theorem isProper_remove (h : n.isProper = true) (l : Location) : (n.remove l).isProper = true := by
  induction l generalizing n with
  | nil => exact h
  | cons first rest ih =>
    by_cases hrest : rest = []
    · subst hrest
      exact isProper_eraseChild h first
    · rw [remove_cons n first hrest]
      cases hchild : n.child? first with
      | none => exact h
      | some child =>
        obtain ⟨hfirst, hproper⟩ := isProper_of_child? h hchild
        exact isProper_setChild h hfirst (ih hproper)

end Node

/-! ### Names that are free -/

/-- A step that is taken from a text. -/
theorem Path.step_of_mem_names {path step : String} (h : step ∈ names path) :
    step ≠ "" ∧ '/' ∉ step.toList := by
  refine ⟨nonempty_of_mem_names h, ?_⟩
  rw [names_eq] at h
  exact no_slash_of_mem_parts (List.mem_filter.mp h).1

/-- **A free name that a path leads to can be the name of an entry.** -/
theorem Walk.Leads.isName_of_free {look : Location → Option Form} {aim : Aim} {n : Nat}
    {here parent : Location} {names more : List String} {name : String} {slash : Bool}
    (hnames : ∀ step ∈ names, step ≠ "" ∧ '/' ∉ step.toList) (hmore : Path.Idle more)
    (h : Leads look aim n here (names ++ more) (.free parent name slash)) : Path.IsName name := by
  generalize hsteps : names ++ more = steps at h
  generalize hs : Spot.free parent name slash = s at h
  -- By induction on the walk; the free name is one of the names, or of those of a link.
  induction h generalizing names more with
  | stop | slash | last => cases hs
  | stay _ _ ih =>
    rcases cons_eq_append hsteps with ⟨rfl, rfl⟩ | ⟨names', rfl, rfl⟩
    · exact ih hnames hmore.of_dot rfl hs
    · exact ih (fun step hstep => hnames step (List.mem_cons_of_mem _ hstep)) hmore rfl hs
  | up _ _ ih =>
    rcases cons_eq_append hsteps with ⟨rfl, rfl⟩ | ⟨names', rfl, rfl⟩
    · exact absurd hmore Path.Idle.not_up
    · exact ih (fun step hstep => hnames step (List.mem_cons_of_mem _ hstep)) hmore rfl hs
  | free _ henters =>
    rcases cons_eq_append hsteps with ⟨rfl, rfl⟩ | ⟨names', rfl, rfl⟩
    · exact absurd hmore henters.not_idle
    · cases hs
      obtain ⟨hne, hslash⟩ := hnames name List.mem_cons_self
      exact ⟨hne, henters.no_dot, henters.no_dots, hslash⟩
  | @link _ _ _ target _ _ _ henters _ _ _ _ ih =>
    rcases cons_eq_append hsteps with ⟨rfl, rfl⟩ | ⟨names', rfl, rfl⟩
    · exact absurd hmore henters.not_idle
    · obtain ⟨more', hmore', heq, -⟩ := throughLink_append target names' hmore
      exact ih (fun step hstep => (List.mem_append.mp hstep).elim Path.step_of_mem_names
        fun h => hnames step (List.mem_cons_of_mem _ h)) hmore' heq.symm hs
  | enter _ henters _ _ _ ih =>
    rcases cons_eq_append hsteps with ⟨rfl, rfl⟩ | ⟨names', rfl, rfl⟩
    · exact absurd hmore henters.not_idle
    · exact ih (fun step hstep => hnames step (List.mem_cons_of_mem _ hstep)) hmore rfl hs

namespace FileSystem

variable {fs fs' : FileSystem} {path : String}

theorem Leads.isName_of_free {aim : Aim} {parent : Location} {name : String} {slash : Bool}
    (h : fs.Leads aim path (.free parent name slash)) : Path.IsName name := by
  have hleads := h.leads
  rcases Path.steps_eq path with hsteps | hsteps
  · rw [hsteps, ← List.append_nil (Path.names path)] at hleads
    exact hleads.isName_of_free (fun _ => Path.step_of_mem_names) .nil
  · rw [hsteps] at hleads
    exact hleads.isName_of_free (fun _ => Path.step_of_mem_names) .slash

/-! ### Operations -/

theorem makeDirectory_proper (h : fs.makeDirectory path = .ok fs')
    (hproper : fs.root.isProper = true) : fs'.root.isProper = true := by
  obtain ⟨parent, name, slash, hleads, -, rfl⟩ := makeDirectory_ok_iff.mp h
  exact Node.isProper_put hproper hleads.isName_of_free rfl

/-- **A tree stays proper when directories are made**, whether or not that succeeds. -/
theorem makeDirectories_proper (hproper : fs.root.isProper = true) (path : String) :
    (fs.makeDirectories path).2.root.isProper = true :=
  makeFirst_keeps (fun _ h => h) (fun h h' hproper => h' (h hproper))
    (fun h hproper => makeDirectory_proper h hproper) fs _ hproper

end FileSystem

end LazyEngine
