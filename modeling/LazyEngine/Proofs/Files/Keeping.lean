/-
What stays in a directory that is emptied.

Unless its path goes through what is in it, a directory is there to the end, under its path. Then
what is withheld from the removals is known from the beginning:

* `Walk.Leads.append_name`, `FileSystem.walk_join` — where a path leads to a directory, it goes on
  to the entries;
* `FileSystem.FromOutside` — a path leads to a directory whatever is taken out of it; the path of
  its location does (`fromOutside_ofLocation`);
* `FileSystem.Keeps` — what the system keeps: it refuses to remove it, or to list a directory above
  it, or does not follow its path, which is too long;
* **`FileSystem.withholdsAny_iff_keeps`** — on a path from outside, nothing else is withheld;
* **`FileSystem.empty_keeps`** — what emptying a directory removes, what stays, and what it leaves
  alone.

Design notes: a path through the directory itself leads nowhere once what it goes through has been
removed, and from then on every removal is turned down. What such a path leaves is said by
`withheld` only.
-/
import LazyEngine.Proofs.Files.Furnishing
import LazyEngine.Proofs.Files.Survivors

namespace LazyEngine

/-! ### Paths of entries -/

namespace Walk

variable {look : Location → Option Form} {aim : Aim}

/-- A name leads to the entry of that name. -/
theorem Leads.of_name {n : Nat} {parent : Location} {name : String} {f : Form}
    (haim : aim ≠ .file) (hparent : look parent = some .directory) (hname : Path.IsName name)
    (hshort : name.utf8ByteSize ≤ longestName) (hsome : look (parent ++ [name]) = some f)
    (hlink : aim = .entry ∨ ∀ target, f ≠ .link target) :
    Leads look aim n parent [name] (.node (parent ++ [name]) false) := by
  have henters : Enters aim name [] :=
    ⟨fun h _ => hname.nonempty h, hname.no_dot, hname.no_dots, fun h => haim h.1, hshort⟩
  cases f with
  | link target =>
    have hentry : aim = .entry := hlink.resolve_right fun h => h target rfl
    exact .last hparent henters hsome rfl hentry
  | file | directory => exact .enter hparent henters hsome (by simp) .stop

/-- **One more name leads on from a directory.** -/
theorem Leads.append_name {n : Nat} {here : Location} {names more : List String} {name : String}
    {l : Location} {slash : Bool} {s : Spot} (haim : aim ≠ .file) (hname : Path.IsName name)
    (hnames : ∀ step ∈ names, step ≠ "") (hmore : Path.Idle more)
    (hlast : ∀ n, Leads look aim n l [name] s)
    (h : Leads look .target n here (names ++ more) (.node l slash)) :
    Leads look aim n here (names ++ [name]) s := by
  have hnot : ∀ names : List String, ¬isEnd (names ++ [name]) := by
    rintro (_ | ⟨first, names⟩) <;> simp [isEnd, hname.nonempty]
  generalize hsteps : names ++ more = steps at h
  generalize hend : Spot.node l slash = spot at h
  -- By induction on the walk: each of its steps goes along the names, which the longer path has as
  -- well, until what is left is idle; there the walk is at `l`, and the new name is followed.
  induction h generalizing names more with
  | stop =>
    cases hend
    obtain ⟨rfl, rfl⟩ := List.append_eq_nil_iff.mp hsteps
    exact hlast _
  | slash =>
    cases hend
    rcases cons_eq_append hsteps with ⟨rfl, -⟩ | ⟨names', rfl, -⟩
    · exact hlast _
    · exact absurd rfl (hnames "" (by simp))
  | stay hlook _ ih =>
    rcases cons_eq_append hsteps with ⟨rfl, rfl⟩ | ⟨names', rfl, rfl⟩
    · exact ih hnames hmore.of_dot rfl hend
    · exact .stay hlook (ih (fun step hstep => hnames step (by simp [hstep])) hmore rfl hend)
  | up hlook _ ih =>
    rcases cons_eq_append hsteps with ⟨rfl, rfl⟩ | ⟨names', rfl, rfl⟩
    · exact absurd hmore Path.Idle.not_up
    · exact .up hlook (ih (fun step hstep => hnames step (by simp [hstep])) hmore rfl hend)
  | free => cases hend
  | last _ _ _ _ htarget => cases htarget
  | @link n here step target rest s' hlook henters hlink _ hne _ ih =>
    rcases cons_eq_append hsteps with ⟨rfl, rfl⟩ | ⟨names', rfl, rfl⟩
    · exact absurd hmore henters.not_idle
    · -- A link puts its target in the place of its name; what is idle behind it stays behind.
      obtain ⟨tail, htail, heq, -⟩ := throughLink_append target names' hmore
      have hthrough : throughLink target (names' ++ [name])
          = (Path.names target ++ names') ++ [name] := by
        simp [throughLink, Path.names]
      have hbehind := ih (fun step hstep => (List.mem_append.mp hstep).elim
        Path.nonempty_of_mem_names fun h => hnames step (List.mem_cons_of_mem _ h))
        htail heq.symm hend
      rw [← hthrough] at hbehind
      exact .link hlook (henters.of_name haim (hnames step (by simp))) hlink
        (fun h => hnot names' h.1) hne hbehind
  | @enter n here step f rest s' hlook henters hsome hno _ ih =>
    rcases cons_eq_append hsteps with ⟨rfl, rfl⟩ | ⟨names', rfl, rfl⟩
    · exact absurd hmore henters.not_idle
    · exact .enter hlook (henters.of_name haim (hnames step (by simp))) hsome hno
        (ih (fun step hstep => hnames step (by simp [hstep])) hmore rfl hend)

end Walk

/-- The names below the directory at a path that the system follows from there: no path or name is
too long. -/
structure Path.Reaches (path : String) (rest : Location) : Prop where
  allowed : Path.Allowed (rest.foldl Path.join path)
  short : ∀ name ∈ rest, name.utf8ByteSize ≤ Walk.longestName

theorem Path.join_ne_empty {path : String} (name : String) (hpath : path ≠ "") :
    Path.join path name ≠ "" := by
  obtain ⟨before, hjoin, -⟩ := Path.exists_join name hpath
  simp [hjoin]

theorem Path.Allowed.of_foldl {path : String} {rest : Location} (hpath : path ≠ "")
    (h : Path.Allowed (rest.foldl Path.join path)) : Path.Allowed path := by
  induction rest generalizing path with
  | nil => exact h
  | cons name rest ih => exact (ih (Path.join_ne_empty name hpath) h).of_join hpath

theorem Path.reaches_cons {path name : String} {rest : Location} (hpath : path ≠ "") :
    Path.Reaches path (name :: rest)
      ↔ Path.Reaches path [name] ∧ Path.Reaches (Path.join path name) rest := by
  constructor
  · rintro ⟨hallowed, hshort⟩
    refine ⟨⟨?_, by simpa using hshort name (by simp)⟩, hallowed,
      fun other h => hshort other (by simp [h])⟩
    exact Path.Allowed.of_foldl (Path.join_ne_empty name hpath) hallowed
  · rintro ⟨hfirst, hrest⟩
    exact ⟨hrest.allowed, List.forall_mem_cons.mpr ⟨hfirst.short name (by simp), hrest.short⟩⟩

namespace FileSystem

variable {fs fs' : FileSystem} {path name : String} {l x : Location} {e : Entry} {es : List Entry}
  {node : Node}

/-- A path leads to an entry, where it leads to the directory. -/
theorem Leads.join {aim : Aim} {s : Spot} (haim : aim ≠ .file) (hname : Path.IsName name)
    (hfind : fs.find path = .ok (l, .directory es)) (hreaches : Path.Reaches path [name])
    (hlast : ∀ n, Walk.Leads fs.root.look aim n l [name] s) :
    fs.Leads aim (Path.join path name) s := by
  obtain ⟨-, slash, ⟨hallowed, hbegins, hleads⟩, -⟩ := find_eq_ok_iff.mp hfind
  have hstart : fs.start (Path.join path name) = fs.start path := by
    rw [start, start, Path.isAbsolute_join hallowed.nonempty]
  obtain ⟨more, hmore, hsteps⟩ : ∃ more, Path.Idle more ∧
      Path.steps path = Path.names path ++ more := by
    rcases Path.steps_eq path with h | h
    · exact ⟨[], .nil, by rw [h, List.append_nil]⟩
    · exact ⟨[""], .slash, h⟩
  rw [hsteps] at hleads
  refine ⟨hreaches.allowed, hstart ▸ hbegins, ?_⟩
  rw [hstart, Path.steps_join hallowed.nonempty hname]
  exact hleads.append_name haim hname (fun _ hstep => Path.nonempty_of_mem_names hstep) hmore hlast

/-- Where the path of an entry is followed, it leads to it. -/
theorem walk_join (hname : Path.IsName name) (hfind : fs.find path = .ok (l, .directory es))
    (hat : fs.root.at? (l ++ [name]) = some node) :
    fs.walk .entry (Path.join path name) = .ok (.node (l ++ [name]) node false)
      ↔ Path.Reaches path [name] := by
  obtain ⟨hdirectory, -⟩ := find_eq_ok_iff.mp hfind
  constructor
  · intro hwalk
    obtain ⟨hleads, -⟩ := walk_eq_ok_iff.mp hwalk
    obtain ⟨-, -, hshort⟩ := (Route.of_find hfind).entry_eq hname hleads
    exact ⟨hleads.allowed, by simpa using hshort⟩
  · intro hreaches
    refine walk_eq_ok_iff.mpr ⟨Leads.join (by simp) hname hfind hreaches fun n => ?_, hat⟩
    exact .of_name (by simp) (Node.look_of_at? hdirectory) hname (hreaches.short name (by simp))
      (Node.look_of_at? hat) (.inl rfl)

/-- A removal is turned down where it is refused, or where the path is not followed. -/
theorem turnsDown_iff (hname : Path.IsName name) (hfind : fs.find path = .ok (l, .directory es))
    (hat : fs.root.at? (l ++ [name]) = some node) :
    fs.turnsDown (Path.join path name) (l ++ [name]) = true
      ↔ fs.refuses .remove (l ++ [name]) = true ∨ ¬Path.Reaches path [name] := by
  rw [turnsDown]
  rcases (Route.of_find hfind).walk_eq hname hat with hwalk | hwalk
  · have hreaches := (walk_join hname hfind hat).mp hwalk
    rw [hwalk]
    simp [hreaches]
  · have hreaches : ¬Path.Reaches path [name] := fun h =>
      hwalk _ _ _ ((walk_join hname hfind hat).mpr h)
    refine iff_of_true ?_ (.inr hreaches)
    cases hwalk' : fs.walk .entry (Path.join path name) with
    | error e => rfl
    | ok d =>
      cases d with
      | free => rfl
      | node spot n slash => exact absurd hwalk' (hwalk spot n slash)

theorem find_join_directory {sub : List Entry} (hname : Path.IsName name)
    (hfind : fs.find path = .ok (l, .directory es))
    (hat : fs.root.at? (l ++ [name]) = some (.directory sub))
    (hreaches : Path.Reaches path [name]) :
    fs.find (Path.join path name) = .ok (l ++ [name], .directory sub) := by
  obtain ⟨hdirectory, -⟩ := find_eq_ok_iff.mp hfind
  refine find_eq_ok_iff.mpr ⟨hat, false, Leads.join (by simp) hname hfind hreaches fun n => ?_,
    fun _ => rfl⟩
  exact .of_name (by simp) (Node.look_of_at? hdirectory) hname (hreaches.short name (by simp))
    (Node.look_of_at? hat) (.inr fun target => by simp [Node.form])

/-- A directory can be listed where that is not refused, and the path is followed. -/
theorem entries_join_iff {sub : List Entry} (hname : Path.IsName name)
    (hfind : fs.find path = .ok (l, .directory es))
    (hat : fs.root.at? (l ++ [name]) = some (.directory sub)) :
    (fs.entries (Path.join path name)).isOk = true
      ↔ fs.refuses .read (l ++ [name]) = false ∧ Path.Reaches path [name] := by
  by_cases hreaches : Path.Reaches path [name]
  · rw [entries, find_join_directory hname hfind hat hreaches]
    cases hrefused : fs.refuses .read (l ++ [name]) <;>
      simp [hrefused, hreaches, Except.isOk, Except.toBool]
  · refine iff_of_false (fun hok => hreaches ?_) fun h => hreaches h.2
    rw [entries] at hok
    cases hinner : fs.find (Path.join path name) with
    | error e => simp [hinner, Except.isOk, Except.toBool] at hok
    | ok found =>
      obtain ⟨spot, n⟩ := found
      obtain ⟨-, slash, hleads, -⟩ := find_eq_ok_iff.mp hinner
      obtain ⟨spot', slash', hentry⟩ := hleads.leads.entry_of_target
      obtain ⟨-, -, hshort⟩ := (Route.of_find hfind).entry_eq hname
        ⟨hleads.allowed, hleads.begins, hentry⟩
      exact ⟨hleads.allowed, by simpa using hshort⟩

/-! ### Paths from outside -/

/-- A path leads to a directory whatever is taken out of it. -/
def FromOutside (fs : FileSystem) (path : String) (l : Location) : Prop :=
  ∀ fs' : FileSystem, fs'.Depleted fs l → ∃ es, fs'.find path = .ok (l, .directory es)

theorem FromOutside.of_depleted (h : fs.FromOutside path l) (hdepleted : fs'.Depleted fs l) :
    fs'.FromOutside path l :=
  fun fs'' h' => h fs'' (h'.trans hdepleted)

/-- The path of a directory in the directory comes from outside as well. -/
theorem FromOutside.inner {sub : List Entry} (h : fs.FromOutside path l) (hname : Path.IsName name)
    (hat : fs.root.at? (l ++ [name]) = some (.directory sub))
    (hreaches : Path.Reaches path [name]) :
    fs.FromOutside (Path.join path name) (l ++ [name]) := by
  intro fs' hdepleted
  obtain ⟨es, hfind⟩ := h fs' hdepleted.above
  have hlook := hdepleted.outside (l ++ [name]) fun hinside => hinside.2 rfl
  rw [Node.look_of_at? hat] at hlook
  obtain ⟨n, hn, hform⟩ := Option.map_eq_some_iff.mp hlook
  cases n with
  | directory left => exact ⟨left, find_join_directory hname hfind hn hreaches⟩
  | file | link => cases hform

/-- What the system keeps in a directory, said by what it does from the beginning: it refuses to
remove it, or to list a directory above it, or its path is not followed. -/
def Keeps (fs : FileSystem) (path : String) (l rest : Location) : Prop :=
  fs.refuses .remove (l ++ rest) = true ∨
    (∃ above below, rest = above ++ below ∧ below ≠ [] ∧ fs.refuses .read (l ++ above) = true) ∨
    ¬Path.Reaches path rest

theorem keeps_of_within (hwithin : fs'.Within fs) {rest : Location} :
    fs'.Keeps path l rest ↔ fs.Keeps path l rest := by
  rw [Keeps, Keeps, hwithin.refuses]

/-- In a directory that can be listed, an entry is kept if its path is not followed, and otherwise
for what holds in the entry. -/
theorem keeps_cons {rest : Location} (hpath : path ≠ "") (hlisted : fs.refuses .read l = false) :
    fs.Keeps path l (name :: rest) ↔
      ¬Path.Reaches path [name] ∨ fs.Keeps (Path.join path name) (l ++ [name]) rest := by
  have hassoc : ∀ more, l ++ name :: more = l ++ [name] ++ more := by simp
  rw [Keeps, Keeps, Path.reaches_cons hpath, hassoc]
  constructor
  · rintro (hremove | ⟨above, below, hrest, hbelow, hread⟩ | hreaches)
    · exact .inr (.inl hremove)
    · -- No directory above the entry but the one listed can be `l` itself.
      cases above with
      | nil =>
        rw [List.append_nil, hlisted] at hread
        cases hread
      | cons first above =>
        obtain ⟨rfl, rfl⟩ := List.cons.inj hrest
        rw [hassoc] at hread
        exact .inr (.inr (.inl ⟨above, below, rfl, hbelow, hread⟩))
    · rcases not_and_or.mp hreaches with hfirst | hrest
      · exact .inl hfirst
      · exact .inr (.inr (.inr hrest))
  · rintro (hfirst | hremove | ⟨above, below, rfl, hbelow, hread⟩ | hrest)
    · exact .inr (.inr fun h => hfirst h.1)
    · exact .inl hremove
    · rw [← hassoc] at hread
      exact .inr (.inl ⟨name :: above, below, rfl, hbelow, hread⟩)
    · exact .inr (.inr fun h => hrest h.2)

theorem keeps_entry (hpath : path ≠ "") (hlisted : fs.refuses .read l = false) :
    fs.Keeps path l [name]
      ↔ fs.refuses .remove (l ++ [name]) = true ∨ ¬Path.Reaches path [name] := by
  rw [keeps_cons hpath hlisted, Keeps, List.append_nil]
  constructor
  · rintro (hreaches | hremove | ⟨above, below, hnil, hbelow, -⟩ | hreaches)
    · exact .inr hreaches
    · exact .inl hremove
    · exact absurd (List.append_eq_nil_iff.mp hnil.symm).2 hbelow
    · exact .inr fun h => hreaches ⟨h.allowed, List.forall_mem_nil _⟩
  · rintro (hremove | hreaches)
    · exact .inr (.inl hremove)
    · exact .inl hreaches

theorem turnsDown_iff_keeps (h : fs.FromOutside path l) (hlisted : fs.refuses .read l = false)
    (hname : Path.IsName name) (hat : fs.root.at? (l ++ [name]) = some node) :
    fs.turnsDown (Path.join path name) (l ++ [name]) = true ↔ fs.Keeps path l [name] := by
  obtain ⟨es, hfind⟩ := h fs (.refl fs l)
  rw [turnsDown_iff hname hfind hat, keeps_entry (Route.of_find hfind).nonempty hlisted]

theorem Faces.leaf_withholds {rest : Location} (h : Faces fs path l es)
    (he : Entry.mk name node ∈ es) (hnode : node.isDirectory = false)
    (houtside : fs.FromOutside path l) (hlisted : fs.refuses .read l = false)
    (hsome : fs.root.look (l ++ name :: rest) ≠ none) :
    (l ++ name :: rest == l ++ [name] && fs.turnsDown (Path.join path name) (l ++ [name])) = true
      ↔ fs.Keeps path l (name :: rest) := by
  have hat : fs.root.at? (l ++ [name]) = some node := h.there _ he
  -- There is nothing below a file or a link.
  obtain rfl : rest = [] := by
    cases rest with
    | nil => rfl
    | cons below rest =>
      rw [List.append_cons l name (below :: rest)] at hsome
      exact absurd (Node.look_below_leaf hat hnode) hsome
  rw [beq_self_eq_true, Bool.true_and]
  exact turnsDown_iff_keeps houtside hlisted (h.isName he) hat

/-- Whether a directory itself is withheld: its entries are of no concern. -/
theorem Faces.directory_withholds {sub : List Entry} (h : Faces fs path l es)
    (he : Entry.mk name (.directory sub) ∈ es) (houtside : fs.FromOutside path l)
    (hlisted : fs.refuses .read l = false) :
    fs.withholds path l (l ++ [name]) (.mk name (.directory sub)) = true
      ↔ fs.Keeps path l [name] := by
  -- What is withheld inside lies below the directory, and so is not the directory.
  have hinside : (if (fs.entries (Path.join path name)).isOk then
      fs.withholdsAny (Path.join path name) (l ++ [name]) (l ++ [name]) sub
      else (l ++ [name]).isPrefixOf (l ++ [name]) && l ++ [name] != l ++ [name]) = false := by
    split
    · rw [Bool.eq_false_iff]
      intro hany
      obtain ⟨e, -, hbelow⟩ := prefix_of_withholdsAny sub hany
      have hlength := hbelow.length_le
      simp at hlength
    · simp
  -- The directory is removed after its entries, by a path that still leads to it.
  have hdepleted : (fs.emptied (Path.join path name) sub).Depleted fs l := by
    rw [emptied]
    split
    · exact (h.inner he).depleted.above
    · exact .refl fs l
  have hlisted' : (fs.emptied (Path.join path name) sub).refuses .read l = false := by
    rw [hdepleted.within.refuses, hlisted]
  have hname : Path.IsName name := h.isName he
  obtain ⟨left, hleft⟩ := h.emptied_at? he
  rw [withholds, hinside, Bool.or_false, beq_self_eq_true, Bool.true_and,
    turnsDown_iff_keeps (houtside.of_depleted hdepleted) hlisted' hname hleft,
    keeps_of_within hdepleted.within]

mutual

theorem withholds_iff_keeps {fs : FileSystem} {path : String} {l rest : Location} : (e : Entry) →
    Faces fs path l [e] → fs.FromOutside path l → fs.refuses .read l = false →
    fs.root.look (l ++ e.name :: rest) ≠ none →
    (fs.withholds path l (l ++ e.name :: rest) e = true ↔ fs.Keeps path l (e.name :: rest))
  | .mk _ (.file _), h, houtside, hlisted, hsome => by
    rw [withholds]
    exact h.leaf_withholds (List.mem_singleton_self _) rfl houtside hlisted hsome
  | .mk _ (.link _), h, houtside, hlisted, hsome => by
    rw [withholds]
    exact h.leaf_withholds (List.mem_singleton_self _) rfl houtside hlisted hsome
  | .mk name (.directory sub), h, houtside, hlisted, hsome => by
    have he := List.mem_singleton_self (Entry.mk name (.directory sub))
    have hname : Path.IsName name := h.isName he
    have hat : fs.root.at? (l ++ [name]) = some (.directory sub) := h.there _ he
    obtain ⟨es, hfind⟩ := houtside fs (.refl fs l)
    have hlist := entries_join_iff hname hfind hat
    rw [Entry.name_mk] at hsome ⊢
    cases rest with
    | nil => exact h.directory_withholds he houtside hlisted
    | cons below rest =>
      rw [withholds]
      have hassoc : l ++ name :: below :: rest = l ++ [name] ++ below :: rest := by simp
      have hspot : (l ++ name :: below :: rest == l ++ [name]) = false := by simp
      rw [hspot, Bool.false_and, Bool.false_or, keeps_cons (Route.of_find hfind).nonempty hlisted]
      -- The entry lies below: it depends on whether the directory can be listed.
      split
      · rename_i hok
        obtain ⟨hread, hreaches⟩ := hlist.mp hok
        rw [hassoc] at hsome ⊢
        rw [withholdsAny_iff_keeps sub (h.inner he) (houtside.inner hname hat hreaches) hread
          (Node.exists_entry hat hsome) hsome]
        simp [hreaches]
      · rename_i hok
        have hbegin : (l ++ [name]).isPrefixOf (l ++ name :: below :: rest) = true :=
          List.isPrefixOf_iff_prefix.mpr (hassoc ▸ List.prefix_append _ _)
        -- It cannot be listed: listing is refused, or its path is not followed.
        refine iff_of_true (by simp [hbegin]) ?_
        by_cases hreaches : Path.Reaches path [name]
        · have hread : fs.refuses .read (l ++ [name]) = true := by
            by_contra hread
            exact hok (hlist.mpr ⟨by simpa using hread, hreaches⟩)
          exact .inr (.inr (.inl ⟨[], below :: rest, rfl, by simp, by simpa using hread⟩))
        · exact .inl hreaches

/-- **On a path from outside**, what is withheld is what the system keeps. -/
theorem withholdsAny_iff_keeps {fs : FileSystem} {path name : String} {l rest : Location} :
    (es : List Entry) → Faces fs path l es → fs.FromOutside path l → fs.refuses .read l = false →
    (∃ e ∈ es, e.name = name) → fs.root.look (l ++ name :: rest) ≠ none →
    (fs.withholdsAny path l (l ++ name :: rest) es = true ↔ fs.Keeps path l (name :: rest))
  | [], _, _, _, hmem, _ => by
    obtain ⟨e, he, -⟩ := hmem
    cases he
  | e :: es, h, houtside, hlisted, hmem, hsome => by
    rw [withholdsAny]
    -- Names differ, so that one entry decides: the first, or one of those behind it, which the
    -- removal of the first leaves as they were.
    by_cases hfirst : e.name = name
    · subst hfirst
      have hothers : (fs.removeEntry path e).withholdsAny path l (l ++ e.name :: rest) es = false :=
        not_withholdsAny h (by simp)
      rw [hothers, Bool.or_false]
      exact withholds_iff_keeps e h.head houtside hlisted hsome
    · obtain ⟨e', he', rfl⟩ := hmem
      have hrest : e' ∈ es := by
        rcases List.mem_cons.mp he' with rfl | hrest
        · exact absurd rfl hfirst
        · exact hrest
      have hnot : fs.withholds path l (l ++ e'.name :: rest) e = false :=
        not_withholds h hrest (by simp)
      have hapart : Apart l [e] (l ++ e'.name :: rest) := h.apart_head hrest (by simp)
      have hwithin := h.depleted_head.within
      rw [hnot, Bool.false_or, withholdsAny_iff_keeps es h.next
        (houtside.of_depleted h.depleted_head) (by rw [hwithin.refuses, hlisted])
        ⟨e', hrest, rfl⟩ (by rwa [Node.look, removeEntry_apart e h.head hapart]),
        keeps_of_within hwithin]

end

end FileSystem

/-! ### The path of a location -/

namespace Path

/-- The path that names the way to a location from the root. -/
def ofLocation (l : Location) : String :=
  "/" ++ "/".intercalate l

theorem isAbsolute_ofLocation (l : Location) : isAbsolute (ofLocation l) = true := by
  simp [isAbsolute, ofLocation]

theorem names_ofLocation {l : Location} (h : ∀ name ∈ l, IsName name) :
    names (ofLocation l) = l := by
  rw [names_eq, ofLocation, parts_slash]
  by_cases hl : l = []
  · subst hl
    decide
  · rw [parts_intercalate hl fun name hname => (h name hname).no_slash,
      List.filter_cons_of_neg (by simp), List.filter_eq_self]
    exact fun name hname => by simpa using (h name hname).nonempty

end Path

/-- In a proper tree, locations are made of names. -/
theorem Node.isName_of_look {n : Node} (h : n.isProper = true) {l : Location}
    (hsome : n.look l ≠ none) : ∀ name ∈ l, Path.IsName name := by
  induction l generalizing n with
  | nil => exact List.forall_mem_nil _
  | cons first l ih =>
    rw [look_cons] at hsome
    cases hchild : n.child? first with
    | none => simp [hchild] at hsome
    | some child =>
      rw [hchild, Option.bind_some] at hsome
      have hat : n.at? [first] = some child := by simp [at?, hchild]
      refine List.forall_mem_cons.mpr ⟨?_, ih (isProper_of_at? h hat) hsome⟩
      cases n with
      | file | link => cases hchild
      | directory es =>
        obtain ⟨e, hfind, -⟩ := Option.map_eq_some_iff.mp hchild
        have hname : e.name = first := by simpa using List.find?_some hfind
        rw [← hname]
        exact (Entry.isProper_iff.mp
          (Entry.isProper_of_mem h (List.mem_of_find?_eq_some hfind))).1

/-- Somewhere below, every node comes to an end. -/
theorem Node.exists_end : (n : Node) →
    ∃ rest, n.look rest ≠ none ∧ ∀ name, n.look (rest ++ [name]) = none
  | .file _ => ⟨[], by simp [look_nil], fun _ => rfl⟩
  | .link _ => ⟨[], by simp [look_nil], fun _ => rfl⟩
  | .directory [] => ⟨[], by simp [look_nil], fun _ => rfl⟩
  | .directory (.mk name node :: es) => by
    obtain ⟨rest, hrest, hend⟩ := exists_end node
    have hchild : (Node.directory (.mk name node :: es)).child? name = some node := by
      simp [child?, entries]
    refine ⟨name :: rest, ?_, fun other => ?_⟩
    · rwa [look_cons, hchild, Option.bind_some]
    · rw [List.cons_append, look_cons, hchild, Option.bind_some]
      exact hend other

/-- The names of a location lead to it. -/
theorem Walk.Leads.of_location {n : Node} {links : Nat} {here l : Location} {mark : List String}
    (hmark : mark = [] ∨ mark = [""]) (hname : ∀ name ∈ l, Path.IsName name)
    (hshort : ∀ name ∈ l, name.utf8ByteSize ≤ Walk.longestName)
    (hdirectory : n.look (here ++ l) = some .directory) :
    ∃ slash, Walk.Leads n.look .target links here (l ++ mark) (.node (here ++ l) slash) := by
  -- By induction on the location: each of its names leads into a directory on the way.
  induction l generalizing here with
  | nil =>
    rw [List.append_nil]
    rcases hmark with rfl | rfl
    · exact ⟨false, .stop⟩
    · exact ⟨true, .slash⟩
  | cons name l ih =>
    have hhere : n.look here = some .directory := Node.look_above (by rw [hdirectory]; simp)
    rw [List.append_cons] at hdirectory ⊢
    obtain ⟨slash, hleads⟩ := ih (fun other h => hname other (by simp [h]))
      (fun other h => hshort other (by simp [h])) hdirectory
    have hentry : n.look (here ++ [name]) = some .directory := by
      cases l with
      | nil => simpa using hdirectory
      | cons below l => exact Node.look_above (by rw [hdirectory]; simp)
    have hfirst := hname name (by simp)
    have henters : Walk.Enters .target name (l ++ mark) :=
      ⟨fun h _ => hfirst.nonempty h, hfirst.no_dot, hfirst.no_dots, by simp,
        hshort name (by simp)⟩
    exact ⟨slash, .enter hhere henters hentry (by simp) hleads⟩

namespace FileSystem

variable {fs : FileSystem} {path : String} {l : Location} {es : List Entry}

/-- **The path of a directory's location comes from outside.** -/
theorem fromOutside_ofLocation (h : fs.root.isProper = true)
    (hat : fs.root.at? l = some (.directory es)) (hallowed : Path.Allowed (Path.ofLocation l))
    (hshort : ∀ name ∈ l, name.utf8ByteSize ≤ Walk.longestName) :
    fs.FromOutside (Path.ofLocation l) l := by
  intro fs' hdepleted
  -- What is taken out of the directory leaves every directory on the way, and so each step of the
  -- walk from the root.
  have hlook : fs'.root.look l = some .directory := by
    rw [hdepleted.outside l fun hinside => hinside.2 rfl, Node.look_of_at? hat]
    rfl
  have hname : ∀ name ∈ l, Path.IsName name :=
    Node.isName_of_look h (by rw [Node.look_of_at? hat]; simp)
  obtain ⟨mark, hmark, hsteps⟩ : ∃ mark, (mark = [] ∨ mark = [""]) ∧
      Path.steps (Path.ofLocation l) = l ++ mark := by
    have hnames := Path.names_ofLocation hname
    rcases Path.steps_eq (Path.ofLocation l) with hsteps | hsteps
    · exact ⟨[], .inl rfl, by rw [hsteps, hnames, List.append_nil]⟩
    · exact ⟨[""], .inr rfl, by rw [hsteps, hnames]⟩
  have hstart : fs'.start (Path.ofLocation l) = [] := by
    rw [start, Path.isAbsolute_ofLocation]
    rfl
  obtain ⟨slash, hleads⟩ : ∃ slash, Walk.Leads fs'.root.look .target Walk.linkLimit []
      (l ++ mark) (.node l slash) :=
    Walk.Leads.of_location hmark hname hshort hlook
  obtain ⟨n, hn, hform⟩ := Option.map_eq_some_iff.mp hlook
  cases n with
  | file | link => cases hform
  | directory left =>
    refine ⟨left, find_eq_ok_iff.mpr ⟨hn, slash, ⟨hallowed, ?_, ?_⟩, fun _ => rfl⟩⟩
    · simp [hstart, Node.look_nil]
    · rw [hstart, hsteps]
      exact hleads

/-! ### Emptying a directory -/

/-- Where nothing is withheld, nothing survives. -/
theorem at?_of_nothing_withheld {after : FileSystem} {withheld : Location → Bool}
    (hdirectory : after.root.look l = some .directory)
    (hsurvives : ∀ rest, rest ≠ [] → after.root.look (l ++ rest) ≠ none →
      after.Survives (withheld (l ++ rest)) (l ++ rest))
    (hnone : ∀ rest, rest ≠ [] → after.root.look (l ++ rest) ≠ none →
      withheld (l ++ rest) = false) :
    after.root.at? l = some (.directory []) := by
  obtain ⟨n, hn, hform⟩ := Option.map_eq_some_iff.mp hdirectory
  cases n with
  | file | link => cases hform
  | directory left =>
    cases left with
    | nil => exact hn
    | cons first left =>
      -- what the first entry ends with would have been withheld
      have hfirst := Node.look_first hn
      obtain ⟨child, hchild⟩ := Option.ne_none_iff_exists'.mp (Node.look_eq_none_iff.not.mp hfirst)
      obtain ⟨rest, hsome, hend⟩ := child.exists_end
      have hlook : ∀ more, after.root.look (l ++ first.name :: more) = child.look more := by
        intro more
        rw [List.append_cons, Node.look_append, hchild, Option.bind_some]
      have hthere : after.root.look (l ++ first.name :: rest) ≠ none := by rwa [hlook]
      rcases (hsurvives (first.name :: rest) (by simp) hthere).mp hthere with
        hwithheld | ⟨name, hbelow⟩
      · rw [hnone (first.name :: rest) (by simp) hthere] at hwithheld
        cases hwithheld
      · rw [List.append_assoc, List.cons_append, hlook, hend name] at hbelow
        exact absurd rfl hbelow

/-- Where a path leads to no directory, there is nothing to empty. -/
theorem empty_eq_self (h : ∀ l es, fs.find path ≠ .ok (l, .directory es)) : fs.empty path = fs := by
  rw [empty, entries]
  cases hfind : fs.find path with
  | error e => rfl
  | ok found =>
    obtain ⟨l, n⟩ := found
    cases n with
    | directory es => exact absurd hfind (h l es)
    | file | link => rfl

/-- Emptying a directory takes away some of what is in it. -/
theorem empty_depleted (h : fs.root.isProper = true)
    (hfind : fs.find path = .ok (l, .directory es)) :
    (fs.empty path).Depleted fs l := by
  rw [empty, entries, hfind]
  by_cases hread : fs.refuses .read l = true
  · simp only [hread, if_true]
    exact .refl fs l
  · simp only [hread, Bool.false_eq_true, if_false]
    exact (Faces.of_find h hfind).depleted

theorem withheld_eq (hfind : fs.find path = .ok (l, .directory es)) (x : Location) :
    fs.withheld path x
      = if fs.refuses .read l then l.isPrefixOf x && x != l else fs.withholdsAny path l x es := by
  rw [withheld, hfind]

theorem empty_of_find (hfind : fs.find path = .ok (l, .directory es)) :
    fs.empty path = if fs.refuses .read l then fs else fs.removeEntries path es := by
  rw [empty, entries, hfind]
  by_cases hread : fs.refuses .read l = true <;> simp [hread]

/-- Of what is in the directory an entry survives exactly if it is withheld, or if something in it
survives. -/
theorem empty_survives (h : fs.root.isProper = true)
    (hfind : fs.find path = .ok (l, .directory es)) {rest : Location} (hrest : rest ≠ [])
    (hsome : fs.root.look (l ++ rest) ≠ none) :
    (fs.empty path).Survives (fs.withheld path (l ++ rest)) (l ++ rest) := by
  obtain ⟨hat, -⟩ := find_eq_ok_iff.mp hfind
  rw [withheld_eq hfind, empty_of_find hfind]
  split
  · -- a directory that cannot be listed stays as it is
    refine iff_of_true hsome (.inl ?_)
    simp [List.isPrefixOf_iff_prefix, hrest]
  · obtain ⟨name, rest, rfl⟩ := List.exists_cons_of_ne_nil hrest
    obtain ⟨e, he, rfl⟩ := Node.exists_entry hat hsome
    exact survives_entries es (Faces.of_find h hfind) ⟨e, he, by simp⟩ hsome

theorem empty_of_nothing_withheld (h : fs.root.isProper = true)
    (hfind : fs.find path = .ok (l, .directory es))
    (hnone : ∀ rest, rest ≠ [] → fs.root.look (l ++ rest) ≠ none →
      fs.withheld path (l ++ rest) = false) :
    (fs.empty path).root.at? l = some (.directory []) := by
  obtain ⟨hat, -⟩ := find_eq_ok_iff.mp hfind
  have hdepleted := empty_depleted h hfind
  have hdirectory : (fs.empty path).root.look l = some .directory := by
    rw [hdepleted.outside l fun hinside => hinside.2 rfl, Node.look_of_at? hat]
    rfl
  -- what is there afterwards was there before
  have hthere (rest : Location) (hsome : (fs.empty path).root.look (l ++ rest) ≠ none) :
      fs.root.look (l ++ rest) ≠ none := fun hgone =>
    hsome (hdepleted.within.root.look_eq_none hgone)
  exact at?_of_nothing_withheld hdirectory
    (fun rest hrest hsome => empty_survives h hfind hrest (hthere rest hsome))
    (fun rest hrest hsome => hnone rest hrest (hthere rest hsome))

theorem withheld_iff_keeps (h : fs.root.isProper = true)
    (hfind : fs.find path = .ok (l, .directory es)) (houtside : fs.FromOutside path l)
    {rest : Location} (hrest : rest ≠ []) (hsome : fs.root.look (l ++ rest) ≠ none) :
    fs.withheld path (l ++ rest) = true ↔ fs.Keeps path l rest := by
  obtain ⟨hat, -⟩ := find_eq_ok_iff.mp hfind
  rw [withheld_eq hfind]
  cases hlisted : fs.refuses .read l with
  | true =>
    -- all that is in a directory that cannot be listed is kept
    refine iff_of_true ?_ (.inr (.inl ⟨[], rest, rfl, hrest, by simpa using hlisted⟩))
    simp [List.isPrefixOf_iff_prefix, hrest]
  | false =>
    obtain ⟨name, rest, rfl⟩ := List.exists_cons_of_ne_nil hrest
    exact withholdsAny_iff_keeps es (Faces.of_find h hfind) houtside hlisted
      (Node.exists_entry hat hsome) hsome

/-- **On a path from outside a directory becomes empty if the system keeps nothing in it.** -/
theorem empty_of_nothing_kept (h : fs.root.isProper = true) (houtside : fs.FromOutside path l)
    (hnone : ∀ rest, rest ≠ [] → fs.root.look (l ++ rest) ≠ none → ¬fs.Keeps path l rest) :
    (fs.empty path).root.at? l = some (.directory []) := by
  obtain ⟨es, hfind⟩ := houtside fs (.refl fs l)
  refine empty_of_nothing_withheld h hfind fun rest hrest hsome => ?_
  rw [Bool.eq_false_iff, Ne, withheld_iff_keeps h hfind houtside hrest hsome]
  exact hnone rest hrest hsome

/-- **Emptying a directory removes what is not withheld, and nothing else.** Where a path leads to
no directory, nothing changes. Where it does, the removals come to an end, whatever links there are.
The directory stays, and all that is not in it is as it was. Of what is in it, an entry survives
exactly if it is withheld or something in it survives; so if nothing is withheld, the directory is
empty. On a path from outside, as the path of its location is (`fromOutside_ofLocation`), what is
withheld is what the system keeps: what it refuses to remove, what is in a directory that it refuses
to list, and what has too long a path. -/
theorem empty_keeps (h : fs.root.isProper = true) (path : String) :
    ((∀ l es, fs.find path ≠ .ok (l, .directory es)) → fs.empty path = fs) ∧
    ∀ l es, fs.find path = .ok (l, .directory es) →
      let after := fs.empty path
      (∀ listed, fs.entries path = .ok listed →
        ∀ fs', Sweeps fs path listed fs' ↔ fs' = after) ∧
      (∀ x, ¬(l <+: x ∧ x ≠ l) → after.root.look x = fs.root.look x) ∧
      (∀ rest, after.root.look (l ++ rest) = none ∨
        after.root.look (l ++ rest) = fs.root.look (l ++ rest)) ∧
      (∀ rest, rest ≠ [] → fs.root.look (l ++ rest) ≠ none →
        (after.root.look (l ++ rest) ≠ none ↔ fs.withheld path (l ++ rest) = true ∨
          ∃ name, after.root.look (l ++ rest ++ [name]) ≠ none)) ∧
      ((∀ rest, rest ≠ [] → fs.root.look (l ++ rest) ≠ none →
        fs.withheld path (l ++ rest) = false) → after.root.at? l = some (.directory [])) ∧
      (fs.FromOutside path l → ∀ rest, rest ≠ [] → fs.root.look (l ++ rest) ≠ none →
        (fs.withheld path (l ++ rest) = true ↔ fs.Keeps path l rest)) := by
  refine ⟨empty_eq_self, fun l es hfind => ?_⟩
  intro after
  have hdepleted : after.Depleted fs l := empty_depleted h hfind
  refine ⟨fun listed hlisted fs' => ?sweeps, hdepleted.outside, fun rest => ?inside,
    fun rest hrest hsome => ?survives, fun hnone => ?emptied,
    fun houtside rest hrest hsome => ?kept⟩
  case sweeps =>
    -- listing the directories in turn removes the same entries as listing each of them at once
    exact sweeps_iff h hlisted
  case inside =>
    cases hlook : after.root.look (l ++ rest) with
    | none => exact .inl rfl
    | some f => exact .inr (hdepleted.within.root hlook).symm
  case survives => exact empty_survives h hfind hrest hsome
  case emptied => exact empty_of_nothing_withheld h hfind hnone
  case kept =>
    -- the path leads to the directory whatever is removed in it, so that each removal is refused
    -- or carried out as it would have been at the beginning
    exact withheld_iff_keeps h hfind houtside hrest hsome

/-- A directory with links out of it and back to where it is, and a file that cannot be removed. -/
def lockedFiles : FileSystem where
  root := .directory
    [.mk "data" (.directory
      [.mk "cache" (.directory [.mk "page" (.file .empty), .mk "lock" (.file .empty)]),
        .mk "out" (.link "/other"), .mk "back" (.link "..")]),
      .mk "other" (.directory [.mk "kept" (.file .empty)])]
  refuses access l := access == .remove && l == ["data", "cache", "lock"]

/-- The locked file survives, and so does the directory in which it is. The page beside it and the
link go, and what the link leads to stays. -/
theorem empty_keeps_lock :
    let after := lockedFiles.empty "/data"
    after.root.look ["data", "cache", "lock"] ≠ none ∧
      after.root.look ["data", "cache"] ≠ none ∧
      after.root.look ["data", "cache", "page"] = none ∧ after.root.look ["data", "out"] = none ∧
      after.root.look ["other", "kept"] = some (.file .empty) := by
  intro after
  have hproper : lockedFiles.root.isProper = true := by decide +kernel
  obtain ⟨es, hat⟩ : ∃ es, lockedFiles.root.at? ["data"] = some (.directory es) := ⟨_, rfl⟩
  have houtside : lockedFiles.FromOutside "/data" ["data"] :=
    fromOutside_ofLocation hproper hat ⟨by decide, by decide, by decide⟩ (by decide)
  obtain ⟨es, hfind⟩ := houtside lockedFiles (.refl _ _)
  obtain ⟨-, houtsideSame, hsame, hsurvives, -, hkeeps⟩ :=
    (empty_keeps hproper "/data").2 ["data"] es hfind
  have hlock : after.root.look (["data"] ++ ["cache", "lock"]) ≠ none :=
    (hsurvives ["cache", "lock"] (by simp) (by decide +kernel)).mpr
      (.inl ((hkeeps houtside _ (by simp) (by decide +kernel)).mpr (.inl rfl)))
  -- Whatever is neither the locked file nor has something in it goes.
  have hgone : ∀ rest, rest ≠ [] → rest ≠ ["cache", "lock"] → Path.Reaches "/data" rest →
      lockedFiles.root.look (["data"] ++ rest) ≠ none →
      (∀ name, lockedFiles.root.look (["data"] ++ rest ++ [name]) = none) →
      after.root.look (["data"] ++ rest) = none := by
    intro rest hrest hlocked hreaches hsome hend
    by_contra hthere
    rcases (hsurvives rest hrest hsome).mp hthere with hwithheld | ⟨name, hbelow⟩
    · rcases (hkeeps houtside rest hrest hsome).mp hwithheld with
        hremove | ⟨above, below, -, -, hread⟩ | hnot
      · exact hlocked (by simpa [lockedFiles] using hremove)
      · exact Bool.false_ne_true hread
      · exact hnot hreaches
    · rcases hsame (rest ++ [name]) with hnone | hold
      · exact hbelow (by rwa [List.append_assoc])
      · rw [List.append_assoc, hold, ← List.append_assoc, hend name] at hbelow
        exact hbelow rfl
  refine ⟨hlock, ?_, ?_, ?_, ?_⟩
  · exact (hsurvives ["cache"] (by simp) (by decide +kernel)).mpr (.inr ⟨"lock", hlock⟩)
  · exact hgone ["cache", "page"] (by simp) (by decide)
      ⟨⟨by decide, by decide, by decide⟩, by decide⟩ (by decide +kernel) fun _ => rfl
  · exact hgone ["out"] (by simp) (by decide) ⟨⟨by decide, by decide, by decide⟩, by decide⟩
      (by decide +kernel) fun _ => rfl
  · exact houtsideSame ["other", "kept"] (by decide)

end FileSystem

end LazyEngine
