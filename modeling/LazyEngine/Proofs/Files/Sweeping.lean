/-
Emptying a directory as it goes.

`FileSystem.empty` goes through a directory as it was in the beginning. A program lists each
directory when its turn comes, and by then others have been emptied. That makes no difference, for
what is removed is where it was listed, and nothing else changes:

* `FileSystem.Route` — a path leads to a location, or nowhere;
* `Route.removeFile_eq`, `Route.removeDirectory_eq` — what a removal does to an entry that is there;
* `FileSystem.Faces` — what is to be removed is there as it was listed;
* **`FileSystem.sweeps_iff`** — with each directory listed in its turn, the sweep comes to an end,
  and to the same one.

Design notes: `Route` is kept when something is taken away, also what the path goes through. So
nothing is assumed here about where the path comes from.
-/
import LazyEngine.Proofs.Files.Clearing

namespace LazyEngine

/-! ### Nodes apart -/

/-- Removing a location changes no node that is neither above nor below. -/
theorem Node.at?_remove (n : Node) {spot x : Location} (hbelow : ¬spot <+: x)
    (habove : ¬x <+: spot) : (n.remove spot).at? x = n.at? x := by
  -- By induction on the spot, until the two locations part.
  induction spot generalizing n x with
  | nil => exact absurd (List.nil_prefix) hbelow
  | cons name rest ih =>
    cases x with
    | nil => exact absurd (List.nil_prefix) habove
    | cons other x =>
      by_cases hrest : rest = []
      · subst hrest
        have hother : other ≠ name := by
          rintro rfl
          exact hbelow (by simp)
        rw [remove, at?, at?, child?_eraseChild, if_neg hother]
      · rw [remove_cons n name hrest]
        cases hchild : n.child? name with
        | none => rfl
        | some child =>
          simp only [at?, child?_setChild (form_of_child? hchild)]
          by_cases hother : other = name
          · subst hother
            rw [if_pos rfl, hchild, Option.bind_some, Option.bind_some]
            refine ih child (fun h => hbelow ?_) (fun h => habove ?_)
            · exact List.cons_prefix_cons.mpr ⟨rfl, h⟩
            · exact List.cons_prefix_cons.mpr ⟨rfl, h⟩
          · rw [if_neg hother]

/-- A last step to an entry itself ends there, without a slash. -/
theorem Walk.Leads.name_node {look : Location → Option Form} {n : Nat} {parent l : Location}
    {name : String} {slash : Bool} (hname : Path.IsName name)
    (h : Walk.Leads look .entry n parent [name] (.node l slash)) :
    l = parent ++ [name] ∧ slash = false ∧ name.utf8ByteSize ≤ Walk.longestName := by
  cases h with
  | slash => exact absurd rfl hname.nonempty
  | stay => exact absurd rfl hname.no_dot
  | up => exact absurd rfl hname.no_dots
  | last _ henters => exact ⟨rfl, rfl, henters.short⟩
  | link _ _ _ hend => exact absurd ⟨rfl, rfl⟩ hend
  | enter _ henters _ _ h => cases h; exact ⟨rfl, rfl, henters.short⟩

namespace FileSystem

variable {fs fs' : FileSystem} {path name : String} {l x : Location} {e : Entry} {es : List Entry}

/-- A file system without a location, and without all below it. -/
def lacking (fs : FileSystem) (spot : Location) : FileSystem :=
  { fs with root := fs.root.remove spot }

/-- One file system is another one without some of what is in a directory. -/
structure Depleted (small large : FileSystem) (l : Location) : Prop where
  within : small.Within large
  outside : ∀ x, ¬(l <+: x ∧ x ≠ l) → small.root.look x = large.root.look x

theorem Depleted.refl (fs : FileSystem) (l : Location) : fs.Depleted fs l :=
  ⟨.refl fs, fun _ _ => rfl⟩

theorem Depleted.trans {a b c : FileSystem} (h : a.Depleted b l) (h' : b.Depleted c l) :
    a.Depleted c l :=
  ⟨h.within.trans h'.within, fun x hx => (h.outside x hx).trans (h'.outside x hx)⟩

/-- What is in a directory is in the one above as well. -/
theorem Depleted.above (h : fs'.Depleted fs (l ++ [name])) : fs'.Depleted fs l := by
  refine ⟨h.within, fun x hx => h.outside x fun hinside => hx ⟨?_, ?_⟩⟩
  · exact List.IsPrefix.trans (List.prefix_append _ _) hinside.1
  · rintro rfl
    have hlength := hinside.1.length_le
    simp at hlength

/-! ### Routes -/

/-- Where a path leads to a directory, it is the one at a location. -/
structure Route (fs : FileSystem) (path : String) (l : Location) : Prop where
  nonempty : path ≠ ""
  led : ∀ parent es, fs.find path = .ok (parent, .directory es) → parent = l

theorem Route.of_find (h : fs.find path = .ok (l, .directory es)) : Route fs path l := by
  obtain ⟨-, slash, hleads, -⟩ := find_eq_ok_iff.mp h
  refine ⟨hleads.allowed.nonempty, fun parent es' h' => ?_⟩
  rw [h] at h'
  cases h'
  rfl

/-- A path leads nowhere else when something has been taken away. -/
theorem Route.of_within (h : Route fs path l) (hwithin : fs'.Within fs) : Route fs' path l := by
  refine ⟨h.nonempty, fun parent es hfind => ?_⟩
  obtain ⟨n, hlarge, hform⟩ := find_mono hwithin.root hwithin.here.symm hfind
  cases n with
  | directory es' => exact h.led parent es' hlarge
  | file | link => cases hform

theorem Route.inner (h : Route fs path l) (hname : Path.IsName name)
    (hdirectory : fs.root.look (l ++ [name]) = some .directory) :
    Route fs (Path.join path name) (l ++ [name]) := by
  refine ⟨?_, fun parent es hfind => ?_⟩
  · obtain ⟨before, hjoin, -⟩ := Path.exists_join name h.nonempty
    simp [hjoin]
  · obtain ⟨above, es', rfl, habove⟩ := find_join h.nonempty hname hfind fun above es' habove => by
      rw [h.led above es' habove, hdirectory]
      simp
    rw [h.led above es' habove]

/-- Where the path of an entry leads. -/
theorem Route.entry_eq (h : Route fs path l) (hname : Path.IsName name) {spot : Location}
    {slash : Bool} (hleads : fs.Leads .entry (Path.join path name) (.node spot slash)) :
    spot = l ++ [name] ∧ slash = false ∧ name.utf8ByteSize ≤ Walk.longestName := by
  obtain ⟨parent, es, k, hfind, hlast⟩ := hleads.split h.nonempty hname
  rw [← h.led parent es hfind]
  exact hlast.name_node hname

/-- Whether the removal of an entry is turned down, whatever is in it: its path leads to nothing, or
the removal is refused. -/
def turnsDown (fs : FileSystem) (inner : String) (spot : Location) : Bool :=
  match fs.walk .entry inner with
  | .ok (.node _ _ _) => fs.refuses .remove spot
  | _ => true

/-- What the walk to an entry comes to: the entry, or nothing. -/
theorem Route.walk_eq (h : Route fs path l) (hname : Path.IsName name) {node : Node}
    (hat : fs.root.at? (l ++ [name]) = some node) :
    fs.walk .entry (Path.join path name) = .ok (.node (l ++ [name]) node false) ∨
      ∀ spot n slash, fs.walk .entry (Path.join path name) ≠ .ok (.node spot n slash) := by
  by_cases hnode : ∃ spot n slash, fs.walk .entry (Path.join path name) = .ok (.node spot n slash)
  · obtain ⟨spot, n, slash, hwalk⟩ := hnode
    obtain ⟨hleads, hin⟩ := walk_eq_ok_iff.mp hwalk
    obtain ⟨rfl, rfl, -⟩ := h.entry_eq hname hleads
    obtain rfl : n = node := Option.some.inj (Eq.trans (Eq.symm hin) hat)
    exact .inl hwalk
  · push Not at hnode
    exact .inr hnode

/-- Removing a file or a link takes it away, unless that is turned down. -/
theorem Route.removeFile_eq (h : Route fs path l) (hname : Path.IsName name) {node : Node}
    (hat : fs.root.at? (l ++ [name]) = some node) (hnode : node.isDirectory = false) :
    (fs.removeFile (Path.join path name)).toOption.getD fs
      = if fs.turnsDown (Path.join path name) (l ++ [name]) then fs
        else fs.lacking (l ++ [name]) := by
  rw [removeFile, turnsDown]
  rcases h.walk_eq hname hat with hwalk | hwalk
  · rw [hwalk]
    cases node with
    | directory => cases hnode
    | file | link =>
      by_cases hrefused : fs.refuses .remove (l ++ [name])
      · simp [hrefused, Except.toOption]
      · simp [hrefused, Except.toOption, lacking]
  · cases hwalk' : fs.walk .entry (Path.join path name) with
    | error e => rfl
    | ok d =>
      cases d with
      | free => rfl
      | node spot n slash => exact absurd hwalk' (hwalk spot n slash)

/-- Removing a directory takes it away, unless that is turned down or there is something in it. -/
theorem Route.removeDirectory_eq (h : Route fs path l) (hname : Path.IsName name)
    (hat : fs.root.at? (l ++ [name]) = some (.directory es)) :
    (fs.removeDirectory (Path.join path name)).toOption.getD fs
      = if fs.turnsDown (Path.join path name) (l ++ [name]) || !es.isEmpty then fs
        else fs.lacking (l ++ [name]) := by
  rw [removeDirectory, turnsDown]
  rcases h.walk_eq hname hat with hwalk | hwalk
  · rw [hwalk]
    by_cases hempty : es.isEmpty = true
    · by_cases hrefused : fs.refuses .remove (l ++ [name])
      · simp [hempty, hrefused, Except.toOption]
      · simp [hempty, hrefused, Except.toOption, lacking]
    · simp [hempty, Except.toOption]
  · cases hwalk' : fs.walk .entry (Path.join path name) with
    | error e => rfl
    | ok d =>
      cases d with
      | free => rfl
      | node spot n slash => exact absurd hwalk' (hwalk spot n slash)

/-! ### What is to be removed -/

/-- The entries of a directory that are still to be removed are there as they have been listed. -/
structure Faces (fs : FileSystem) (path : String) (l : Location) (es : List Entry) : Prop where
  route : Route fs path l
  proper : Entry.areProper es = true
  there : ∀ e ∈ es, fs.root.at? (l ++ [e.name]) = some e.node

theorem Faces.of_find (h : fs.root.isProper = true)
    (hfind : fs.find path = .ok (l, .directory es)) : Faces fs path l es := by
  obtain ⟨hat, -⟩ := find_eq_ok_iff.mp hfind
  have hes : Entry.areProper es = true := Node.isProper_of_at? h hat
  refine ⟨.of_find hfind, hes, fun e he => ?_⟩
  rw [Node.at?_append, hat, Option.bind_some, Node.at?, Node.child?_of_mem hes he]
  rfl

theorem Faces.isName (h : Faces fs path l es) (he : e ∈ es) : Path.IsName e.name :=
  (Entry.isProper_iff.mp (Entry.isProper_of_mem h.proper he)).1

/-- What is in a directory that is to be removed is to be removed as well. -/
theorem Faces.inner {sub : List Entry} (h : Faces fs path l es)
    (he : Entry.mk name (.directory sub) ∈ es) :
    Faces fs (Path.join path name) (l ++ [name]) sub := by
  have hat : fs.root.at? (l ++ [name]) = some (.directory sub) := h.there _ he
  have hsub : Entry.areProper sub = true :=
    (Entry.isProper_iff.mp (Entry.isProper_of_mem h.proper he)).2
  refine ⟨h.route.inner (h.isName he) (Node.look_of_at? hat), hsub, fun e he => ?_⟩
  rw [Node.at?_append, hat, Option.bind_some, Node.at?, Node.child?_of_mem hsub he]
  rfl

theorem Faces.head (h : Faces fs path l (e :: es)) : Faces fs path l [e] := by
  obtain ⟨he, -, -⟩ := Entry.areProper_cons.mp h.proper
  refine ⟨h.route, ?_, fun e' he' => h.there e' (List.mem_cons.mpr (.inl (by simpa using he')))⟩
  simp [Entry.areProper, he]

theorem Faces.tail (h : Faces fs path l (e :: es)) : Faces fs path l es :=
  ⟨h.route, (Entry.areProper_cons.mp h.proper).2.2,
    fun e' he' => h.there e' (List.mem_cons_of_mem e he')⟩

theorem Faces.of_within (h : Faces fs path l es) (hwithin : fs'.Within fs)
    (hthere : ∀ e ∈ es, fs'.root.at? (l ++ [e.name]) = fs.root.at? (l ++ [e.name])) :
    Faces fs' path l es :=
  ⟨h.route.of_within hwithin, h.proper, fun e he => (hthere e he).trans (h.there e he)⟩

/-- What is left when a directory has been emptied, if it can be listed. -/
def emptied (fs : FileSystem) (inner : String) (sub : List Entry) : FileSystem :=
  if (fs.entries inner).isOk then fs.removeEntries inner sub else fs

theorem emptied_within (fs : FileSystem) (inner : String) (sub : List Entry) :
    (fs.emptied inner sub).Within fs := by
  rw [emptied]
  split
  · exact removeEntries_within fs inner sub
  · exact .refl fs

/-- Removing entries takes away some of what is in the directory. -/
theorem Faces.depleted (h : Faces fs path l es) : (fs.removeEntries path es).Depleted fs l := by
  refine ⟨removeEntries_within fs path es, fun x hx => ?_⟩
  have hwithout := removeEntries_without h.route.nonempty h.route.led (.refl fs) es h.proper h.there
  rw [hwithout x, if_neg]
  rintro ⟨y, hy, hyx⟩
  obtain ⟨name, rest, rfl⟩ := below_of_mem_goneAll es fs path l y hy
  refine hx ⟨List.IsPrefix.trans (List.prefix_append _ _) hyx, ?_⟩
  rintro rfl
  have hlength := hyx.length_le
  simp at hlength

theorem Faces.depleted_head (h : Faces fs path l (e :: es)) :
    (fs.removeEntry path e).Depleted fs l := by
  have hdepleted := h.head.depleted
  rwa [removeEntries, removeEntries] at hdepleted

/-- A directory stays one while its entries are removed. -/
theorem Faces.emptied_at? {sub : List Entry} (h : Faces fs path l es)
    (he : Entry.mk name (.directory sub) ∈ es) :
    ∃ left, (fs.emptied (Path.join path name) sub).root.at? (l ++ [name])
      = some (.directory left) := by
  have hat : fs.root.at? (l ++ [name]) = some (.directory sub) := h.there _ he
  rw [emptied]
  split
  · have hlook := (h.inner he).depleted.outside (l ++ [name]) fun hinside => hinside.2 rfl
    rw [Node.look_of_at? hat] at hlook
    obtain ⟨n, hn, hform⟩ := Option.map_eq_some_iff.mp hlook
    cases n with
    | directory left => exact ⟨left, hn⟩
    | file | link => cases hform
  · exact ⟨sub, hat⟩

/-- What removing a file or a link comes to. -/
theorem Faces.removeEntry_leaf {node : Node} (h : Faces fs path l es)
    (he : Entry.mk name node ∈ es) (hnode : node.isDirectory = false) :
    fs.removeEntry path (.mk name node)
      = if fs.turnsDown (Path.join path name) (l ++ [name]) then fs
        else fs.lacking (l ++ [name]) := by
  have hname : Path.IsName name := h.isName he
  rw [← h.route.removeFile_eq hname (h.there _ he) hnode]
  cases node with
  | directory => cases hnode
  | file | link => rw [removeEntry]

/-- What removing a directory comes to. -/
theorem Faces.removeEntry_directory {sub left : List Entry} (h : Faces fs path l es)
    (he : Entry.mk name (.directory sub) ∈ es)
    (hleft : (fs.emptied (Path.join path name) sub).root.at? (l ++ [name])
      = some (.directory left)) :
    fs.removeEntry path (.mk name (.directory sub))
      = if (fs.emptied (Path.join path name) sub).turnsDown (Path.join path name) (l ++ [name])
          || !left.isEmpty
        then fs.emptied (Path.join path name) sub
        else (fs.emptied (Path.join path name) sub).lacking (l ++ [name]) := by
  have hroute := h.route.of_within (emptied_within fs (Path.join path name) sub)
  have hname : Path.IsName name := h.isName he
  rw [← hroute.removeDirectory_eq hname hleft, removeEntry]
  rfl

/-! ### What is left alone -/

/-- What is neither above nor below the entries of a directory. -/
structure Apart (l : Location) (es : List Entry) (x : Location) : Prop where
  not_above : ¬x <+: l
  not_below : ∀ e ∈ es, ¬l ++ [e.name] <+: x

theorem Apart.not_above_entry (h : Apart l es x) (he : e ∈ es) : ¬x <+: l ++ [e.name] := by
  rw [List.prefix_concat_iff]
  rintro (rfl | habove)
  · exact h.not_below e he List.prefix_rfl
  · exact h.not_above habove

/-- What is apart from an entry is apart from what is in it. -/
theorem Apart.inner {sub : List Entry} (h : Apart l es x)
    (he : Entry.mk name (.directory sub) ∈ es) : Apart (l ++ [name]) sub x :=
  ⟨h.not_above_entry he, fun _ _ hbelow =>
    h.not_below _ he (List.IsPrefix.trans (List.prefix_append _ _) hbelow)⟩

theorem Apart.of_subset {es' : List Entry} (h : Apart l es x) (hsub : es' ⊆ es) : Apart l es' x :=
  ⟨h.not_above, fun e he => h.not_below e (hsub he)⟩

/-- What is in an entry is apart from entries of other names. -/
theorem Apart.of_below (hx : l ++ [name] <+: x) (hne : ∀ e ∈ es, e.name ≠ name) :
    Apart l es x := by
  refine ⟨fun habove => ?_, fun e he hbelow => ?_⟩
  · have hlength := (hx.trans habove).length_le
    simp at hlength
  · have hnames := (List.prefix_of_prefix_length_le hbelow hx (by simp)).eq_of_length (by simp)
    exact hne e he (by simpa using hnames)

/-- The entries of a directory are apart from one another. -/
theorem Faces.apart_head (h : Faces fs path l (e :: es)) {e' : Entry} (he' : e' ∈ es)
    (hx : l ++ [e'.name] <+: x) : Apart l [e] x := by
  refine .of_below hx fun first hfirst => ?_
  obtain rfl := List.mem_singleton.mp hfirst
  exact ((Entry.areProper_cons.mp h.proper).2.1 e' he').symm

theorem Faces.apart_tail (h : Faces fs path l (e :: es)) (hx : l ++ [e.name] <+: x) :
    Apart l es x :=
  .of_below hx (Entry.areProper_cons.mp h.proper).2.1

theorem at?_lacking (h : Apart l es x) (he : e ∈ es) :
    (fs.lacking (l ++ [e.name])).root.at? x = fs.root.at? x :=
  Node.at?_remove fs.root (h.not_below e he) (h.not_above_entry he)

theorem Faces.leaf_apart {node : Node} (h : Faces fs path l es) (he : Entry.mk name node ∈ es)
    (hnode : node.isDirectory = false) (hx : Apart l es x) :
    (fs.removeEntry path (.mk name node)).root.at? x = fs.root.at? x := by
  rw [h.removeEntry_leaf he hnode]
  split
  · rfl
  · exact at?_lacking hx he

mutual

/-- Removing an entry leaves alone what is apart from it. -/
theorem removeEntry_apart {fs : FileSystem} {path : String} {l x : Location} : (e : Entry) →
    Faces fs path l [e] → Apart l [e] x → (fs.removeEntry path e).root.at? x = fs.root.at? x
  | .mk _ (.file _), h, hx => h.leaf_apart (List.mem_singleton_self _) rfl hx
  | .mk _ (.link _), h, hx => h.leaf_apart (List.mem_singleton_self _) rfl hx
  | .mk name (.directory sub), h, hx => by
    have he := List.mem_singleton_self (Entry.mk name (.directory sub))
    have hkept : (fs.emptied (Path.join path name) sub).root.at? x = fs.root.at? x := by
      rw [emptied]
      split
      · exact removeEntries_apart sub (h.inner he) (hx.inner he)
      · rfl
    obtain ⟨left, hleft⟩ := h.emptied_at? he
    rw [h.removeEntry_directory he hleft]
    split
    · exact hkept
    · exact (at?_lacking hx he).trans hkept

theorem removeEntries_apart {fs : FileSystem} {path : String} {l x : Location} :
    (es : List Entry) → Faces fs path l es → Apart l es x →
    (fs.removeEntries path es).root.at? x = fs.root.at? x
  | [], _, _ => by rw [removeEntries]
  | e :: es, h, hx => by
    have hfirst := removeEntry_apart e h.head (hx.of_subset (by simp))
    have hrest : Faces (fs.removeEntry path e) path l es :=
      (h.tail).of_within (removeEntry_within fs path e) fun e' he' =>
        removeEntry_apart e h.head (h.apart_head he' List.prefix_rfl)
    rw [removeEntries]
    exact (removeEntries_apart es hrest (hx.of_subset (List.subset_cons_self _ _))).trans hfirst

end

/-- After one entry, the others are still there as they have been listed. -/
theorem Faces.next (h : Faces fs path l (e :: es)) : Faces (fs.removeEntry path e) path l es :=
  h.tail.of_within (removeEntry_within fs path e) fun _ he' =>
    removeEntry_apart e h.head (h.apart_head he' List.prefix_rfl)

/-! ### Sweeps -/

/-- Removing the entries of the directory at a path, one after another; a directory is listed when
it is its turn. -/
inductive Sweeps : FileSystem → String → List Entry → FileSystem → Prop
  | done {fs : FileSystem} {path : String} : Sweeps fs path [] fs
  | leaf {fs fs' : FileSystem} {path name : String} {node : Node} {es : List Entry} :
      node.isDirectory = false →
      Sweeps ((fs.removeFile (Path.join path name)).toOption.getD fs) path es fs' →
      Sweeps fs path (.mk name node :: es) fs'
  | listed {fs swept fs' : FileSystem} {path name : String} {sub listed es : List Entry} :
      fs.entries (Path.join path name) = .ok listed →
      Sweeps fs (Path.join path name) listed swept →
      Sweeps ((swept.removeDirectory (Path.join path name)).toOption.getD swept) path es fs' →
      Sweeps fs path (.mk name (.directory sub) :: es) fs'
  | unlisted {fs fs' : FileSystem} {path name : String} {error : FileError} {sub es : List Entry} :
      fs.entries (Path.join path name) = .error error →
      Sweeps ((fs.removeDirectory (Path.join path name)).toOption.getD fs) path es fs' →
      Sweeps fs path (.mk name (.directory sub) :: es) fs'

/-- A sweep has one end at most. -/
theorem Sweeps.unique {a b : FileSystem} (h : Sweeps fs path es a) (h' : Sweeps fs path es b) :
    a = b := by
  induction h generalizing b with
  | done => cases h'; rfl
  | leaf hnode _ ih =>
    cases h' with
    | leaf _ h' => exact ih h'
    | listed | unlisted => cases hnode
  | listed hentries _ _ ihsub ih =>
    cases h' with
    | leaf hnode => cases hnode
    | listed hentries' hsub' h' =>
      cases hentries.symm.trans hentries'
      obtain rfl := ihsub hsub'
      exact ih h'
    | unlisted hentries' => cases hentries.symm.trans hentries'
  | unlisted hentries _ ih =>
    cases h' with
    | leaf hnode => cases hnode
    | listed hentries' => cases hentries.symm.trans hentries'
    | unlisted _ h' => exact ih h'

/-- What is listed in the turn of a directory is what was there in the beginning. -/
theorem Faces.entries_eq {sub listed : List Entry} (h : Faces fs path l es)
    (he : Entry.mk name (.directory sub) ∈ es)
    (hlisted : fs.entries (Path.join path name) = .ok listed) : listed = sub := by
  rw [entries] at hlisted
  split at hlisted
  · cases hlisted
  · rename_i spot found hfind
    split at hlisted
    · cases hlisted
    · cases hlisted
      obtain rfl := (h.inner he).route.led _ _ hfind
      have hat := (find_eq_ok_iff.mp hfind).1.symm.trans (h.there _ he)
      simpa using hat
  · cases hlisted

mutual

/-- A sweep over one entry goes on with the others. -/
theorem Faces.sweeps_cons {fs fs' : FileSystem} {path : String} {l : Location} {es : List Entry} :
    (e : Entry) → Faces fs path l [e] → Sweeps (fs.removeEntry path e) path es fs' →
    Sweeps fs path (e :: es) fs'
  | .mk _ (.file _), _, hrest => .leaf rfl (by rwa [removeEntry] at hrest)
  | .mk _ (.link _), _, hrest => .leaf rfl (by rwa [removeEntry] at hrest)
  | .mk name (.directory sub), h, hrest => by
    have he := List.mem_singleton_self (Entry.mk name (.directory sub))
    rw [removeEntry] at hrest
    cases hentries : fs.entries (Path.join path name) with
    | error error =>
      rw [hentries] at hrest
      exact .unlisted hentries hrest
    | ok listed =>
      rw [h.entries_eq he hentries] at hentries
      rw [hentries] at hrest
      exact .listed hentries (Faces.sweeps sub (h.inner he)) hrest

/-- A sweep comes to an end. -/
theorem Faces.sweeps {fs : FileSystem} {path : String} {l : Location} : (es : List Entry) →
    Faces fs path l es → Sweeps fs path es (fs.removeEntries path es)
  | [], _ => by
    rw [removeEntries]
    exact .done
  | e :: es, h => by
    rw [removeEntries]
    exact Faces.sweeps_cons e h.head (Faces.sweeps es h.next)

end

/-- **A sweep comes to an end, and to one only**: whether each directory is listed in its turn, or
all have been in the beginning, the outcome is the same. -/
theorem sweeps_iff (h : fs.root.isProper = true) (hentries : fs.entries path = .ok es) :
    Sweeps fs path es fs' ↔ fs' = fs.empty path := by
  have hempty : fs.empty path = fs.removeEntries path es := by rw [empty, hentries]
  obtain ⟨l, hfind⟩ : ∃ l, fs.find path = .ok (l, .directory es) := by
    rw [entries] at hentries
    split at hentries
    · cases hentries
    · rename_i l es' hfind
      split at hentries
      · cases hentries
      · cases hentries
        exact ⟨l, hfind⟩
    · cases hentries
  have hsweeps : Sweeps fs path es (fs.removeEntries path es) :=
    Faces.sweeps es (Faces.of_find h hfind)
  rw [hempty]
  constructor
  · exact fun h' => h'.unique hsweeps
  · rintro rfl
    exact hsweeps

end FileSystem

end LazyEngine
