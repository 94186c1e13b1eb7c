/-
What emptying a directory takes away.

Entries are removed one after another. A removal that fails is passed over: what it was to take away
stays, and so do the directories above it, for they are not empty then. `FileSystem.cleared` keeps
account of the removals that do not fail.

* **`FileSystem.look_empty`** — the locations of `cleared` go, with all below them, and everything
  else stays as it was;
* `FileSystem.below_of_mem_cleared`, `FileSystem.mem_cleared_of_removesAll` — all of them lie below
  the directory, and if no removal fails, all that lies there is among them or below them;
* `Node.isProper` — a tree as a file system has them: entries have names, no two the same.

Design notes: a removal names an entry by its path, and what the path leads to may have changed by
then, for links that it goes through can be gone. As in `Files/Operations`, the path is compared
with the tree as it was in the beginning (`large` below). It leads to the place that it led to then,
or nowhere, and the removal fails.
-/
import LazyEngine.Proofs.Files.Operations

namespace LazyEngine

/-! ### Proper trees -/

mutual

/-- Whether entries have names everywhere in a tree, and no directory has two of one name. -/
def Node.isProper : Node → Bool
  | .file _ => true
  | .link _ => true
  | .directory es => Entry.areProper es

def Entry.isProper : Entry → Bool
  | .mk name node => decide (Path.IsName name) && node.isProper

def Entry.areProper : List Entry → Bool
  | [] => true
  | e :: es => e.isProper && es.all (fun other => other.name != e.name) && Entry.areProper es

end

theorem Entry.isProper_iff {e : Entry} :
    e.isProper = true ↔ Path.IsName e.name ∧ e.node.isProper = true := by
  obtain ⟨name, node⟩ := e
  simp [isProper]

theorem Entry.areProper_cons {e : Entry} {es : List Entry} :
    areProper (e :: es) = true ↔
      e.isProper = true ∧ (∀ other ∈ es, other.name ≠ e.name) ∧ areProper es = true := by
  simp [areProper, and_assoc]

theorem Entry.isProper_of_mem {es : List Entry} (h : areProper es = true) {e : Entry}
    (he : e ∈ es) : e.isProper = true := by
  induction es with
  | nil => cases he
  | cons first es ih =>
    obtain ⟨hfirst, -, hes⟩ := areProper_cons.mp h
    rcases List.mem_cons.mp he with rfl | he
    · exact hfirst
    · exact ih hes he

namespace Node

/-- In a proper directory an entry is found by its name. -/
theorem child?_of_mem {es : List Entry} (h : Entry.areProper es = true) {e : Entry} (he : e ∈ es) :
    (directory es).child? e.name = some e.node := by
  suffices hfind : es.find? (·.name == e.name) = some e by
    rw [child?, entries, hfind]
    rfl
  induction es with
  | nil => cases he
  | cons first es ih =>
    obtain ⟨-, hothers, hes⟩ := Entry.areProper_cons.mp h
    rcases List.mem_cons.mp he with rfl | he
    · simp
    · have hname : (first.name == e.name) = false := by simpa using (hothers e he).symm
      rw [List.find?_cons, hname]
      exact ih hes he

/-- What stands in a proper tree is proper. -/
theorem isProper_of_at? {n m : Node} (h : n.isProper = true) {l : Location}
    (hat : n.at? l = some m) : m.isProper = true := by
  induction l generalizing n with
  | nil =>
    cases hat
    exact h
  | cons name l ih =>
    obtain ⟨child, hchild, hat⟩ := Option.bind_eq_some_iff.mp hat
    refine ih ?_ hat
    cases n with
    | file | link => cases hchild
    | directory es =>
      obtain ⟨e, hfind, rfl⟩ := Option.map_eq_some_iff.mp hchild
      have he := Entry.isProper_of_mem h (List.mem_of_find?_eq_some hfind)
      exact (Entry.isProper_iff.mp he).2

end Node

namespace FileSystem

variable {fs fs' fs'' : FileSystem} {path : String} {l : Location}

/-! ### Taking locations away -/

/-- One file system is another one without some locations and all below them. -/
def Without (fs : FileSystem) (gone : List Location) (fs' : FileSystem) : Prop :=
  ∀ x, fs'.root.look x = if ∃ y ∈ gone, y <+: x then none else fs.root.look x

theorem Without.refl (fs : FileSystem) : fs.Without [] fs := fun x => by simp

theorem Without.trans {gone gone' : List Location} (h : fs.Without gone fs')
    (h' : fs'.Without gone' fs'') : fs.Without (gone ++ gone') fs'' := by
  intro x
  rw [h' x, h x]
  simp only [List.mem_append, or_and_right, exists_or]
  by_cases hgone : ∃ y ∈ gone, y <+: x
  · simp [hgone]
  · simp [hgone]

/-- An attempt to remove an entry of a directory takes the entry away if it succeeds, and nothing
otherwise. -/
theorem TakesAway.without {large : FileSystem} {name : String} {r : Except FileError FileSystem}
    (hpath : path ≠ "") (hname : Path.IsName name) (hwithin : fs.Within large)
    (hled : ∀ parent es, large.find path = .ok (parent, .directory es) → parent = l)
    (h : fs.TakesAway (Path.join path name) r) :
    fs.Without (if r.isOk then [l ++ [name]] else []) (r.toOption.getD fs) := by
  cases hr : r with
  | error e => exact .refl fs
  | ok fs' =>
    obtain ⟨spot, slash, hleads, rfl⟩ := h fs' hr
    obtain ⟨parent, es, rfl, hfind⟩ := hleads.parent hpath hname
    obtain ⟨n, hlarge, hform⟩ := find_mono hwithin.root hwithin.here.symm hfind
    obtain rfl : parent = l := by
      cases n with
      | directory es' => exact hled parent es' hlarge
      | file | link => cases hform
    intro x
    have hspot : parent ++ [name] ≠ [] := by simp
    have hlook := Node.look_remove fs.root hspot x
    simpa [Except.isOk, Except.toBool, Except.toOption] using hlook

mutual

/-- The locations that go when an entry of the directory at a path, which is the one at a location,
is removed: one for each removal that does not fail. -/
def gone (fs : FileSystem) (path : String) (l : Location) : Entry → List Location
  | .mk name node =>
    let inner := Path.join path name
    let spot := l ++ [name]
    match node with
    | .directory es =>
      let listed := (fs.entries inner).isOk
      let emptied := if listed then fs.removeEntries inner es else fs
      (if listed then fs.goneAll inner spot es else [])
        ++ if (emptied.removeDirectory inner).isOk then [spot] else []
    | .file _ => if (fs.removeFile inner).isOk then [spot] else []
    | .link _ => if (fs.removeFile inner).isOk then [spot] else []

def goneAll (fs : FileSystem) (path : String) (l : Location) : List Entry → List Location
  | [] => []
  | e :: es => fs.gone path l e ++ (fs.removeEntry path e).goneAll path l es

end

/-- The locations that go when the directory at a path is emptied. -/
def cleared (fs : FileSystem) (path : String) : List Location :=
  match fs.find path with
  | .ok (l, .directory es) => if fs.refuses .read l then [] else fs.goneAll path l es
  | _ => []

mutual

theorem removeEntry_without {large fs : FileSystem} {path : String} {l : Location}
    (hpath : path ≠ "")
    (hled : ∀ parent es, large.find path = .ok (parent, .directory es) → parent = l)
    (hwithin : fs.Within large) : (e : Entry) → e.isProper = true →
    large.root.at? (l ++ [e.name]) = some e.node →
    fs.Without (fs.gone path l e) (fs.removeEntry path e)
  | .mk name (.file bytes), hproper, _ => by
    have hname := (Entry.isProper_iff.mp hproper).1
    rw [gone, removeEntry]
    exact (removeFile_takesAway fs _).without hpath hname hwithin hled
  | .mk name (.link target), hproper, _ => by
    have hname := (Entry.isProper_iff.mp hproper).1
    rw [gone, removeEntry]
    exact (removeFile_takesAway fs _).without hpath hname hwithin hled
  | .mk name (.directory es), hproper, hat => by
    obtain ⟨hname, hes⟩ := Entry.isProper_iff.mp hproper
    rw [Entry.name_mk] at hname hat
    rw [gone, removeEntry]
    -- The path of the directory leads to it, or nowhere.
    have hled' : ∀ parent es', large.find (Path.join path name) = .ok (parent, .directory es') →
        parent = l ++ [name] := by
      intro parent es' hfind
      have hdirectory : large.root.look (l ++ [name]) = some .directory := Node.look_of_at? hat
      obtain ⟨above, es'', rfl, habove⟩ := find_join hpath hname hfind fun above es'' habove => by
        rw [hled above es'' habove, hdirectory]
        simp
      rw [hled above es'' habove]
    have hinner : Path.join path name ≠ "" := by
      obtain ⟨before, hjoin, -⟩ := Path.exists_join name hpath
      simp [hjoin]
    have hbelow : ∀ e ∈ es, large.root.at? (l ++ [name] ++ [e.name]) = some e.node := by
      intro e he
      have hspot : large.root.at? (l ++ [name]) = some (.directory es) := hat
      rw [Node.at?_append, hspot, Option.bind_some, Node.at?, Node.child?_of_mem hes he]
      rfl
    by_cases hlisted : (fs.entries (Path.join path name)).isOk
    · simp only [hlisted, if_true]
      have hemptied := removeEntries_without hinner hled' hwithin es hes hbelow
      have hless := (removeEntries_within fs (Path.join path name) es).trans hwithin
      exact hemptied.trans
        ((removeDirectory_takesAway _ _).without hpath hname hless hled)
    · simp only [hlisted, Bool.false_eq_true, if_false, List.nil_append]
      exact (removeDirectory_takesAway fs _).without hpath hname hwithin hled

theorem removeEntries_without {large fs : FileSystem} {path : String} {l : Location}
    (hpath : path ≠ "")
    (hled : ∀ parent es, large.find path = .ok (parent, .directory es) → parent = l)
    (hwithin : fs.Within large) : (es : List Entry) → Entry.areProper es = true →
    (∀ e ∈ es, large.root.at? (l ++ [e.name]) = some e.node) →
    fs.Without (fs.goneAll path l es) (fs.removeEntries path es)
  | [], _, _ => by
    rw [goneAll, removeEntries]
    exact .refl fs
  | e :: es, hproper, hat => by
    obtain ⟨he, -, hes⟩ := Entry.areProper_cons.mp hproper
    rw [goneAll, removeEntries]
    have hfirst := removeEntry_without hpath hled hwithin e he (hat e (by simp))
    have hless := (removeEntry_within fs path e).trans hwithin
    exact hfirst.trans (removeEntries_without hpath hled hless es hes
      fun e he => hat e (List.mem_cons_of_mem _ he))

end

/-- **Emptying a directory takes away what its removals take away**, and nothing else. -/
theorem look_empty (h : fs.root.isProper = true) (path : String) (x : Location) :
    (fs.empty path).root.look x
      = if ∃ y ∈ fs.cleared path, y <+: x then none else fs.root.look x := by
  suffices hwithout : fs.Without (fs.cleared path) (fs.empty path) from hwithout x
  -- What is cleared is found in the same way as what is emptied, case by case.
  rw [cleared, empty, entries]
  cases hfind : fs.find path with
  | error e => exact .refl fs
  | ok found =>
    obtain ⟨l, n⟩ := found
    cases n with
    | file | link => exact .refl fs
    | directory es =>
      by_cases hrefused : fs.refuses .read l
      · simp only [hrefused, if_true]
        exact .refl fs
      · simp only [hrefused, Bool.false_eq_true, if_false]
        obtain ⟨hat, _, hleads, -⟩ := find_eq_ok_iff.mp hfind
        have hes : Entry.areProper es = true := Node.isProper_of_at? h hat
        refine removeEntries_without hleads.allowed.nonempty ?_ (.refl fs) es hes fun e he => ?_
        · intro parent es' hfind'
          rw [hfind] at hfind'
          cases hfind'
          rfl
        · rw [Node.at?_append, hat, Option.bind_some, Node.at?, Node.child?_of_mem hes he]
          rfl

/-! ### Where they lie -/

mutual

theorem below_of_mem_gone : (e : Entry) → (fs : FileSystem) → (path : String) → (l : Location) →
    ∀ y ∈ fs.gone path l e, ∃ rest, y = l ++ e.name :: rest
  | .mk name (.file _), fs, path, l => by
    intro y hy
    rw [gone] at hy
    split at hy <;> simp_all
  | .mk name (.link _), fs, path, l => by
    intro y hy
    rw [gone] at hy
    split at hy <;> simp_all
  | .mk name (.directory es), fs, path, l => by
    intro y hy
    rw [gone] at hy
    rcases List.mem_append.mp hy with hy | hy
    · split at hy
      · obtain ⟨name', rest, rfl⟩ := below_of_mem_goneAll es fs _ _ y hy
        exact ⟨name' :: rest, by simp⟩
      · simp at hy
    · split at hy <;> simp_all

theorem below_of_mem_goneAll : (es : List Entry) → (fs : FileSystem) → (path : String) →
    (l : Location) → ∀ y ∈ fs.goneAll path l es, ∃ name rest, y = l ++ name :: rest
  | [], fs, path, l => by
    intro y hy
    rw [goneAll] at hy
    simp at hy
  | e :: es, fs, path, l => by
    intro y hy
    rw [goneAll] at hy
    rcases List.mem_append.mp hy with hy | hy
    · obtain ⟨rest, rfl⟩ := below_of_mem_gone e fs path l y hy
      exact ⟨e.name, rest, rfl⟩
    · exact below_of_mem_goneAll es _ path l y hy

end

/-- What goes lies below the directory. -/
theorem below_of_mem_cleared {y : Location} (h : y ∈ fs.cleared path) :
    ∃ l es name rest, fs.find path = .ok (l, .directory es) ∧ y = l ++ name :: rest := by
  rw [cleared] at h
  split at h
  · rename_i l es hfind
    split at h
    · simp at h
    · obtain ⟨name, rest, rfl⟩ := below_of_mem_goneAll es fs path l y h
      exact ⟨l, es, name, rest, hfind, rfl⟩
  · simp at h

/-- If no removal fails, all that is in the directory goes. -/
theorem mem_cleared_of_removesAll (h : fs.root.isProper = true) {es : List Entry}
    (hfind : fs.find path = .ok (l, .directory es)) (hlisted : fs.refuses .read l = false)
    (hremoved : fs.removesAll path es) {name : String} {rest : Location}
    (hsome : fs.root.look (l ++ name :: rest) ≠ none) :
    ∃ y ∈ fs.cleared path, y <+: l ++ name :: rest := by
  obtain ⟨hat, -⟩ := find_eq_ok_iff.mp hfind
  have hes : Entry.areProper es = true := Node.isProper_of_at? h hat
  have hnamed : ∀ e ∈ es, Path.IsName e.name := fun e he =>
    (Entry.isProper_iff.mp (Entry.isProper_of_mem hes he)).1
  have hclear := empty_clears ⟨hfind, hlisted, hnamed, hremoved⟩ (List.cons_ne_nil name rest)
  rw [look_empty h] at hclear
  by_contra hnone
  rw [if_neg hnone] at hclear
  exact hsome hclear

end FileSystem

end LazyEngine
