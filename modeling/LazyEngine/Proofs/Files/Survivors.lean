/-
What survives when a directory is emptied.

An entry survives if it is withheld, and a directory survives as well if something in it does.
Nothing else does:

* `FileSystem.withheld` — what is withheld while a directory is emptied: a removal is turned down in
  its turn, or the directory in which it would be done cannot be listed;
* `FileSystem.Survives` — a location is there exactly if it has been withheld, or something in it is
  there;
* **`FileSystem.survives_entries`** — so it is with every location when entries are removed.

Design notes: removing a directory also fails because something is left in it. That is no reason of
its own to survive, and `withheld` leaves it out. Whether removals are turned down depends on the
turn, for a path may go through what has been removed. `Files/Keeping` looks at the paths for which
it does not.
-/
import LazyEngine.Proofs.Files.Sweeping

namespace LazyEngine

theorem Location.exists_below {spot x : Location} (hx : spot <+: x) (hne : x ≠ spot) :
    ∃ name rest, x = spot ++ name :: rest := by
  obtain ⟨rest, rfl⟩ := hx
  obtain ⟨name, rest, rfl⟩ := List.exists_cons_of_ne_nil fun hnil : rest = [] =>
    hne (by rw [hnil, List.append_nil])
  exact ⟨name, rest, rfl⟩

namespace Node

/-- A directory with something in it has an entry. -/
theorem look_first {n : Node} {l : Location} {e : Entry} {es : List Entry}
    (h : n.at? l = some (.directory (e :: es))) : n.look (l ++ [e.name]) ≠ none := by
  rw [look_append, h, Option.bind_some, look_cons]
  simp [child?, entries, look_nil]

/-- What is below a location is below an entry of the directory there. -/
theorem exists_entry {n : Node} {l : Location} {es : List Entry} {name : String} {rest : Location}
    (h : n.at? l = some (.directory es)) (hsome : n.look (l ++ name :: rest) ≠ none) :
    ∃ e ∈ es, e.name = name := by
  rw [look_append, h, Option.bind_some, look_cons] at hsome
  cases hfind : es.find? (·.name == name) with
  | none => simp [child?, entries, hfind] at hsome
  | some e => exact ⟨e, List.mem_of_find?_eq_some hfind, by simpa using List.find?_some hfind⟩

theorem look_below_leaf {n node : Node} {l : Location} {name : String} {rest : Location}
    (h : n.at? l = some node) (hnode : node.isDirectory = false) :
    n.look (l ++ name :: rest) = none := by
  by_contra hsome
  have hdirectory := look_above hsome
  rw [look_of_at? h, Option.some.injEq, form_eq_directory_iff, hnode] at hdirectory
  cases hdirectory

end Node

namespace FileSystem

variable {fs fs' : FileSystem} {path name : String} {l x : Location} {e : Entry} {es : List Entry}

theorem look_lacking {spot : Location} (hspot : spot ≠ []) (hx : spot <+: x) :
    (fs.lacking spot).root.look x = none := by
  rw [lacking, Node.look_remove fs.root hspot, if_pos hx]

/-! ### What is withheld -/

mutual

/-- Whether a location is withheld when an entry of the directory at a path is removed. -/
def withholds (fs : FileSystem) (path : String) (l x : Location) : Entry → Bool
  | .mk name node =>
    let inner := Path.join path name
    let spot := l ++ [name]
    match node with
    | .directory sub =>
      (x == spot && (fs.emptied inner sub).turnsDown inner spot)
        || if (fs.entries inner).isOk then fs.withholdsAny inner spot x sub
          else spot.isPrefixOf x && x != spot
    | .file _ => x == spot && fs.turnsDown inner spot
    | .link _ => x == spot && fs.turnsDown inner spot

/-- Whether a location is withheld when entries are removed one after another. -/
def withholdsAny (fs : FileSystem) (path : String) (l x : Location) : List Entry → Bool
  | [] => false
  | e :: es => fs.withholds path l x e || (fs.removeEntry path e).withholdsAny path l x es

end

/-- Whether a location is withheld when the directory at a path is emptied. -/
def withheld (fs : FileSystem) (path : String) (x : Location) : Bool :=
  match fs.find path with
  | .ok (l, .directory es) =>
    if fs.refuses .read l then l.isPrefixOf x && x != l else fs.withholdsAny path l x es
  | _ => false

mutual

theorem prefix_of_withholds {fs : FileSystem} {path : String} {l x : Location} : (e : Entry) →
    fs.withholds path l x e = true → l ++ [e.name] <+: x
  | .mk name (.file _), h => by
    rw [withholds, Bool.and_eq_true, beq_iff_eq] at h
    rw [h.1]
    exact List.prefix_rfl
  | .mk name (.link _), h => by
    rw [withholds, Bool.and_eq_true, beq_iff_eq] at h
    rw [h.1]
    exact List.prefix_rfl
  | .mk name (.directory sub), h => by
    rw [withholds, Bool.or_eq_true, Bool.and_eq_true, beq_iff_eq] at h
    rcases h with h | h
    · rw [h.1]
      exact List.prefix_rfl
    · split at h
      · obtain ⟨e, -, he⟩ := prefix_of_withholdsAny sub h
        exact List.IsPrefix.trans (List.prefix_append _ _) he
      · exact List.isPrefixOf_iff_prefix.mp (Bool.and_eq_true_iff.mp h).1

theorem prefix_of_withholdsAny {fs : FileSystem} {path : String} {l x : Location} :
    (es : List Entry) → fs.withholdsAny path l x es = true → ∃ e ∈ es, l ++ [e.name] <+: x
  | [], h => by
    rw [withholdsAny] at h
    cases h
  | e :: es, h => by
    rw [withholdsAny, Bool.or_eq_true] at h
    rcases h with h | h
    · exact ⟨e, List.mem_cons_self, prefix_of_withholds e h⟩
    · obtain ⟨e', he', hx⟩ := prefix_of_withholdsAny es h
      exact ⟨e', List.mem_cons_of_mem e he', hx⟩

end

/-- What an entry is to be removed for is not withheld with another one. -/
theorem not_withholdsAny (h : Faces fs path l (e :: es)) (hx : l ++ [e.name] <+: x) :
    fs'.withholdsAny path l x es = false := by
  rw [Bool.eq_false_iff]
  intro hany
  obtain ⟨e', he', hx'⟩ := prefix_of_withholdsAny es hany
  exact (h.apart_tail hx).not_below e' he' hx'

theorem not_withholds (h : Faces fs path l (e :: es)) {e' : Entry} (he' : e' ∈ es)
    (hx : l ++ [e'.name] <+: x) : fs'.withholds path l x e = false := by
  rw [Bool.eq_false_iff]
  intro hwithholds
  exact (h.apart_head he' hx).not_below e List.mem_cons_self (prefix_of_withholds e hwithholds)

/-! ### Who survives -/

/-- A location is there after a change exactly if it has been withheld, or something in it is
there. -/
def Survives (after : FileSystem) (withheld : Bool) (x : Location) : Prop :=
  after.root.look x ≠ none ↔ withheld = true ∨ ∃ name, after.root.look (x ++ [name]) ≠ none

/-- What has gone with all in it has not been withheld. -/
theorem Survives.of_gone (h : ∀ more, fs.root.look (x ++ more) = none) : fs.Survives false x := by
  have hhere := h []
  rw [List.append_nil] at hhere
  refine iff_of_false (fun hsome => hsome hhere) ?_
  rintro (hfalse | ⟨name, hsome⟩)
  · exact Bool.false_ne_true hfalse
  · exact hsome (h [name])

theorem Survives.not_withheld {withheld : Bool} (h : fs.Survives withheld x)
    (hgone : fs.root.look x = none) : withheld = false := by
  rw [Bool.eq_false_iff]
  exact fun hwithheld => h.mpr (.inl hwithheld) hgone

/-- Nothing is left of what has been taken away. -/
theorem look_lacking_append (fs : FileSystem) {spot : Location} (hspot : spot ≠ [])
    (hx : spot <+: x) (more : Location) : (fs.lacking spot).root.look (x ++ more) = none :=
  look_lacking hspot (hx.trans (List.prefix_append x more))

theorem Faces.leaf_survives {node : Node} (h : Faces fs path l es) (he : Entry.mk name node ∈ es)
    (hnode : node.isDirectory = false) (hx : l ++ [name] <+: x) (hsome : fs.root.look x ≠ none) :
    (fs.removeEntry path (.mk name node)).Survives
      (x == l ++ [name] && fs.turnsDown (Path.join path name) (l ++ [name])) x := by
  have hat : fs.root.at? (l ++ [name]) = some node := h.there _ he
  obtain ⟨rest, rfl⟩ := hx
  cases rest with
  | cons below rest => exact absurd (Node.look_below_leaf hat hnode) hsome
  | nil =>
    rw [List.append_nil] at hsome ⊢
    rw [h.removeEntry_leaf he hnode, beq_self_eq_true, Bool.true_and]
    by_cases hdown : fs.turnsDown (Path.join path name) (l ++ [name]) = true
    · rw [hdown]
      exact iff_of_true hsome (.inl rfl)
    · have hgoes : fs.turnsDown (Path.join path name) (l ++ [name]) = false := by simpa using hdown
      rw [hgoes]
      exact .of_gone (look_lacking_append fs (by simp) List.prefix_rfl)

section
variable {spot : Location} {left : List Entry} {down : Bool}

/-- A directory stays if its removal is turned down, or something is left in it. -/
theorem survives_directory (hspot : spot ≠ [])
    (hleft : fs.root.at? spot = some (.directory left)) :
    (if down || !left.isEmpty then fs else fs.lacking spot).Survives down spot := by
  have hthere : fs.root.look spot ≠ none := by
    simp [Node.look_of_at? hleft]
  cases down with
  | true => exact iff_of_true hthere (.inl rfl)
  | false =>
    cases left with
    | nil => exact .of_gone (look_lacking_append fs hspot List.prefix_rfl)
    | cons first left => exact iff_of_true hthere (.inr ⟨first.name, Node.look_first hleft⟩)

/-- The removal of a directory is of no concern to what is in it: a directory that goes is empty. -/
theorem Survives.of_directory {inside : Bool} (h : fs.Survives inside x) (hspot : spot ≠ [])
    (hleft : fs.root.at? spot = some (.directory left)) (hx : spot <+: x) (hne : x ≠ spot) :
    (if down || !left.isEmpty then fs else fs.lacking spot).Survives inside x := by
  split
  · exact h
  · rename_i hgoes
    obtain rfl : left = [] := by
      simp only [Bool.or_eq_true, not_or, Bool.not_eq_true', Bool.not_eq_false] at hgoes
      exact List.isEmpty_iff.mp hgoes.2
    have hnothing : fs.root.look x = none := by
      obtain ⟨below, rest, rfl⟩ := Location.exists_below hx hne
      by_contra hthere
      obtain ⟨e, he, -⟩ := Node.exists_entry hleft hthere
      cases he
    rw [h.not_withheld hnothing]
    exact .of_gone (look_lacking_append fs hspot hx)

end

/-- Who survives the removal of a directory, given who survives when it is emptied. -/
theorem Faces.directory_survives {sub : List Entry} {inside : Bool} (h : Faces fs path l es)
    (he : Entry.mk name (.directory sub) ∈ es) (hx : l ++ [name] <+: x)
    (hinside : inside = true → x ≠ l ++ [name])
    (hbelow : x ≠ l ++ [name] → (fs.emptied (Path.join path name) sub).Survives inside x) :
    (fs.removeEntry path (.mk name (.directory sub))).Survives
      ((x == l ++ [name] && (fs.emptied (Path.join path name) sub).turnsDown
        (Path.join path name) (l ++ [name])) || inside) x := by
  obtain ⟨left, hleft⟩ := h.emptied_at? he
  rw [h.removeEntry_directory he hleft]
  by_cases hspot : x = l ++ [name]
  · subst hspot
    obtain rfl : inside = false := by
      rw [Bool.eq_false_iff]
      exact fun hinside' => hinside hinside' rfl
    rw [beq_self_eq_true, Bool.true_and, Bool.or_false]
    exact survives_directory (by simp) hleft
  · have hne : (x == l ++ [name]) = false := by simpa using hspot
    rw [hne, Bool.false_and, Bool.false_or]
    exact (hbelow hspot).of_directory (by simp) hleft hx hspot

mutual

theorem survives_entry {fs : FileSystem} {path : String} {l x : Location} : (e : Entry) →
    Faces fs path l [e] → l ++ [e.name] <+: x → fs.root.look x ≠ none →
    (fs.removeEntry path e).Survives (fs.withholds path l x e) x
  | .mk _ (.file _), h, hx, hsome => by
    rw [withholds]
    exact h.leaf_survives (List.mem_singleton_self _) rfl hx hsome
  | .mk _ (.link _), h, hx, hsome => by
    rw [withholds]
    exact h.leaf_survives (List.mem_singleton_self _) rfl hx hsome
  | .mk name (.directory sub), h, hx, hsome => by
    have he := List.mem_singleton_self (Entry.mk name (.directory sub))
    have hat : fs.root.at? (l ++ [name]) = some (.directory sub) := h.there _ he
    rw [withholds]
    -- Of the directory itself only its own removal decides, of what is in it the removals before.
    refine h.directory_survives he hx (fun hinside => ?_) fun hspot => ?_
    · split at hinside
      · obtain ⟨e, -, hbelow⟩ := prefix_of_withholdsAny sub hinside
        rintro rfl
        have hlength := hbelow.length_le
        simp at hlength
      · simpa using (Bool.and_eq_true_iff.mp hinside).2
    · rw [emptied]
      split
      · obtain ⟨below, rest, rfl⟩ := Location.exists_below hx hspot
        obtain ⟨e, hmem, rfl⟩ := Node.exists_entry hat hsome
        exact survives_entries sub (h.inner he) ⟨e, hmem, by simp⟩ hsome
      · have hbegins : (l ++ [name]).isPrefixOf x = true := List.isPrefixOf_iff_prefix.mpr hx
        have hne : (x != l ++ [name]) = true := by simpa using hspot
        exact iff_of_true hsome (.inl (by rw [hbegins, hne]; rfl))

/-- **Who survives the removal of entries**: what is withheld, and directories in which something
survives. -/
theorem survives_entries {fs : FileSystem} {path : String} {l x : Location} : (es : List Entry) →
    Faces fs path l es → (∃ e ∈ es, l ++ [e.name] <+: x) → fs.root.look x ≠ none →
    (fs.removeEntries path es).Survives (fs.withholdsAny path l x es) x
  | [], _, hx, _ => by
    obtain ⟨e, he, -⟩ := hx
    cases he
  | e :: es, h, hx, hsome => by
    rw [removeEntries, withholdsAny]
    by_cases hfirst : l ++ [e.name] <+: x
    · -- the others do not matter
      rw [not_withholdsAny h hfirst, Bool.or_false]
      have hkept : ∀ more, ((fs.removeEntry path e).removeEntries path es).root.look (x ++ more)
          = (fs.removeEntry path e).root.look (x ++ more) := by
        intro more
        have hapart : Apart l es (x ++ more) :=
          h.apart_tail (hfirst.trans (List.prefix_append x more))
        rw [Node.look, Node.look, removeEntries_apart es h.next hapart]
      have hhere := hkept []
      rw [List.append_nil] at hhere
      have hsurvives := survives_entry e h.head hfirst hsome
      rw [Survives] at hsurvives ⊢
      simpa only [hhere, hkept] using hsurvives
    · -- It lies below another entry, which the removal of the first leaves alone.
      obtain ⟨e', he', hx'⟩ := hx
      have hrest : e' ∈ es := by
        rcases List.mem_cons.mp he' with rfl | hrest
        · exact absurd hx' hfirst
        · exact hrest
      rw [not_withholds h hrest hx', Bool.false_or]
      refine survives_entries es h.next ⟨e', hrest, hx'⟩ ?_
      rwa [Node.look, removeEntry_apart e h.head (h.apart_head hrest hx')]

end

end FileSystem

end LazyEngine
