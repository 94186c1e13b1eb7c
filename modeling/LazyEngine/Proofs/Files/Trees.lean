/-
What stands where in a file tree.

A change at one location changes every directory above it, for a directory is its entries. What
stays is the form of those directories: what a path meets on its way is the same as before. So
trees are compared by the forms at their locations:

* **`Node.look_put`** — putting a leaf at a location changes the form there and nowhere else;
* **`Node.look_remove`** — removing a location leaves nothing there or below, and all else as it
  was;
* `Node.Within` — one tree has all that another has, in the same form.
-/
import LazyEngine.Files.Node
import Mathlib

namespace LazyEngine

/-! ### Equality -/

mutual

/-- Whether two nodes are the same, down to the last entry. -/
def Node.same : Node → Node → Bool
  | .file bytes, .file bytes' => decide (bytes = bytes')
  | .link target, .link target' => target == target'
  | .directory es, .directory es' => Entry.allSame es es'
  | _, _ => false

def Entry.same : Entry → Entry → Bool
  | .mk name node, .mk name' node' => name == name' && node.same node'

def Entry.allSame : List Entry → List Entry → Bool
  | [], [] => true
  | e :: es, e' :: es' => e.same e' && Entry.allSame es es'
  | _, _ => false

end

mutual

theorem Node.same_iff : (n m : Node) → (n.same m = true ↔ n = m)
  | .file _, m => by cases m <;> simp [Node.same]
  | .link _, m => by cases m <;> simp [Node.same]
  | .directory es, m => by
    cases m with
    | directory es' => simp [Node.same, Entry.allSame_iff es es']
    | file | link => simp [Node.same]

theorem Entry.same_iff : (e e' : Entry) → (e.same e' = true ↔ e = e')
  | .mk _ node, .mk _ node' => by simp [Entry.same, Node.same_iff node node']

theorem Entry.allSame_iff : (es es' : List Entry) → (Entry.allSame es es' = true ↔ es = es')
  | [], es' => by cases es' <;> simp [Entry.allSame]
  | e :: es, es' => by
    cases es' with
    | nil => simp [Entry.allSame]
    | cons e' es' => simp [Entry.allSame, Entry.same_iff e e', Entry.allSame_iff es es']

end

instance : DecidableEq Node := fun n m => decidable_of_iff _ (Node.same_iff n m)

instance : DecidableEq Entry := fun e e' => decidable_of_iff _ (Entry.same_iff e e')

/-! ### Forms -/

/-- What a node is, whatever a directory holds. -/
inductive Form where
  | file (bytes : ByteArray)
  | link (target : String)
  | directory
deriving DecidableEq

@[simp] theorem Entry.name_mk (name : String) (node : Node) : (Entry.mk name node).name = name :=
  rfl

@[simp] theorem Entry.node_mk (name : String) (node : Node) : (Entry.mk name node).node = node :=
  rfl

namespace Node

/-- The form of a node. -/
def form : Node → Form
  | file bytes => .file bytes
  | link target => .link target
  | directory _ => .directory

/-- The form of the node at a location. -/
def look (n : Node) (l : Location) : Option Form :=
  (n.at? l).map form

theorem form_eq_directory_iff {n : Node} : n.form = .directory ↔ n.isDirectory = true := by
  cases n <;> simp [form, isDirectory]

theorem form_eq_file_iff {n : Node} {bytes : ByteArray} :
    n.form = .file bytes ↔ n = .file bytes := by
  cases n <;> simp [form]

theorem form_eq_link_iff {n : Node} {target : String} :
    n.form = .link target ↔ n = .link target := by
  cases n <;> simp [form]

theorem look_nil (n : Node) : n.look [] = some n.form := rfl

theorem look_cons (n : Node) (name : String) (rest : Location) :
    n.look (name :: rest) = (n.child? name).bind (·.look rest) := by
  simp only [look, at?]
  cases n.child? name <;> rfl

theorem at?_append (n : Node) (l rest : Location) :
    n.at? (l ++ rest) = (n.at? l).bind (·.at? rest) := by
  induction l generalizing n with
  | nil => rfl
  | cons name l ih =>
    simp only [List.cons_append, at?]
    cases n.child? name with
    | none => rfl
    | some child => exact ih child

theorem look_append (n : Node) (l rest : Location) :
    n.look (l ++ rest) = (n.at? l).bind (·.look rest) := by
  simp only [look, at?_append]
  cases n.at? l <;> rfl

theorem look_eq_none_iff {n : Node} {l : Location} : n.look l = none ↔ n.at? l = none := by
  simp [look]

theorem look_of_at? {n m : Node} {l : Location} (h : n.at? l = some m) :
    n.look l = some m.form := by
  simp [look, h]

theorem at?_of_look_file {n : Node} {l : Location} {bytes : ByteArray}
    (h : n.look l = some (.file bytes)) : n.at? l = some (.file bytes) := by
  obtain ⟨m, hm, hform⟩ := Option.map_eq_some_iff.mp h
  rw [hm, form_eq_file_iff.mp hform]

/-- Only directories have entries. -/
theorem form_of_child? {n m : Node} {name : String} (h : n.child? name = some m) :
    n.form = .directory := by
  cases n <;> simp_all [child?, entries, form]

/-- What has something below it is a directory. -/
theorem look_above {n : Node} {l : Location} {name : String} {rest : Location}
    (h : n.look (l ++ name :: rest) ≠ none) : n.look l = some .directory := by
  rw [look_append] at h
  cases hat : n.at? l with
  | none => simp [hat] at h
  | some m =>
    rw [hat, Option.bind_some, look_cons] at h
    cases hchild : m.child? name with
    | none => simp [hchild] at h
    | some child => rw [look_of_at? hat, form_of_child? hchild]

theorem look_parent {n : Node} {l : Location} {name : String}
    (h : n.look (l ++ [name]) ≠ none) : n.look l = some .directory :=
  look_above h

/-! ### One entry -/

theorem child?_setChild {n : Node} (hn : n.form = .directory) (name : String) (value : Node)
    (other : String) :
    (n.setChild name value).child? other = if other = name then some value else n.child? other := by
  cases n with
  | file => simp [form] at hn
  | link => simp [form] at hn
  | directory es =>
    simp only [setChild, child?]
    by_cases hany : es.any (·.name == name)
    · rw [if_pos hany]
      simp only [entries, List.find?_map]
      -- Renaming no entry, the replacement is found where the old one was.
      have hsame : (fun e : Entry => e.name == other) ∘
          (fun e => if (e.name == name) = true then Entry.mk name value else e)
          = fun e => e.name == other := by
        funext e
        by_cases he : e.name = name <;> simp [he]
      rw [hsame]
      by_cases hother : other = name
      · subst hother
        obtain ⟨e, he, hname⟩ := List.any_eq_true.mp hany
        cases hfind : es.find? (·.name == other) with
        | none => exact absurd hname (List.find?_eq_none.mp hfind e he)
        | some found =>
          have hfound := List.find?_some hfind
          simp only [beq_iff_eq] at hfound
          simp [hfound]
      · rw [if_neg hother]
        cases hfind : es.find? (·.name == other) with
        | none => rfl
        | some found =>
          have hfound := List.find?_some hfind
          have hne : found.name ≠ name := fun h => hother ((beq_iff_eq.mp hfound).symm.trans h)
          simp [hne]
    · rw [if_neg hany]
      simp only [entries, List.find?_append]
      by_cases hother : other = name
      · subst hother
        have hnone : es.find? (·.name == other) = none :=
          List.find?_eq_none.mpr fun e he hname => hany (List.any_eq_true.mpr ⟨e, he, hname⟩)
        simp [hnone]
      · have : (name == other) = false := by simpa using fun h => hother h.symm
        simp [hother, this]

theorem child?_eraseChild (n : Node) (name other : String) :
    (n.eraseChild name).child? other = if other = name then none else n.child? other := by
  cases n with
  | file => simp [eraseChild, child?, entries]
  | link => simp [eraseChild, child?, entries]
  | directory es =>
    simp only [eraseChild, child?, entries, List.find?_filter]
    by_cases hother : other = name
    · subst hother
      rw [if_pos rfl, Option.map_eq_none_iff, List.find?_eq_none]
      intro e _
      by_cases he : e.name = other <;> simp [he]
    · rw [if_neg hother]
      congr 2
      funext e
      by_cases he : e.name = other <;> simp [he, hother]

theorem form_setChild (n : Node) (name : String) (value : Node) :
    (n.setChild name value).form = n.form := by
  cases n with
  | directory es => simp only [setChild]; split <;> rfl
  | file => rfl
  | link => rfl

theorem form_eraseChild (n : Node) (name : String) : (n.eraseChild name).form = n.form := by
  cases n <;> rfl

/-! ### Any location -/

/-- Below a leaf there is nothing. -/
theorem look_leaf {value : Node} (hleaf : value.entries = []) (l : Location) :
    value.look l = if l = [] then some value.form else none := by
  cases l with
  | nil => rfl
  | cons name rest => simp [look_cons, child?, hleaf]

theorem put_cons (n value : Node) (name : String) {rest : Location} (h : rest ≠ []) :
    n.put value (name :: rest) =
      match n.child? name with
      | some c => n.setChild name (c.put value rest)
      | none => n := by
  cases rest with
  | nil => exact absurd rfl h
  | cons => rfl

theorem remove_cons (n : Node) (name : String) {rest : Location} (h : rest ≠ []) :
    n.remove (name :: rest) =
      match n.child? name with
      | some c => n.setChild name (c.remove rest)
      | none => n := by
  cases rest with
  | nil => exact absurd rfl h
  | cons => rfl

/-- **A leaf that is put into a directory changes nothing but its own location**, where there is no
other directory. -/
theorem look_put {n value : Node} (hleaf : value.entries = []) {parent : Location} {name : String}
    (hparent : n.look parent = some .directory)
    (hfree : n.look (parent ++ [name]) ≠ some .directory) (l : Location) :
    (n.put value (parent ++ [name])).look l
      = if l = parent ++ [name] then some value.form else n.look l := by
  -- By induction on the parent, along with the location that is looked at.
  induction parent generalizing n l with
  | nil =>
    have hn : n.form = .directory := Option.some.inj hparent
    cases l with
    | nil => simp [put, look_nil, form_setChild]
    | cons other rest =>
      simp only [List.nil_append, put, look_cons, child?_setChild hn]
      by_cases hother : other = name
      · subst hother
        rw [if_pos rfl, Option.bind_some, look_leaf hleaf]
        by_cases hrest : rest = []
        · simp [hrest]
        · -- There was nothing below either, for there was no directory.
          obtain ⟨below, rest, rfl⟩ := List.exists_cons_of_ne_nil hrest
          have hnone : n.look (other :: below :: rest) = none := by
            by_contra h
            exact hfree (look_above (l := [other]) h)
          rw [look_cons] at hnone
          simp [hnone]
      · simp [hother]
  | cons first parent ih =>
    rw [look_cons] at hparent
    obtain ⟨child, hchild, hdirectory⟩ := Option.bind_eq_some_iff.mp hparent
    have hn : n.form = .directory := form_of_child? hchild
    have hbelow : child.look (parent ++ [name]) ≠ some .directory := by
      simpa [look_cons, hchild] using hfree
    rw [List.cons_append, put_cons n value first (by simp), hchild]
    cases l with
    | nil => simp [look_nil, form_setChild]
    | cons other rest =>
      simp only [look_cons, child?_setChild hn]
      by_cases hother : other = first
      · subst hother
        rw [if_pos rfl, Option.bind_some, ih hdirectory hbelow rest, hchild]
        simp
      · simp [hother]

/-- **Removing a location takes away what is there and below**, and nothing else. -/
theorem look_remove (n : Node) {spot : Location} (hspot : spot ≠ []) (l : Location) :
    (n.remove spot).look l = if spot <+: l then none else n.look l := by
  -- By induction on the spot, along with the location that is looked at: they part at some name, or
  -- one leads on where the other ends.
  induction spot generalizing n l with
  | nil => exact absurd rfl hspot
  | cons name rest ih =>
    cases l with
    | nil =>
      have hform : (n.remove (name :: rest)).form = n.form := by
        by_cases hrest : rest = []
        · subst hrest; exact form_eraseChild n name
        · rw [remove_cons n name hrest]
          cases n.child? name with
          | none => rfl
          | some => exact form_setChild n name _
      simp [look_nil, hform]
    | cons other l =>
      by_cases hrest : rest = []
      · subst hrest
        simp only [remove, look_cons, child?_eraseChild]
        by_cases hother : other = name
        · simp [hother]
        · have : ¬ name = other := fun h => hother h.symm
          simp [hother, List.cons_prefix_cons, this]
      · rw [remove_cons n name hrest]
        cases hchild : n.child? name with
        | none =>
          by_cases hother : name = other
          · subst hother; simp [look_cons, hchild]
          · simp [List.cons_prefix_cons, hother]
        | some child =>
          simp only [look_cons, child?_setChild (form_of_child? hchild)]
          by_cases hother : other = name
          · subst hother
            simp [ih child hrest l, hchild, List.cons_prefix_cons]
          · have : ¬ name = other := fun h => hother h.symm
            simp [hother, List.cons_prefix_cons, this]

/-! ### One tree within another -/

/-- All that a tree has, another one has in the same form at the same location. -/
def Within (small large : Node) : Prop :=
  ∀ ⦃l f⦄, small.look l = some f → large.look l = some f

theorem Within.refl (n : Node) : n.Within n := fun _ _ h => h

theorem Within.trans {n m k : Node} (h : n.Within m) (h' : m.Within k) : n.Within k :=
  fun _ _ hl => h' (h hl)

/-- What a tree lacks, a tree within it lacks as well. -/
theorem Within.look_eq_none {n m : Node} (h : n.Within m) {l : Location} (hl : m.look l = none) :
    n.look l = none := by
  cases hn : n.look l with
  | none => rfl
  | some f => rw [h hn] at hl; cases hl

theorem remove_within (n : Node) (l : Location) : (n.remove l).Within n := by
  intro other f h
  by_cases hl : l = []
  · subst hl; exact h
  · rw [look_remove n hl] at h
    split at h
    · cases h
    · exact h

end Node

end LazyEngine
