/-
Where paths lead, in one tree and in another.

A walk looks at nothing but the forms of the nodes that it meets. `Walk.go` is the walk by
locations, with the forms as its only view of the tree, and `Walk.follow_spot` says that it is the
same walk. So trees that look alike along the way take a path to the same end:

* **`Walk.go_mono`** — what a path leads to, it leads to in every larger tree;
* **`Walk.go_fill`** — the free name, or the file, that a path to a file leads to is where the path
  leads once a file has been put there;
* **`Walk.go_parent`** — the path of an entry leads through the directory that its first part leads
  to.

The facts about `FileSystem.goal` below are these facts for paths as texts.
-/
import LazyEngine.Files.FileSystem
import LazyEngine.Proofs.Files.Trees

namespace LazyEngine

/-! ### Paths as steps -/

namespace Path

/-- A text that can be the name of an entry. -/
structure IsName (name : String) : Prop where
  nonempty : name ≠ ""
  no_dot : name ≠ "."
  no_dots : name ≠ ".."
  no_slash : '/' ∉ name.toList

instance (name : String) : Decidable (IsName name) :=
  decidable_of_iff (name ≠ "" ∧ name ≠ "." ∧ name ≠ ".." ∧ '/' ∉ name.toList)
    ⟨fun ⟨h, h', h'', h'''⟩ => ⟨h, h', h'', h'''⟩,
      fun h => ⟨h.nonempty, h.no_dot, h.no_dots, h.no_slash⟩⟩

/-- The steps of a path without the mark of a slash at its end. -/
def names (path : String) : List String :=
  (steps path).filter (· ≠ "")

theorem names_eq (path : String) : names path = (parts path).filter (· ≠ "") := by
  simp only [names, steps]
  split
  · simp [List.filter_append, List.filter_filter]
  · simp [List.filter_filter]

/-- At its end, a path has a slash or not. -/
theorem steps_eq (path : String) : steps path = names path ∨ steps path = names path ++ [""] := by
  rw [names_eq, steps]
  split
  · exact .inr rfl
  · exact .inl rfl

/-- A slash alone is no step. -/
theorem steps_ne_slash (path : String) : steps path ≠ [""] := by
  intro h
  have hnames : names path = [] := by simp [names, h]
  rw [names_eq] at hnames
  have hsteps : steps path = [] := by simp only [steps]; rw [hnames]; simp
  rw [hsteps] at h
  cases h

theorem nonempty_of_mem_names {path name : String} (h : name ∈ names path) : name ≠ "" := by
  simpa using (List.mem_filter.mp h).2

theorem parts_append_slash (before after : String) :
    parts (before ++ "/" ++ after) = parts before ++ parts after := by
  simp only [parts, String.toList_append]
  rw [show "/".toList = ['/'] from rfl, List.append_assoc, List.singleton_append,
    List.splitOnP_append_cons _ _ (by simp), List.map_append]

theorem parts_of_isName {name : String} (h : IsName name) : parts name = [name] := by
  rw [parts, List.splitOnP_eq_singleton]
  · simp
  · intro c hc
    have : c ≠ '/' := fun hslash => h.no_slash (hslash ▸ hc)
    simpa using this

/-- What ends in a slash has something before it. -/
theorem exists_of_endsInSlash {path : String} (h : endsInSlash path) :
    ∃ before, path = before ++ "/" := by
  have hlast : path.toList.getLast? = some '/' := by simpa [endsInSlash] using h
  obtain ⟨before, hbefore⟩ := List.getLast?_eq_some_iff.mp hlast
  refine ⟨String.ofList before, ?_⟩
  rw [← String.ofList_toList (s := path), hbefore, String.ofList_append]

/-- The path of an entry is a text with a slash before the name. -/
theorem exists_join {path : String} (name : String) (hpath : path ≠ "") :
    ∃ before, join path name = before ++ "/" ++ name ∧ (path = before ∨ path = before ++ "/") := by
  have hempty : path.isEmpty = false := by simpa using hpath
  by_cases h : endsInSlash path
  · obtain ⟨before, rfl⟩ := exists_of_endsInSlash h
    exact ⟨before, by simp [join, hempty, h], .inr rfl⟩
  · exact ⟨path, by simp [join, hempty, h], .inl rfl⟩

/-- The steps of an entry are those of its directory, and its name. -/
theorem steps_join {path name : String} (hpath : path ≠ "") (hname : IsName name) :
    steps (join path name) = names path ++ [name] := by
  obtain ⟨before, hjoin, hbefore⟩ := exists_join name hpath
  have hparts : parts (join path name) = parts before ++ [name] := by
    rw [hjoin, parts_append_slash, parts_of_isName hname]
  have hnames : names path = (parts before).filter (· ≠ "") := by
    obtain rfl | rfl := hbefore
    · exact names_eq _
    · have hslash := parts_append_slash before ""
      rw [String.append_empty] at hslash
      rw [names_eq, hslash]
      simp [parts]
  have hend : endsInSlash (join path name) = false := by
    have hne : name.toList ≠ [] := by simpa using hname.nonempty
    have : (join path name).toList.getLast? = some (name.toList.getLast hne) := by
      rw [hjoin, String.toList_append, List.getLast?_append, List.getLast?_eq_some_getLast hne]
      rfl
    have hlast : name.toList.getLast hne ≠ '/' := fun h =>
      hname.no_slash (h ▸ List.getLast_mem hne)
    simpa [endsInSlash, this] using hlast
  simp [steps, hend, hparts, hnames, hname.nonempty]

theorem isAbsolute_join {path name : String} (hpath : path ≠ "") :
    isAbsolute (join path name) = isAbsolute path := by
  have hempty : path.isEmpty = false := by simpa using hpath
  have hne : path.toList ≠ [] := by simpa using hpath
  have happend : ∀ rest : String, isAbsolute (path ++ rest) = isAbsolute path := by
    intro rest
    simp [isAbsolute, List.head?_append_of_ne_nil _ hne]
  by_cases h : endsInSlash path
  · simp only [join, hempty, h, if_true, Bool.false_eq_true, if_false]
    exact happend name
  · simp only [join, hempty, h, Bool.false_eq_true, if_false, String.append_assoc]
    exact happend _

/-- A path that the file system looks at. -/
structure Allowed (path : String) : Prop where
  no_nul : '\x00' ∉ path.toList
  nonempty : path ≠ ""
  short : path.utf8ByteSize ≤ Walk.longestPath

/-- The directory of an allowed path is allowed. -/
theorem Allowed.of_join {path name : String} (hpath : path ≠ "") (h : Allowed (join path name)) :
    Allowed path := by
  obtain ⟨rest, hrest⟩ : ∃ rest, join path name = path ++ rest := by
    have hempty : path.isEmpty = false := by simpa using hpath
    by_cases hslash : endsInSlash path
    · exact ⟨name, by simp [join, hempty, hslash]⟩
    · exact ⟨"/" ++ name, by simp [join, hempty, hslash, String.append_assoc]⟩
  obtain ⟨hnul, -, hshort⟩ := h
  rw [hrest] at hnul hshort
  refine ⟨fun hmem => hnul ?_, hpath, ?_⟩
  · rw [String.toList_append]
    exact List.mem_append_left _ hmem
  · rw [String.utf8ByteSize_append] at hshort
    omega

end Path

/-! ### Walks by locations -/

/-- Where a path leads, whatever is there. -/
inductive Spot where
  | node (location : Location) (slash : Bool)
  | free (parent : Location) (name : String) (slash : Bool)

/-- The location that something would have that is put there. -/
def Spot.location : Spot → Location
  | node location _ => location
  | free parent name _ => parent ++ [name]

def Destination.spot : Destination → Spot
  | node location _ slash => .node location slash
  | free parent name slash => .free parent name slash

/-- A destination in a tree: the node is the one at the location. -/
def Destination.In (root : Node) : Destination → Prop
  | node location n _ => root.at? location = some n
  | free _ _ _ => True

namespace Trail

/-- A trail that has been taken from the root of a tree. -/
def Taken (root : Node) : Trail → Prop
  | [] => True
  | (name, node) :: rest => (last root rest).child? name = some node ∧ Taken root rest

@[simp] theorem location_cons (name : String) (node : Node) (trail : Trail) :
    Trail.location ((name, node) :: trail) = trail.location ++ [name] := by
  simp [location]

theorem location_tail (trail : Trail) : Trail.location trail.tail = trail.location.dropLast := by
  cases trail with
  | nil => rfl
  | cons step trail => obtain ⟨name, node⟩ := step; simp

theorem Taken.tail {root : Node} {trail : Trail} (h : Taken root trail) :
    Taken root trail.tail := by
  cases trail with
  | nil => exact h
  | cons step trail => exact h.2

theorem Taken.at? {root : Node} {trail : Trail} (h : Taken root trail) :
    root.at? trail.location = some (trail.last root) := by
  induction trail with
  | nil => rfl
  | cons step trail ih =>
    obtain ⟨name, node⟩ := step
    rw [location_cons, Node.at?_append, ih h.2, Option.bind_some]
    simp only [Node.at?, h.1]; rfl

theorem Taken.look {root : Node} {trail : Trail} (h : Taken root trail) :
    root.look trail.location = some (trail.last root).form :=
  Node.look_of_at? h.at?

theorem Taken.look_child {root : Node} {trail : Trail} (h : Taken root trail) (name : String) :
    root.look (trail.location ++ [name]) = ((trail.last root).child? name).map Node.form := by
  rw [Node.look_append, h.at?, Option.bind_some, Node.look_cons]
  cases (trail.last root).child? name <;> rfl

/-- Going on along a location leads to it, if there is something. -/
theorem Taken.extend? {root : Node} {trail : Trail} (h : Taken root trail) (l : Location) :
    match Trail.extend? root trail l with
    | some longer => Taken root longer ∧ longer.location = trail.location ++ l
    | none => root.look (trail.location ++ l) = none := by
  induction l generalizing trail with
  | nil => simpa [Trail.extend?] using h
  | cons name l ih =>
    rw [Trail.extend?]
    have hassoc : trail.location ++ name :: l = trail.location ++ [name] ++ l := by simp
    cases hchild : (trail.last root).child? name with
    | none =>
      have hnone : root.look (trail.location ++ [name]) = none := by
        rw [h.look_child, hchild]; rfl
      simp only [hassoc]
      rw [Node.look_append, Node.look_eq_none_iff.mp hnone]
      rfl
    | some node =>
      have hlonger : Taken root ((name, node) :: trail) := ⟨hchild, h⟩
      simpa only [location_cons, hassoc] using ih hlonger

end Trail

namespace Walk

/-- A step that is looked up in a directory, for what comes after it. -/
structure Enters (aim : Aim) (step : String) (rest : List String) : Prop where
  not_slash : step = "" → rest = [] → False
  no_dot : step ≠ "."
  no_dots : step ≠ ".."
  no_slash_after_file : ¬(aim = .file ∧ rest = [""])
  short : step.utf8ByteSize ≤ longestName

/-- A step is looked up whatever the walk is for, unless it is to write a file. -/
theorem Enters.of_aim {aim aim' : Aim} {step : String} {rest : List String} (haim : aim' ≠ .file)
    (h : Enters aim step rest) : Enters aim' step rest :=
  ⟨h.not_slash, h.no_dot, h.no_dots, fun hfile => haim hfile.1, h.short⟩

/-- And if it is a name, whatever comes after it. -/
theorem Enters.of_name {aim aim' : Aim} {step : String} {rest rest' : List String}
    (haim : aim' ≠ .file) (hne : step ≠ "") (h : Enters aim step rest) : Enters aim' step rest' :=
  ⟨fun hempty _ => hne hempty, h.no_dot, h.no_dots, fun hfile => haim hfile.1, h.short⟩

/-- Where steps lead from a location, through at most so many links, if `look` is what stands
where. -/
inductive Leads (look : Location → Option Form) (aim : Aim) :
    Nat → Location → List String → Spot → Prop
  | stop {n : Nat} {here : Location} : Leads look aim n here [] (.node here false)
  | slash {n : Nat} {here : Location} : Leads look aim n here [""] (.node here true)
  | stay {n : Nat} {here : Location} {rest : List String} {s : Spot} :
      look here = some .directory → Leads look aim n here rest s →
      Leads look aim n here ("." :: rest) s
  | up {n : Nat} {here : Location} {rest : List String} {s : Spot} :
      look here = some .directory → Leads look aim n here.dropLast rest s →
      Leads look aim n here (".." :: rest) s
  | free {n : Nat} {here : Location} {step : String} {rest : List String} :
      look here = some .directory → Enters aim step rest →
      look (here ++ [step]) = none → isEnd rest →
      Leads look aim n here (step :: rest) (.free here step (!rest.isEmpty))
  /-- The link at the end is meant. -/
  | last {n : Nat} {here : Location} {step target : String} {rest : List String} :
      look here = some .directory → Enters aim step rest →
      look (here ++ [step]) = some (.link target) → isEnd rest → aim = .entry →
      Leads look aim n here (step :: rest) (.node (here ++ [step]) (!rest.isEmpty))
  | link {n : Nat} {here : Location} {step target : String} {rest : List String} {s : Spot} :
      look here = some .directory → Enters aim step rest →
      look (here ++ [step]) = some (.link target) → ¬(isEnd rest ∧ aim = .entry) → target ≠ "" →
      Leads look aim n (if Path.isAbsolute target then [] else here) (throughLink target rest) s →
      Leads look aim (n + 1) here (step :: rest) s
  | enter {n : Nat} {here : Location} {step : String} {f : Form} {rest : List String} {s : Spot} :
      look here = some .directory → Enters aim step rest →
      look (here ++ [step]) = some f → (∀ target, f ≠ .link target) →
      Leads look aim n (here ++ [step]) rest s →
      Leads look aim n here (step :: rest) s

variable {root : Node} {aim : Aim}

private theorem look_of_last {trail : Trail} (htrail : trail.Taken root) {es : List Entry}
    (hlast : trail.last root = .directory es) : root.look trail.location = some .directory := by
  rw [htrail.look, hlast]
  rfl

private theorem look_of_child? {trail : Trail} (htrail : trail.Taken root) {es : List Entry}
    (hlast : trail.last root = .directory es) {name : String} {child : Option Node}
    (hchild : (Node.directory es).child? name = child) :
    root.look (trail.location ++ [name]) = child.map Node.form := by
  rw [htrail.look_child, hlast, hchild]

/-- Walks step by step, for any way to go on behind a link that agrees with `Leads`. -/
theorem leads_of_followWith {onLink : Trail → List String → Except FileError Destination} {n : Nat}
    (hlink : ∀ {trail steps d}, Trail.Taken root trail → onLink trail steps = .ok d →
      ∃ k, n = k + 1 ∧ Leads root.look aim k trail.location steps d.spot)
    {trail : Trail} {steps : List String} {d : Destination} (htrail : trail.Taken root)
    (h : followWith onLink root aim trail steps = .ok d) :
    Leads root.look aim n trail.location steps d.spot := by
  fun_induction followWith onLink root aim trail steps
  case case1 => cases h; exact .stop
  case case2 => cases h; exact .slash
  -- The branches that fail lead nowhere; each of the others is a constructor.
  case case3 trail rest es hlast _ ih => exact .stay (look_of_last htrail hlast) (ih htrail h)
  case case4 trail rest es hlast _ _ ih =>
    refine .up (look_of_last htrail hlast) ?_
    rw [← Trail.location_tail]
    exact ih htrail.tail h
  case case7 trail step rest hslash es hlast hdot hdots hfile hlong hchild hend =>
    cases h
    exact .free (look_of_last htrail hlast) ⟨hslash, hdot, hdots, hfile, Nat.le_of_not_lt hlong⟩
      (look_of_child? htrail hlast hchild) hend
  case case9 trail step rest hslash es hlast hdot hdots hfile hlong target hchild hend =>
    cases h
    rw [arrive, Destination.spot, Trail.location_cons]
    exact .last (look_of_last htrail hlast) ⟨hslash, hdot, hdots, hfile, Nat.le_of_not_lt hlong⟩
      (look_of_child? htrail hlast hchild) hend.1 hend.2
  case case11 trail step rest hslash es hlast hdot hdots hfile hlong target hchild hend htarget =>
    have hstart : Trail.Taken root (if Path.isAbsolute target then [] else trail) := by
      split
      · trivial
      · exact htrail
    obtain ⟨k, rfl, hleads⟩ := hlink hstart h
    refine .link (look_of_last htrail hlast) ⟨hslash, hdot, hdots, hfile, Nat.le_of_not_lt hlong⟩
      (look_of_child? htrail hlast hchild) hend (by simpa using htarget) ?_
    split <;> simp_all [Trail.location]
  case case12 trail step rest hslash es hlast hdot hdots hfile hlong node hnode hchild ih =>
    refine .enter (look_of_last htrail hlast) ⟨hslash, hdot, hdots, hfile, Nat.le_of_not_lt hlong⟩
      (look_of_child? htrail hlast hchild) (fun target ht => hnode target ?_) ?_
    · exact Node.form_eq_link_iff.mp ht
    · rw [← Trail.location_cons step node]
      exact ih ⟨by rw [hlast]; exact hchild, htrail⟩ h
  all_goals cases h

theorem leads_of_follow {n : Nat} {trail : Trail} {steps : List String} {d : Destination}
    (htrail : trail.Taken root) (h : follow root aim n trail steps = .ok d) :
    Leads root.look aim n trail.location steps d.spot := by
  induction n generalizing trail steps d with
  | zero => exact leads_of_followWith (fun _ h => by cases h) htrail h
  | succ n ih => exact leads_of_followWith (fun htrail h => ⟨n, rfl, ih htrail h⟩) htrail h

theorem follow_nil (n : Nat) (trail : Trail) :
    follow root aim n trail [] = .ok (arrive root trail false) := by
  cases n <;> rfl

theorem follow_slash (n : Nat) (trail : Trail) :
    follow root aim n trail [""] = .ok (arrive root trail true) := by
  cases n <;> rfl

theorem follow_stay (n : Nat) {trail : Trail} {es : List Entry} (rest : List String)
    (hlast : trail.last root = .directory es) :
    follow root aim n trail ("." :: rest) = follow root aim n trail rest := by
  cases n <;> rw [follow, followWith.eq_3 _ _ _ _ _ _ (by simp), hlast] <;> rfl

theorem follow_up (n : Nat) {trail : Trail} {es : List Entry} (rest : List String)
    (hlast : trail.last root = .directory es) :
    follow root aim n trail (".." :: rest) = follow root aim n trail.tail rest := by
  cases n <;> rw [follow, followWith.eq_3 _ _ _ _ _ _ (by simp), hlast] <;> rfl

/-- A name is looked up in the directory that the trail ends at. -/
theorem follow_enters (n : Nat) {trail : Trail} {es : List Entry} {step : String}
    {rest : List String} (hlast : trail.last root = .directory es) (h : Enters aim step rest) :
    follow root aim n trail (step :: rest)
      = match (Node.directory es).child? step with
        | none =>
          if isEnd rest then .ok (.free trail.location step (!rest.isEmpty)) else .error .notFound
        | some (.link target) =>
          if isEnd rest ∧ aim = .entry then
            .ok (arrive root ((step, .link target) :: trail) (!rest.isEmpty))
          else if target.isEmpty then .error .notFound
          else match n with
            | 0 => .error .tooManyLinks
            | n + 1 =>
              follow root aim n (if Path.isAbsolute target then [] else trail)
                (throughLink target rest)
        | some node => follow root aim n ((step, node) :: trail) rest := by
  cases n <;>
  · rw [follow, followWith.eq_3 _ _ _ _ _ _ h.not_slash, hlast]
    refine (if_neg h.no_dot).trans ?_
    refine (if_neg h.no_dots).trans ?_
    refine (if_neg h.no_slash_after_file).trans ?_
    exact (if_neg (Nat.not_lt.mpr h.short)).trans rfl

theorem follow_of_leads {n : Nat} {here : Location} {steps : List String} {s : Spot}
    (h : Leads root.look aim n here steps s) {trail : Trail} (htrail : trail.Taken root)
    (hhere : trail.location = here) :
    ∃ d, follow root aim n trail steps = .ok d ∧ d.spot = s ∧ d.In root := by
  -- The end of the trail is the directory, and has the entry, that `look` shows.
  have hdirectory : ∀ {trail : Trail}, trail.Taken root →
      root.look trail.location = some .directory → ∃ es, trail.last root = .directory es := by
    intro trail htrail hlook
    rw [htrail.look, Option.some.injEq, Node.form_eq_directory_iff] at hlook
    cases hlast : trail.last root <;> simp_all [Node.isDirectory]
  have hentry : ∀ {trail : Trail} {es : List Entry} {step : String},
      trail.Taken root → trail.last root = .directory es →
      root.look (trail.location ++ [step]) = ((Node.directory es).child? step).map Node.form := by
    intro trail es step htrail hlast
    rw [htrail.look_child, hlast]
  induction h generalizing trail with
  | stop =>
    subst hhere
    exact ⟨_, follow_nil _ _, rfl, htrail.at?⟩
  | slash =>
    subst hhere
    exact ⟨_, follow_slash _ _, rfl, htrail.at?⟩
  | stay hlook _ ih =>
    subst hhere
    obtain ⟨es, hlast⟩ := hdirectory htrail hlook
    rw [follow_stay _ _ hlast]
    exact ih htrail rfl
  | up hlook _ ih =>
    subst hhere
    obtain ⟨es, hlast⟩ := hdirectory htrail hlook
    rw [follow_up _ _ hlast]
    exact ih htrail.tail (Trail.location_tail trail)
  | free hlook henters hfree hend =>
    subst hhere
    obtain ⟨es, hlast⟩ := hdirectory htrail hlook
    rw [hentry htrail hlast, Option.map_eq_none_iff] at hfree
    rw [follow_enters _ hlast henters, hfree]
    simp [hend, Destination.spot, Destination.In]
  | last hlook henters hlink hend haim =>
    subst hhere
    obtain ⟨es, hlast⟩ := hdirectory htrail hlook
    rw [hentry htrail hlast] at hlink
    obtain ⟨node, hchild, hform⟩ := Option.map_eq_some_iff.mp hlink
    rw [Node.form_eq_link_iff.mp hform] at hchild
    have htaken : Trail.Taken root ((_, _) :: trail) := ⟨by rw [hlast]; exact hchild, htrail⟩
    rw [follow_enters _ hlast henters, hchild]
    simp only [hend, haim, and_self, if_true]
    refine ⟨_, rfl, ?_, htaken.at?⟩
    simp [arrive, Destination.spot]
  | link hlook henters hlink hend htarget _ ih =>
    subst hhere
    obtain ⟨es, hlast⟩ := hdirectory htrail hlook
    rw [hentry htrail hlast] at hlink
    obtain ⟨node, hchild, hform⟩ := Option.map_eq_some_iff.mp hlink
    rw [follow_enters _ hlast henters, hchild, Node.form_eq_link_iff.mp hform]
    simp only [hend, if_false, String.isEmpty_iff, htarget]
    refine ih ?_ ?_
    · split
      · trivial
      · exact htrail
    · split <;> rfl
  | enter hlook henters hsome hno _ ih =>
    subst hhere
    obtain ⟨es, hlast⟩ := hdirectory htrail hlook
    rw [hentry htrail hlast] at hsome
    obtain ⟨node, hchild, hform⟩ := Option.map_eq_some_iff.mp hsome
    rw [follow_enters _ hlast henters, hchild]
    have htaken : Trail.Taken root ((_, node) :: trail) := ⟨by rw [hlast]; exact hchild, htrail⟩
    cases node with
    | link target => exact absurd hform.symm (hno target)
    | file => exact ih htaken (Trail.location_cons _ _ _)
    | directory => exact ih htaken (Trail.location_cons _ _ _)

/-- A walk is what `Leads` says it is, and it ends in the tree. -/
theorem follow_eq_ok_iff {n : Nat} {trail : Trail} {steps : List String} {d : Destination}
    (htrail : trail.Taken root) :
    follow root aim n trail steps = .ok d
      ↔ Leads root.look aim n trail.location steps d.spot ∧ d.In root := by
  constructor
  · intro h
    have hleads := leads_of_follow htrail h
    obtain ⟨d', h', -, hin⟩ := follow_of_leads hleads htrail rfl
    rw [h] at h'
    cases h'
    exact ⟨hleads, hin⟩
  · rintro ⟨hleads, hin⟩
    obtain ⟨d', h, hspot, hin'⟩ := follow_of_leads hleads htrail rfl
    suffices d' = d by rw [h, this]
    cases d <;> cases d' <;> simp_all [Destination.spot, Destination.In]

/-! ### The same path in another tree -/

variable {look look' : Location → Option Form}

/-- **What steps lead to, they lead to in every larger tree.** -/
theorem Leads.mono (hsub : ∀ l f, look l = some f → look' l = some f) {n : Nat} {here : Location}
    {steps : List String} {l : Location} {slash : Bool}
    (h : Leads look aim n here steps (.node l slash)) :
    Leads look' aim n here steps (.node l slash) := by
  generalize hs : Spot.node l slash = s at h
  induction h with
  | stop => exact .stop
  | slash => exact .slash
  | stay hlook _ ih => exact .stay (hsub _ _ hlook) (ih hs)
  | up hlook _ ih => exact .up (hsub _ _ hlook) (ih hs)
  | free => cases hs
  | last hlook henters hlink hend haim =>
    exact .last (hsub _ _ hlook) henters (hsub _ _ hlink) hend haim
  | link hlook henters hlink hend htarget _ ih =>
    exact .link (hsub _ _ hlook) henters (hsub _ _ hlink) hend htarget (ih hs)
  | enter hlook henters hsome hno _ ih =>
    exact .enter (hsub _ _ hlook) henters (hsub _ _ hsome) hno (ih hs)

/-- Steps to a name that is free end with it. -/
theorem Leads.free_parent {n : Nat} {here : Location} {steps : List String} {parent : Location}
    {name : String} {slash : Bool} (h : Leads look aim n here steps (.free parent name slash)) :
    look parent = some .directory ∧ look (parent ++ [name]) = none := by
  generalize hs : Spot.free parent name slash = s at h
  induction h with
  | stop | slash | last => cases hs
  | stay _ _ ih | up _ _ ih | link _ _ _ _ _ _ ih | enter _ _ _ _ _ ih => exact ih hs
  | free hlook _ hfree _ => cases hs; exact ⟨hlook, hfree⟩

/-- **Where a file is to be written, there it is found**, once it has been put there. `look` and
`look'` differ only at that location, which held a file or nothing. -/
theorem Leads.fill {n : Nat} {here : Location} {steps : List String} {s : Spot} {bytes : ByteArray}
    (habove : ∀ l name, look (l ++ [name]) ≠ none → look l = some .directory)
    (hold : ∀ f, look s.location = some f → ∃ bytes, f = .file bytes)
    (hnew : look' s.location = some (.file bytes))
    (hsame : ∀ l, l ≠ s.location → look' l = look l)
    (hsteps : steps = [""] → look here = some .directory)
    (h : Leads look .file n here steps s) :
    Leads look' .target n here steps (.node s.location false) := by
  have hkeep : ∀ l f, look l = some f → (∀ bytes, f ≠ .file bytes) → look' l = some f := by
    intro l f hl hf
    rw [hsame l, hl]
    rintro rfl
    obtain ⟨bytes, rfl⟩ := hold f hl
    exact hf bytes rfl
  have hdirectory : ∀ l, look l = some .directory → look' l = some .directory :=
    fun l hl => hkeep l _ hl (by simp)
  have hrest : ∀ {step rest}, Enters .file step rest → rest ≠ [""] :=
    fun h hrest => h.no_slash_after_file ⟨rfl, hrest⟩
  induction h with
  | stop => exact .stop
  | slash =>
    obtain ⟨bytes, h⟩ := hold _ (hsteps rfl)
    cases h
  | stay hlook _ ih => exact .stay (hdirectory _ hlook) (ih hold hnew hsame (fun _ => hlook))
  | @up n here rest s hlook _ ih =>
    refine .up (hdirectory _ hlook) (ih hold hnew hsame fun _ => ?_)
    -- The directory above a directory is one.
    rcases List.eq_nil_or_concat here with rfl | ⟨l, name, rfl⟩
    · exact hlook
    · rw [List.concat_eq_append, List.dropLast_concat]
      rw [List.concat_eq_append] at hlook
      exact habove l name (by rw [hlook]; simp)
  | @free n here step rest hlook henters hfree hend =>
    -- Only a name can come last, and it is a file now.
    have hnil : rest = [] := by
      have := hrest henters
      simp_all [isEnd]
    subst hnil
    exact .enter (hdirectory _ hlook) (henters.of_aim (by simp)) hnew (by simp) .stop
  | last _ _ _ _ haim => cases haim
  | link hlook henters hlink _ hne _ ih =>
    refine .link (hdirectory _ hlook) (henters.of_aim (by simp)) (hkeep _ _ hlink (by simp))
      (by simp) hne (ih hold hnew hsame fun h => absurd h ?_)
    rw [throughLink]
    split
    · exact Path.steps_ne_slash _
    · rename_i hne
      intro h
      rcases List.append_eq_singleton_iff.mp h with ⟨_, h⟩ | ⟨_, h⟩
      · exact hrest henters h
      · exact hne (by simp [h])
  | @enter n here step f rest s hlook henters hsome hno hleads ih =>
    have hih := ih hold hnew hsame fun h => absurd h (hrest henters)
    by_cases hspot : here ++ [step] = s.location
    · rw [← hspot] at hnew
      exact .enter (hdirectory _ hlook) (henters.of_aim (by simp)) hnew (by simp) hih
    · refine .enter (hdirectory _ hlook) (henters.of_aim (by simp)) ?_ hno hih
      rw [hsame _ hspot, hsome]

/-- **A path to a name leads through the directory before the name**: the steps before it, with or
without a slash, lead to a directory, and from there the name leads to the same end. -/
theorem Leads.split {n : Nat} {here : Location} {names : List String} {name : String} {s : Spot}
    (hnames : ∀ step ∈ names, step ≠ "") (hname : Path.IsName name)
    (h : Leads look aim n here (names ++ [name]) s) :
    ∃ parent k, look parent = some .directory ∧
      (∀ mark, mark = [] ∨ mark = [""] →
        ∃ slash, Leads look .target n here (names ++ mark) (.node parent slash)) ∧
      Leads look aim k parent [name] s := by
  generalize hsteps : names ++ [name] = steps at h
  -- The name itself is not a step that stays, goes up or is left out.
  have hrest : ∀ {step : String} {rest names : List String}, names ++ [name] = step :: rest →
      (names = [] ∧ step = name ∧ rest = []) ∨
        ∃ names', names = step :: names' ∧ names' ++ [name] = rest := by
    intro step rest names h
    cases names with
    | nil => cases h; exact .inl ⟨rfl, rfl, rfl⟩
    | cons first names => cases h; exact .inr ⟨names, rfl, rfl⟩
  have hmore : ∀ names : List String, ¬isEnd (names ++ [name]) := by
    rintro (_ | ⟨first, names⟩) <;> simp [isEnd, hname.nonempty]
  have hstand : ∀ {n : Nat} (here : Location) {mark : List String}, mark = [] ∨ mark = [""] →
      ∃ slash, Leads look .target n here mark (.node here slash) := by
    rintro n here mark (rfl | rfl)
    · exact ⟨false, .stop⟩
    · exact ⟨true, .slash⟩
  induction h generalizing names with
  | stop => simp at hsteps
  | slash =>
    rcases hrest hsteps with ⟨-, h, -⟩ | ⟨names', -, h⟩
    · exact absurd h.symm hname.nonempty
    · simp at h
  | stay hlook _ ih =>
    rcases hrest hsteps with ⟨-, h, -⟩ | ⟨names', rfl, h⟩
    · exact absurd h.symm hname.no_dot
    · obtain ⟨parent, k, hparent, hleads, hend⟩ :=
        ih (fun step hstep => hnames step (by simp [hstep])) h
      exact ⟨parent, k, hparent, fun mark hmark =>
        (hleads mark hmark).imp fun _ h => .stay hlook h, hend⟩
  | up hlook _ ih =>
    rcases hrest hsteps with ⟨-, h, -⟩ | ⟨names', rfl, h⟩
    · exact absurd h.symm hname.no_dots
    · obtain ⟨parent, k, hparent, hleads, hend⟩ :=
        ih (fun step hstep => hnames step (by simp [hstep])) h
      exact ⟨parent, k, hparent, fun mark hmark =>
        (hleads mark hmark).imp fun _ h => .up hlook h, hend⟩
  | @free n here step rest hlook henters hfree hend =>
    rcases hrest hsteps with ⟨rfl, rfl, rfl⟩ | ⟨names', rfl, rfl⟩
    · exact ⟨here, n, hlook, fun mark hm => hstand here hm, .free hlook henters hfree hend⟩
    · exact absurd hend (hmore names')
  | @last n here step target rest hlook henters hlink hend haim =>
    rcases hrest hsteps with ⟨rfl, rfl, rfl⟩ | ⟨names', rfl, rfl⟩
    · exact ⟨here, n, hlook, fun mark hm => hstand here hm, .last hlook henters hlink hend haim⟩
    · exact absurd hend (hmore names')
  | @link n here step target rest s hlook henters hlink hend hne h ih =>
    rcases hrest hsteps with ⟨rfl, rfl, rfl⟩ | ⟨names', rfl, rfl⟩
    · exact ⟨here, n + 1, hlook, fun mark hm => hstand here hm,
        .link hlook henters hlink hend hne h⟩
    · have hthrough : throughLink target (names' ++ [name])
          = (Path.names target ++ names') ++ [name] := by
        simp [throughLink, Path.names]
      obtain ⟨parent, k, hparent, hleads, hend⟩ := ih
        (fun step hstep => (List.mem_append.mp hstep).elim Path.nonempty_of_mem_names
          fun h => hnames step (List.mem_cons_of_mem _ h)) hthrough.symm
      refine ⟨parent, k, hparent, fun mark hm => ?_, hend⟩
      -- A link that comes last is replaced by its target with the slash that the target has.
      obtain ⟨mark', hm', heq⟩ : ∃ mark', (mark' = [] ∨ mark' = [""]) ∧
          throughLink target (names' ++ mark) = (Path.names target ++ names') ++ mark' := by
        by_cases hempty : names' ++ mark = []
        · obtain ⟨rfl, rfl⟩ := List.append_eq_nil_iff.mp hempty
          rcases Path.steps_eq target with h | h
          · exact ⟨[], .inl rfl, by simp [throughLink, h]⟩
          · exact ⟨[""], .inr rfl, by simp [throughLink, h]⟩
        · refine ⟨mark, hm, ?_⟩
          rw [throughLink, if_neg (by simpa using hempty), List.append_assoc]
          rfl
      obtain ⟨slash, hleads⟩ := hleads mark' hm'
      rw [← heq] at hleads
      exact ⟨slash, .link hlook (henters.of_name (by simp) (hnames step (by simp))) hlink (by simp)
        hne hleads⟩
  | @enter n here step f rest s hlook henters hsome hno h ih =>
    rcases hrest hsteps with ⟨rfl, rfl, rfl⟩ | ⟨names', rfl, rfl⟩
    · exact ⟨here, n, hlook, fun mark hm => hstand here hm, .enter hlook henters hsome hno h⟩
    · obtain ⟨parent, k, hparent, hleads, hend⟩ :=
        ih (fun step hstep => hnames step (by simp [hstep])) rfl
      exact ⟨parent, k, hparent, fun mark hm =>
        (hleads mark hm).imp fun _ h =>
          .enter hlook (henters.of_name (by simp) (hnames step (by simp))) hsome hno h, hend⟩

/-- A name that is no link, or that is meant itself, leads to the entry of that name. -/
theorem Leads.name_eq {n : Nat} {parent : Location} {name : String} {l : Location} {slash : Bool}
    (hname : Path.IsName name)
    (hlink : aim = .entry ∨ ∀ target, look (parent ++ [name]) ≠ some (.link target))
    (h : Leads look aim n parent [name] (.node l slash)) : l = parent ++ [name] := by
  cases h with
  | slash => exact absurd rfl hname.nonempty
  | stay => exact absurd rfl hname.no_dot
  | up => exact absurd rfl hname.no_dots
  | last => rfl
  | link _ _ hsome hend => exact (hlink.elim (fun haim => hend ⟨rfl, haim⟩) fun h => h _ hsome).elim
  | enter _ _ _ _ h => cases h; rfl

/-- **The path of an entry leads through its directory**: through the end of the steps before the
name, with or without a slash. -/
theorem Leads.parent {n : Nat} {here : Location} {names : List String} {name : String}
    {l : Location} {slash : Bool} (hnames : ∀ step ∈ names, step ≠ "") (hname : Path.IsName name)
    (h : Leads look .entry n here (names ++ [name]) (.node l slash)) :
    ∃ parent, l = parent ++ [name] ∧ look parent = some .directory ∧
      ∀ mark, mark = [] ∨ mark = [""] →
        ∃ slash, Leads look .target n here (names ++ mark) (.node parent slash) := by
  obtain ⟨parent, k, hparent, hleads, hend⟩ := h.split hnames hname
  exact ⟨parent, hend.name_eq hname (.inl rfl), hparent, hleads⟩

end Walk

/-! ### Paths as texts -/

namespace FileSystem

variable {fs fs' : FileSystem} {aim : Aim} {path : String}

/-- Where a path begins. -/
def start (fs : FileSystem) (path : String) : Location :=
  if Path.isAbsolute path then [] else fs.here

/-- Where a path leads. -/
structure Leads (fs : FileSystem) (aim : Aim) (path : String) (s : Spot) : Prop where
  allowed : Path.Allowed path
  begins : fs.root.look (fs.start path) ≠ none
  leads : Walk.Leads fs.root.look aim Walk.linkLimit (fs.start path) (Path.steps path) s

/-- The walk along a path ends where the path leads, in the tree. -/
theorem walk_eq_ok_iff {d : Destination} :
    fs.walk aim path = .ok d ↔ fs.Leads aim path d.spot ∧ d.In fs.root := by
  have hempty : Trail.Taken fs.root [] := trivial
  have hextend := hempty.extend? (fs.start path)
  have hbegin : Trail.location [] ++ fs.start path = fs.start path := rfl
  rw [hbegin] at hextend
  rw [walk, show (if Path.isAbsolute path then _ else fs.here) = fs.start path from rfl]
  -- A path that the system does not take leads nowhere.
  by_cases hnul : '\x00' ∈ path.toList
  · rw [if_pos (by simpa using hnul)]
    exact iff_of_false (by simp) (fun h => absurd hnul h.1.allowed.no_nul)
  rw [if_neg (by simpa using hnul)]
  by_cases hblank : path = ""
  · rw [if_pos (by simpa using hblank)]
    exact iff_of_false (by simp) (fun h => absurd hblank h.1.allowed.nonempty)
  rw [if_neg (by simpa using hblank)]
  by_cases hlong : Walk.longestPath < path.utf8ByteSize
  · rw [if_pos hlong]
    exact iff_of_false (by simp) (fun h => absurd h.1.allowed.short (Nat.not_le.mpr hlong))
  rw [if_neg hlong]
  cases htrail : Trail.extend? fs.root [] (fs.start path) with
  | none =>
    rw [htrail] at hextend
    exact iff_of_false (by simp) (fun h => absurd hextend h.1.begins)
  | some trail =>
    rw [htrail] at hextend
    obtain ⟨htaken, hlocation⟩ := hextend
    simp only
    rw [Walk.follow_eq_ok_iff htaken, hlocation]
    refine and_congr_left fun _ => ⟨fun h => ⟨⟨hnul, hblank, Nat.le_of_not_lt hlong⟩, ?_, h⟩,
      fun h => h.leads⟩
    rw [← hlocation, htaken.look]
    simp

/-- What a path is found to lead to. -/
theorem find_eq_ok_iff {l : Location} {n : Node} :
    fs.find path = .ok (l, n) ↔
      fs.root.at? l = some n ∧
        ∃ slash, fs.Leads .target path (.node l slash) ∧ (slash → n.isDirectory) := by
  constructor
  · intro h
    rw [find] at h
    cases hwalk : fs.walk .target path with
    | error e => rw [hwalk] at h; cases h
    | ok d =>
      rw [hwalk] at h
      obtain ⟨hleads, hin⟩ := walk_eq_ok_iff.mp hwalk
      cases d with
      | free => cases h
      | node l' n' slash =>
        simp only at h
        split at h
        · cases h
        · rename_i hslash
          cases h
          exact ⟨hin, slash, hleads, fun hs => by simpa [hs] using hslash⟩
  · rintro ⟨hat, slash, hleads, hslash⟩
    have hwalk : fs.walk .target path = .ok (.node l n slash) :=
      walk_eq_ok_iff.mpr ⟨hleads, hat⟩
    rw [find, hwalk]
    simp only
    rw [if_neg]
    simpa using hslash

/-- Where a path leads in a tree, it leads in every larger one. -/
theorem Leads.mono (hwithin : fs.root.Within fs'.root) (hhere : fs'.here = fs.here)
    {l : Location} {slash : Bool} (h : fs.Leads aim path (.node l slash)) :
    fs'.Leads aim path (.node l slash) := by
  have hstart : fs'.start path = fs.start path := by rw [start, start, hhere]
  refine ⟨h.allowed, ?_, ?_⟩
  · rw [hstart]
    obtain ⟨f, hf⟩ := Option.ne_none_iff_exists'.mp h.begins
    simp [hwithin hf]
  · rw [hstart]
    exact h.leads.mono fun _ _ hl => hwithin hl

/-- What a path leads to in a tree, it leads to in every larger one, in the same form. -/
theorem find_mono (hwithin : fs.root.Within fs'.root) (hhere : fs'.here = fs.here)
    {l : Location} {n : Node} (h : fs.find path = .ok (l, n)) :
    ∃ n', fs'.find path = .ok (l, n') ∧ n'.form = n.form := by
  obtain ⟨hat, slash, hleads, hslash⟩ := find_eq_ok_iff.mp h
  obtain ⟨n', hat', hform⟩ := Option.map_eq_some_iff.mp (hwithin (Node.look_of_at? hat))
  refine ⟨n', find_eq_ok_iff.mpr ⟨hat', slash, hleads.mono hwithin hhere, fun hs => ?_⟩, hform⟩
  rw [← Node.form_eq_directory_iff, hform, Node.form_eq_directory_iff]
  exact hslash hs

/-- The path of an entry leads through the directory that the path before it leads to. -/
theorem Leads.split {name : String} {s : Spot} (hpath : path ≠ "") (hname : Path.IsName name)
    (h : fs.Leads aim (Path.join path name) s) :
    ∃ parent es k, fs.find path = .ok (parent, .directory es) ∧
      Walk.Leads fs.root.look aim k parent [name] s := by
  have hstart : fs.start (Path.join path name) = fs.start path := by
    rw [start, start, Path.isAbsolute_join hpath]
  obtain ⟨hallowed, hbegins, hleads⟩ := h
  rw [hstart] at hbegins hleads
  rw [Path.steps_join hpath hname] at hleads
  obtain ⟨parent, k, hparent, hleads, hend⟩ :=
    hleads.split (fun _ hstep => Path.nonempty_of_mem_names hstep) hname
  obtain ⟨slash', hleads⟩ : ∃ slash, Walk.Leads fs.root.look .target Walk.linkLimit
      (fs.start path) (Path.steps path) (.node parent slash) := by
    rcases Path.steps_eq path with h | h
    · rw [h, ← List.append_nil (Path.names path)]
      exact hleads [] (.inl rfl)
    · rw [h]
      exact hleads [""] (.inr rfl)
  obtain ⟨n, hat, hform⟩ := Option.map_eq_some_iff.mp hparent
  cases n with
  | file | link => cases hform
  | directory es =>
    exact ⟨parent, es, k, find_eq_ok_iff.mpr
      ⟨hat, slash', ⟨hallowed.of_join hpath, hbegins, hleads⟩, fun _ => rfl⟩, hend⟩

/-- The path of an entry leads to the entry of the directory that the path before it leads to. -/
theorem Leads.parent {name : String} {l : Location} {slash : Bool} (hpath : path ≠ "")
    (hname : Path.IsName name) (h : fs.Leads .entry (Path.join path name) (.node l slash)) :
    ∃ parent es, l = parent ++ [name] ∧ fs.find path = .ok (parent, .directory es) := by
  obtain ⟨parent, es, k, hfind, hend⟩ := h.split hpath hname
  exact ⟨parent, es, hend.name_eq hname (.inl rfl), hfind⟩

/-- An entry that is no link is found in its directory. -/
theorem find_join {name : String} {l : Location} {n : Node} (hpath : path ≠ "")
    (hname : Path.IsName name) (h : fs.find (Path.join path name) = .ok (l, n))
    (hlink : ∀ parent es, fs.find path = .ok (parent, .directory es) →
      ∀ target, fs.root.look (parent ++ [name]) ≠ some (.link target)) :
    ∃ parent es, l = parent ++ [name] ∧ fs.find path = .ok (parent, .directory es) := by
  obtain ⟨-, slash, hleads, -⟩ := find_eq_ok_iff.mp h
  obtain ⟨parent, es, k, hfind, hend⟩ := hleads.split hpath hname
  exact ⟨parent, es, hend.name_eq hname (.inr (hlink parent es hfind)), hfind⟩

end FileSystem

end LazyEngine
