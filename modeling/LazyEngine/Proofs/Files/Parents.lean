/-
A path, its parent, and its ancestors.

`Path.parent?` cuts the last name out of the text of a path, and with it the trivial parts that come
before and after that name. So the parent of an entry's path need not be the path that the entry's
name was joined to, but only that path without the trivial parts at its end:

* `Path.body`, `Path.ofBody` — the parts of a path that count for its parent, and the path that has
  them;
* **`Path.parent?_join`** — the parent of an entry's path is the path before it, tidied up;
* **`Path.ancestors_eq`** — a path comes first among its ancestors, the others are those of its
  parent;
* `Path.steps_tidy` — the steps of a path are those of the tidy one, and then nothing but dots and a
  slash.
-/
import LazyEngine.Proofs.Files.Walks

namespace LazyEngine.Path

/-! ### Parts -/

/-- What is split at slashes holds none. -/
theorem no_slash_of_mem_splitOnP {chars piece : List Char}
    (h : piece ∈ chars.splitOnP (· == '/')) : '/' ∉ piece := by
  induction chars generalizing piece with
  | nil =>
    have hnil : piece = [] := by simpa using h
    simp [hnil]
  | cons c rest ih =>
    rw [List.splitOnP_cons_eq_if_modifyHead] at h
    by_cases hc : c = '/'
    · rw [if_pos (by simpa using hc), List.mem_cons] at h
      rcases h with rfl | hmem
      · exact List.not_mem_nil
      · exact ih hmem
    · rw [if_neg (by simpa using hc)] at h
      obtain ⟨first, others, hsplit⟩ :=
        List.exists_cons_of_ne_nil (List.splitOnP_ne_nil (· == '/') rest)
      rw [hsplit, List.modifyHead_cons, List.mem_cons] at h
      rw [hsplit] at ih
      rcases h with rfl | hmem
      · have hfirst := ih (List.mem_cons_self : first ∈ first :: others)
        simp [hfirst, Ne.symm hc]
      · exact ih (List.mem_cons_of_mem first hmem)

/-- No part holds a slash. -/
theorem no_slash_of_mem_parts {path part : String} (h : part ∈ parts path) :
    '/' ∉ part.toList := by
  obtain ⟨piece, hpiece, rfl⟩ := List.mem_map.mp h
  rw [String.toList_ofList]
  exact no_slash_of_mem_splitOnP hpiece

theorem parts_ne_nil (path : String) : parts path ≠ [] := by
  simp [parts]

theorem parts_of_no_slash {part : String} (h : '/' ∉ part.toList) : parts part = [part] := by
  rw [parts, List.splitOnP_eq_singleton]
  · simp
  · intro c hc
    have : c ≠ '/' := fun hslash => h (hslash ▸ hc)
    simpa using this

/-- A slash at the beginning is behind an empty part. -/
theorem parts_slash (rest : String) : parts ("/" ++ rest) = "" :: parts rest := by
  have happend := parts_append_slash "" rest
  rwa [String.empty_append] at happend

/-- Parts that are put together come apart again. -/
theorem parts_intercalate {ps : List String} (hne : ps ≠ []) (h : ∀ p ∈ ps, '/' ∉ p.toList) :
    parts ("/".intercalate ps) = ps := by
  induction ps with
  | nil => exact absurd rfl hne
  | cons p ps ih =>
    have hp := parts_of_no_slash (h p (by simp))
    by_cases hps : ps = []
    · subst hps
      simpa using hp
    · rw [String.intercalate_cons_of_ne_nil hps, parts_append_slash, hp,
        ih hps fun q hq => h q (by simp [hq])]
      rfl

/-- A relative path begins with a part that is not empty. -/
theorem head?_parts {path : String} (hpath : path ≠ "") (h : isAbsolute path = false) :
    (parts path).head? ≠ some "" := by
  obtain ⟨c, cs, hcs⟩ := List.exists_cons_of_ne_nil (by simpa using hpath : path.toList ≠ [])
  have hc : c ≠ '/' := by simpa [isAbsolute, hcs] using h
  obtain ⟨first, others, hsplit⟩ :=
    List.exists_cons_of_ne_nil (List.splitOnP_ne_nil (· == '/') cs)
  rw [parts, hcs, List.splitOnP_cons_eq_if_modifyHead, if_neg (by simpa using hc), hsplit]
  simp [String.ofList_eq_empty_iff]

/-! ### Trivial parts at the end -/

theorem strip_eq (absolute : Bool) (ps : List String) :
    strip absolute ps =
      if ps.rdropWhile isTrivial = [] ∧ absolute = false ∧ ps.head? = some "." then ["."]
      else ps.rdropWhile isTrivial := by
  simp only [strip, ← List.rdropWhile.eq_1, Bool.and_eq_true, List.isEmpty_iff, Bool.not_eq_true',
    beq_iff_eq, and_assoc]

/-- Only trivial parts are dropped. -/
theorem exists_strip (absolute : Bool) (ps : List String) :
    ∃ rest, ps = strip absolute ps ++ rest ∧ ∀ p ∈ rest, isTrivial p = true := by
  rw [strip_eq]
  split
  · rename_i h
    obtain ⟨hkept, -, hhead⟩ := h
    obtain ⟨rest, rfl⟩ := List.head?_eq_some_iff.mp hhead
    have hall := List.rdropWhile_eq_nil_iff.mp hkept
    exact ⟨rest, rfl, fun p hp => hall p (by simp [hp])⟩
  · exact ⟨ps.rtakeWhile isTrivial, List.rdropWhile_append_rtakeWhile.symm,
      fun p hp => List.mem_rtakeWhile_imp hp⟩

theorem strip_strip (absolute : Bool) (ps : List String) :
    strip absolute (strip absolute ps) = strip absolute ps := by
  rw [strip_eq absolute ps]
  split
  · rename_i h
    obtain ⟨-, rfl, -⟩ := h
    decide
  · rename_i h
    rw [strip_eq, List.rdropWhile_idempotent]
    split
    · rename_i h'
      obtain ⟨hkept, -, hhead⟩ := h'
      simp [hkept] at hhead
    · rfl

/-- Trivial parts that are added at the end are dropped. -/
theorem strip_append (absolute : Bool) {ps rest : List String} (hne : absolute = false → ps ≠ [])
    (h : ∀ p ∈ rest, isTrivial p = true) : strip absolute (ps ++ rest) = strip absolute ps := by
  have hkept : (ps ++ rest).rdropWhile isTrivial = ps.rdropWhile isTrivial := by
    induction rest using List.reverseRecOn with
    | nil => simp
    | append_singleton rest p ih =>
      rw [← List.append_assoc, List.rdropWhile_concat_pos _ _ _ (h p (by simp)),
        ih fun q hq => h q (by simp [hq])]
  rw [strip_eq, strip_eq, hkept]
  cases absolute with
  | true => simp
  | false => rw [List.head?_append_of_ne_nil _ (hne rfl)]

/-- A part that is not trivial is kept, with all before it. -/
theorem strip_concat (absolute : Bool) (ps : List String) {p : String} (h : isTrivial p = false) :
    strip absolute (ps ++ [p]) = ps ++ [p] := by
  rw [strip_eq, List.rdropWhile_concat_neg _ _ _ (by simp [h])]
  simp

/-! ### The parts that count -/

/-- Parts as they count for the parent of a path: no slashes, nothing trivial at the end, and a
beginning that tells a relative path from an absolute one. -/
structure IsBody (absolute : Bool) (ps : List String) : Prop where
  no_slash : ∀ p ∈ ps, '/' ∉ p.toList
  stripped : strip absolute ps = ps
  begins : absolute = false → ps.head? ≠ some ""

/-- The parts of a path, without the one before the slash that an absolute path begins with. -/
def raw (path : String) : List String :=
  if isAbsolute path then (parts path).drop 1 else parts path

/-- The parts of a path that count for its parent. -/
def body (path : String) : List String :=
  strip (isAbsolute path) (raw path)

/-- The path that has these parts. -/
def ofBody (absolute : Bool) (ps : List String) : String :=
  if absolute then "/" ++ "/".intercalate ps else "/".intercalate ps

/-- The path without what does not count at its end. -/
def tidy (path : String) : String :=
  ofBody (isAbsolute path) (body path)

theorem parent?_eq (path : String) :
    parent? path = if body path = [] then none
      else some (ofBody (isAbsolute path) (strip (isAbsolute path) (body path).dropLast)) := by
  by_cases h : body path = []
  · rw [if_pos h]
    exact if_pos (List.isEmpty_iff.mpr h)
  · rw [if_neg h]
    exact if_neg (mt List.isEmpty_iff.mp h)

theorem IsBody.strip {absolute : Bool} {ps : List String} (h : ∀ p ∈ ps, '/' ∉ p.toList)
    (hbegins : absolute = false → ps.head? ≠ some "") : IsBody absolute (strip absolute ps) := by
  obtain ⟨rest, hps, -⟩ := exists_strip absolute ps
  refine ⟨fun p hp => h p ?_, strip_strip absolute ps, fun habsolute hhead => ?_⟩
  · rw [hps]
    exact List.mem_append_left _ hp
  · refine hbegins habsolute ?_
    obtain ⟨others, hcons⟩ := List.head?_eq_some_iff.mp hhead
    rw [hps, hcons]
    rfl

theorem no_slash_of_mem_raw {path part : String} (h : part ∈ raw path) : '/' ∉ part.toList := by
  rw [raw] at h
  split at h
  · exact no_slash_of_mem_parts (List.mem_of_mem_drop h)
  · exact no_slash_of_mem_parts h

theorem isBody_body {path : String} (hpath : path ≠ "") : IsBody (isAbsolute path) (body path) :=
  .strip (fun _ hp => no_slash_of_mem_raw hp) fun h => by
    rw [raw, h]
    exact head?_parts hpath h

/-- No empty part is left at the end. -/
theorem IsBody.last_ne {absolute : Bool} {ps : List String} {last : String}
    (h : IsBody absolute (ps ++ [last])) : last ≠ "" := by
  rintro rfl
  have hstripped := h.stripped
  rw [strip_eq, List.rdropWhile_concat_pos _ _ _ (by decide)] at hstripped
  split at hstripped
  · have hlast := congrArg List.getLast? hstripped
    simp at hlast
  · have hlength := congrArg List.length hstripped
    have hle := (List.rdropWhile_prefix isTrivial (l := ps)).length_le
    simp only [List.length_append, List.length_singleton] at hlength
    omega

/-- A path that is put together from such parts has them. -/
theorem IsBody.ofBody {absolute : Bool} {ps : List String} (h : IsBody absolute ps) :
    isAbsolute (ofBody absolute ps) = absolute ∧ body (ofBody absolute ps) = ps := by
  -- What stands between the slashes are the parts again.
  have hparts : Path.strip absolute (parts ("/".intercalate ps)) = ps := by
    by_cases hps : ps = []
    · subst hps
      cases absolute <;> decide
    · rw [parts_intercalate hps h.no_slash, h.stripped]
  cases absolute with
  | true =>
    have habsolute : isAbsolute (Path.ofBody true ps) = true := by simp [isAbsolute, Path.ofBody]
    refine ⟨habsolute, ?_⟩
    rw [body, habsolute, raw, habsolute, Path.ofBody, if_pos rfl, if_pos rfl, parts_slash]
    exact hparts
  | false =>
    have habsolute : isAbsolute (Path.ofBody false ps) = false := by
      cases ps with
      | nil => decide
      | cons p ps =>
        have hp : p ≠ "" := fun hp => h.begins rfl (by simp [hp])
        obtain ⟨c, cs, hcs⟩ := List.exists_cons_of_ne_nil (by simpa using hp : p.toList ≠ [])
        have hc : c ≠ '/' := fun hc => h.no_slash p (by simp) (by simp [hcs, hc])
        -- A path that is not absolute begins with its first part, and so with no slash.
        have hfirst : (Path.ofBody false (p :: ps)).toList.head? = some c := by
          by_cases hps : ps = []
          · simp [Path.ofBody, hps, hcs]
          · rw [Path.ofBody, if_neg Bool.false_ne_true, String.intercalate_cons_of_ne_nil hps]
            simp [hcs]
        rw [isAbsolute, hfirst]
        simpa using hc
    refine ⟨habsolute, ?_⟩
    rw [body, habsolute, raw, habsolute]
    exact hparts

theorem isAbsolute_tidy {path : String} (hpath : path ≠ "") :
    isAbsolute (tidy path) = isAbsolute path :=
  (isBody_body hpath).ofBody.1

theorem body_tidy {path : String} (hpath : path ≠ "") : body (tidy path) = body path :=
  (isBody_body hpath).ofBody.2

theorem tidy_ne_empty {path : String} (hpath : path ≠ "") : tidy path ≠ "" := by
  intro h
  have habsolute := isAbsolute_tidy hpath
  have hbody := body_tidy hpath
  rw [h] at habsolute hbody
  have hrelative : isAbsolute path = false := habsolute.symm.trans (by decide)
  have hempty : body path = [] := hbody.symm.trans (by decide)
  -- A relative path has a first part that is not empty, and keeps it if it is a dot.
  obtain ⟨rest, hraw, htrivial⟩ := exists_strip (isAbsolute path) (raw path)
  rw [← body, hempty, List.nil_append] at hraw
  have hhead := head?_parts hpath hrelative
  have hparts : raw path = parts path := by rw [raw, hrelative]; rfl
  obtain ⟨first, others, hcons⟩ := List.exists_cons_of_ne_nil (parts_ne_nil path)
  have hfirst : isTrivial first = true := by
    refine htrivial first ?_
    rw [← hraw, hparts, hcons]
    simp
  have hdot : first = "." := by
    have hne : first ≠ "" := by simpa [hcons] using hhead
    simpa [isTrivial, hne] using hfirst
  rw [body, strip_eq, hparts, hrelative, hcons, hdot] at hempty
  split at hempty
  · cases hempty
  · rename_i h
    exact h ⟨hempty, rfl, rfl⟩

/-- The parent of a path is tidy, and has one part less. -/
theorem body_of_parent? {path parent : String} (hpath : path ≠ "")
    (h : parent? path = some parent) :
    body path ≠ [] ∧ isAbsolute parent = isAbsolute path ∧
      body parent = strip (isAbsolute path) (body path).dropLast ∧ tidy parent = parent := by
  rw [parent?_eq] at h
  split at h
  · cases h
  rename_i hne
  cases h
  have hbody := isBody_body hpath
  have habove : IsBody (isAbsolute path) (strip (isAbsolute path) (body path).dropLast) := by
    refine .strip (fun p hp => hbody.no_slash p (List.dropLast_subset _ hp)) fun hr hhead => ?_
    refine hbody.begins hr ?_
    obtain ⟨others, hcons⟩ := List.head?_eq_some_iff.mp hhead
    rw [← List.dropLast_append_getLast hne, hcons]
    rfl
  obtain ⟨habsolute, hparent⟩ := habove.ofBody
  exact ⟨hne, habsolute, hparent, by rw [tidy, habsolute, hparent]⟩

/-- **The parent of an entry's path is the path before it, tidied up.** -/
theorem parent?_join (path : String) {name : String} (hname : IsName name) :
    parent? (join path name) = some (tidy path) := by
  have hkept : isTrivial name = false := by
    simp [isTrivial, hname.nonempty, hname.no_dot]
  by_cases hpath : path = ""
  · subst hpath
    have hjoin : join "" name = name := by simp [join]
    have habsolute : isAbsolute name = false := by
      have : name.toList.head? ≠ some '/' := fun h => hname.no_slash (List.mem_of_mem_head? h)
      simpa [isAbsolute] using this
    have hbody : body name = [name] := by
      rw [body, habsolute, raw, habsolute, parts_of_isName hname]
      exact strip_concat false [] hkept
    rw [hjoin, parent?_eq, hbody, habsolute]
    rfl
  · have habsolute : isAbsolute (join path name) = isAbsolute path := isAbsolute_join hpath
    obtain ⟨before, hjoin, hbefore⟩ := exists_join name hpath
    have hparts : parts (join path name) = parts before ++ [name] := by
      rw [hjoin, parts_append_slash, parts_of_isName hname]
    obtain ⟨rest, hrest, hpathparts⟩ : ∃ rest, (∀ p ∈ rest, isTrivial p = true) ∧
        parts path = parts before ++ rest := by
      rcases hbefore with rfl | rfl
      · exact ⟨[], by simp, by simp⟩
      · refine ⟨[""], by simp [isTrivial], ?_⟩
        have happend := parts_append_slash before ""
        rwa [String.append_empty] at happend
    -- Without its name, the entry's path has the parts of the path but for trivial ones at the end.
    have hraw : ∃ ps, raw (join path name) = ps ++ [name] ∧ raw path = ps ++ rest ∧
        (isAbsolute path = false → ps ≠ []) := by
      obtain ⟨first, others, hcons⟩ := List.exists_cons_of_ne_nil (parts_ne_nil before)
      cases h : isAbsolute path with
      | true =>
        exact ⟨others, by simp [raw, habsolute, h, hparts, hcons],
          by simp [raw, h, hpathparts, hcons], by simp⟩
      | false =>
        exact ⟨parts before, by simp [raw, habsolute, h, hparts], by simp [raw, h, hpathparts],
          fun _ => parts_ne_nil before⟩
    obtain ⟨ps, hjoined, hplain, hne⟩ := hraw
    have hbody : body (join path name) = ps ++ [name] := by
      rw [body, hjoined, strip_concat _ _ hkept]
    rw [parent?_eq, hbody, if_neg (by simp), List.dropLast_concat, habsolute, tidy, body, hplain,
      strip_append _ hne hrest]

/-! ### Steps -/

/-- Steps that lead nowhere else: dots, and possibly a slash at the end. -/
inductive Idle : List String → Prop
  | nil : Idle []
  | slash : Idle [""]
  | dot {rest : List String} : Idle rest → Idle ("." :: rest)

theorem Idle.of_dot {rest : List String} (h : Idle ("." :: rest)) : Idle rest := by
  generalize hsteps : "." :: rest = steps at h
  cases h with
  | nil => cases hsteps
  | slash => simp at hsteps
  | dot h => cases hsteps; exact h

theorem Idle.not_up {rest : List String} : ¬Idle (".." :: rest) := by
  intro h
  generalize hsteps : ".." :: rest = steps at h
  cases h <;> simp at hsteps

theorem Idle.of_trivial {ps mark : List String} (h : ∀ p ∈ ps, isTrivial p = true)
    (hmark : Idle mark) : Idle (ps.filter (· ≠ "") ++ mark) := by
  induction ps with
  | nil => exact hmark
  | cons p ps ih =>
    have hps := ih fun q hq => h q (by simp [hq])
    by_cases hp : p = ""
    · simpa [hp] using hps
    · have hdot : p = "." := by simpa [isTrivial, hp] using h p (by simp)
      subst hdot
      rw [List.filter_cons_of_pos (by simp), List.cons_append]
      exact .dot hps

theorem names_eq_raw (path : String) : names path = (raw path).filter (· ≠ "") := by
  rw [names_eq, raw]
  split
  · rename_i habsolute
    have hhead : path.toList.head? = some '/' := by simpa [isAbsolute] using habsolute
    obtain ⟨cs, hcs⟩ := List.head?_eq_some_iff.mp hhead
    have hpath : path = "/" ++ String.ofList cs := by
      rw [← String.toList_inj, hcs]
      simp
    rw [hpath, parts_slash]
    rfl
  · rfl

theorem parts_ofBody {absolute : Bool} {ps : List String} (h : IsBody absolute ps) (hps : ps ≠ []) :
    parts (ofBody absolute ps) = (if absolute then [""] else []) ++ ps := by
  have hparts := parts_intercalate hps h.no_slash
  cases absolute with
  | true => rw [ofBody, if_pos rfl, parts_slash, hparts]; rfl
  | false => exact hparts

theorem IsBody.names_ofBody {absolute : Bool} {ps : List String} (h : IsBody absolute ps) :
    names (Path.ofBody absolute ps) = ps.filter (· ≠ "") := by
  rw [names_eq]
  by_cases hps : ps = []
  · subst hps
    cases absolute <;> decide
  · rw [parts_ofBody h hps, List.filter_append]
    cases absolute <;> rfl

theorem names_tidy {path : String} (hpath : path ≠ "") :
    names (tidy path) = (body path).filter (· ≠ "") :=
  (isBody_body hpath).names_ofBody

/-- A tidy path does not end with a slash that counts. -/
theorem steps_tidy_eq {path : String} (hpath : path ≠ "") :
    steps (tidy path) = names (tidy path) := by
  by_cases hempty : names (tidy path) = []
  · rcases steps_eq (tidy path) with h | h
    · exact h
    · rw [hempty, List.nil_append] at h
      exact absurd h (steps_ne_slash _)
  have hbody := isBody_body hpath
  have hne : body path ≠ [] := by
    intro h
    rw [names_tidy hpath, h] at hempty
    exact hempty rfl
  obtain ⟨ps, last, hps⟩ : ∃ ps last, body path = ps ++ [last] :=
    ⟨_, _, (List.dropLast_append_getLast hne).symm⟩
  -- A tidy path ends with the last part of its body, which is not empty.
  have hlast : (parts (tidy path)).getLast? = some last := by
    rw [tidy, hps, parts_ofBody (hps ▸ hbody) (by simp)]
    simp
  have hend : endsInSlash (tidy path) = false := by
    by_contra h
    obtain ⟨before, hbefore⟩ := exists_of_endsInSlash (by simpa using h)
    have happend := parts_append_slash before ""
    rw [String.append_empty] at happend
    rw [hbefore, happend] at hlast
    have hnil : last = "" := by simpa [parts] using hlast.symm
    exact (hps ▸ hbody).last_ne hnil
  rw [steps, hend, ← names_eq]
  rfl

/-- **The steps of a path are those of the tidy one**, and then none that lead elsewhere. -/
theorem steps_tidy {path : String} (hpath : path ≠ "") :
    ∃ more, Idle more ∧ steps path = names (tidy path) ++ more := by
  obtain ⟨rest, hraw, htrivial⟩ := exists_strip (isAbsolute path) (raw path)
  have hnames : names path = names (tidy path) ++ rest.filter (· ≠ "") := by
    rw [names_eq_raw, names_tidy hpath, hraw, ← body, List.filter_append]
  rcases steps_eq path with h | h
  · exact ⟨_, .of_trivial htrivial .nil, by rw [h, hnames, List.append_nil]⟩
  · exact ⟨_, .of_trivial htrivial .slash, by rw [h, hnames, List.append_assoc]⟩

theorem length_body_le (path : String) : (body path).length ≤ (parts path).length := by
  obtain ⟨rest, hraw, -⟩ := exists_strip (isAbsolute path) (raw path)
  have hle : (raw path).length ≤ (parts path).length := by
    rw [raw]
    split
    · simp
    · exact Nat.le_refl _
  rw [← body] at hraw
  rw [hraw, List.length_append] at hle
  omega

theorem length_body_parent? {path parent : String} (h : parent? path = some parent) :
    (body parent).length < (body path).length := by
  by_cases hpath : path = ""
  · rw [hpath, parent?_eq, if_pos (by decide)] at h
    cases h
  obtain ⟨hne, -, hparent, -⟩ := body_of_parent? hpath h
  obtain ⟨rest, hstrip, -⟩ := exists_strip (isAbsolute path) (body path).dropLast
  have hlength := congrArg List.length hstrip
  rw [List.length_dropLast, List.length_append, ← hparent] at hlength
  have := List.length_pos_iff.mpr hne
  omega

theorem ancestorsWithin_of_body {path : String} (h : body path = []) (n : Nat) :
    ancestorsWithin n path = [path] := by
  have hparent : parent? path = none := by rw [parent?_eq, if_pos h]
  cases n with
  | zero => rfl
  | succ n => simp [ancestorsWithin, hparent]

/-- So many steps up are enough for all ancestors. -/
theorem ancestorsWithin_eq {n m : Nat} {path : String} (hn : (body path).length ≤ n)
    (hm : (body path).length ≤ m) : ancestorsWithin n path = ancestorsWithin m path := by
  induction n generalizing m path with
  | zero =>
    have hempty : body path = [] := List.length_eq_zero_iff.mp (Nat.le_zero.mp hn)
    rw [ancestorsWithin_of_body hempty, ancestorsWithin_of_body hempty]
  | succ n ih =>
    cases m with
    | zero =>
      have hempty : body path = [] := List.length_eq_zero_iff.mp (Nat.le_zero.mp hm)
      rw [ancestorsWithin_of_body hempty, ancestorsWithin_of_body hempty]
    | succ m =>
      rw [ancestorsWithin, ancestorsWithin]
      cases hparent : parent? path with
      | none => rfl
      | some parent =>
        have hlt := length_body_parent? hparent
        simp only [Option.map_some, Option.getD_some]
        rw [ih (Nat.le_of_lt_succ (Nat.lt_of_lt_of_le hlt hn))
          (Nat.le_of_lt_succ (Nat.lt_of_lt_of_le hlt hm))]

/-- **A path comes first among its ancestors**; the others are those of its parent. -/
theorem ancestors_eq (path : String) :
    ancestors path = path :: ((parent? path).map ancestors).getD [] := by
  obtain ⟨n, hn⟩ := Nat.exists_eq_succ_of_ne_zero
    (Nat.ne_of_gt (List.length_pos_iff.mpr (parts_ne_nil path)))
  rw [ancestors, hn, ancestorsWithin]
  cases hparent : parent? path with
  | none => rfl
  | some parent =>
    have hlt := length_body_parent? hparent
    have hle := length_body_le path
    simp only [Option.map_some, Option.getD_some, ancestors]
    rw [ancestorsWithin_eq (by omega) (length_body_le parent)]

end LazyEngine.Path
