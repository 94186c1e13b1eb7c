/-
Switch files.

A switch file is written by spacing out words, among them one for each switch:

* `Switches.Lists` — a text lists these switches, in order and with repetitions, among other words;
* `Switches.exists_lists_iff` — the switches that can be listed at all;
* **`Switches.ofText_of_lists`** — they are what is read from it;
* **`Switches.switches_listed`** — what an engine is started with, for every such file, and again
  when that has been written to the file; and without a file if the engine is not debuggable.

Design notes: every text lists some switches, namely those that are read from it, so the theorems
leave out no file. Only the two dashes at the beginning of a word are dropped: a switch may begin
with dashes itself.
-/
import LazyEngine.Config
import LazyEngine.Proofs.Files.Contents
import LazyEngine.Proofs.Text.Words

namespace LazyEngine.Switches

open Text

/-- The word that names a switch. -/
def dashed (switch : String) : List Char :=
  '-' :: '-' :: switch.toList

/-- A word begins with two dashes and goes on. -/
def NamesSwitch (w : List Char) : Prop :=
  ['-', '-'] <+: w ∧ w ≠ ['-', '-']

instance (w : List Char) : Decidable (NamesSwitch w) :=
  inferInstanceAs (Decidable (_ ∧ _))

/-- Words with blanks between them, of which those that name switches name these, in order. -/
def Lists (switches : List String) (text : String) : Prop :=
  ∃ words, Spaced words text.toList ∧ words.filter (NamesSwitch ·) = switches.map dashed

/-! ### Which switches can be listed -/

theorem isWord_dashed {switch : String} (h : IsWord switch.toList) : IsWord (dashed switch) :=
  (h.cons (c := '-') (by decide)).cons (c := '-') (by decide)

theorem namesSwitch_dashed {switch : String} (h : IsWord switch.toList) :
    NamesSwitch (dashed switch) :=
  ⟨⟨switch.toList, rfl⟩, by simpa [dashed] using h.nonempty⟩

/-- One switch a line. -/
def lines (switches : List String) : List Char :=
  switches.flatMap fun switch => dashed switch ++ ['\n']

theorem spaced_lines {switches : List String} (h : ∀ x ∈ switches, IsWord x.toList) :
    Spaced (switches.map dashed) (lines switches) := by
  induction switches with
  | nil => exact .none areBlank_nil
  | cons x switches ih =>
    have hrest := ih fun y hy => h y (by simp [hy])
    have hbreak : isBlank '\n' = true := by decide
    have hline := Spaced.next areBlank_nil (isWord_dashed (h x (by simp))) hbreak hrest
    simpa [lines] using hline

/-- **Any switches can be listed** that are not empty and have no blanks, and no others. -/
theorem exists_lists_iff {switches : List String} :
    (∃ text, Lists switches text) ↔ ∀ x ∈ switches, IsWord x.toList := by
  constructor
  · rintro ⟨text, words, hspaced, hnamed⟩ x hx
    have hmem : dashed x ∈ words.filter (NamesSwitch ·) := hnamed ▸ List.mem_map_of_mem hx
    obtain ⟨hword, hnames⟩ := List.mem_filter.mp hmem
    refine ⟨fun hnil => (of_decide_eq_true hnames).2 (by rw [dashed, hnil]), fun c hc => ?_⟩
    exact (hspaced.isWord _ hword).no_blank c (by simp [dashed, hc])
  · intro h
    refine ⟨String.ofList (lines switches), switches.map dashed, ?_, ?_⟩
    · rw [String.toList_ofList]
      exact spaced_lines h
    · refine List.filter_eq_self.mpr fun w hw => ?_
      obtain ⟨x, hx, rfl⟩ := List.mem_map.mp hw
      exact decide_eq_true (namesSwitch_dashed (h x hx))

/-! ### Reading -/

theorem ofWord?_dashed {switch : String} (h : NamesSwitch (dashed switch)) :
    ofWord? (dashed switch) = some switch := by
  have hne : switch.toList ≠ [] := by
    intro hnil
    exact h.2 (by rw [dashed, hnil])
  rw [dashed, ofWord?, if_neg (by simpa using hne), String.ofList_toList]

theorem ofWord?_eq_none {w : List Char} (h : ¬NamesSwitch w) : ofWord? w = none := by
  rw [ofWord?.eq_def]
  split
  · rename_i name
    have hnil : name = [] := by
      by_contra hne
      exact h ⟨⟨name, rfl⟩, by simpa using hne⟩
    rw [hnil]
    rfl
  · rfl

/-- The words that name switches are the ones that count. -/
theorem filterMap_ofWord? {words : List (List Char)} {switches : List String}
    (h : words.filter (NamesSwitch ·) = switches.map dashed) :
    words.filterMap ofWord? = switches := by
  induction words generalizing switches with
  | nil => simpa using h
  | cons w words ih =>
    by_cases hw : NamesSwitch w
    · rw [List.filter_cons_of_pos (by simpa using hw)] at h
      obtain ⟨switch, rest, rfl, rfl, hrest⟩ := List.map_eq_cons_iff.mp h.symm
      rw [List.filterMap_cons, ofWord?_dashed hw, ih hrest.symm]
    · rw [List.filter_cons_of_neg (by simpa using hw)] at h
      rw [List.filterMap_cons, ofWord?_eq_none hw]
      exact ih h

/-- **What a text lists is read from it.** -/
theorem ofText_of_lists {switches : List String} {text : String} (h : Lists switches text) :
    ofText text = switches := by
  obtain ⟨words, hspaced, hnamed⟩ := h
  rw [ofText, hspaced.words]
  exact filterMap_ofWord? hnamed

theorem read_of_holds {fs : FileSystem} {path text : String} (h : fs.Holds path text) :
    read fs path = .ok (ofText text) := by
  rw [read, h.exists?, h.readText]
  rfl

theorem always_mem_complete (switches : List String) : always ∈ complete switches := by
  rw [complete]
  split
  · assumption
  · simp

theorem complete_complete (switches : List String) :
    complete (complete switches) = complete switches :=
  if_pos (always_mem_complete switches)

/-- A debuggable engine is started with the switches of its file, and the one that is always
there. -/
theorem switches_of_holds {c : Config} {fs : FileSystem} {path text : String}
    (hdebuggable : c.debuggable = true) (hpath : c.switchFile = some path)
    (h : fs.Holds path text) : c.switches fs = .ok (complete (ofText text)) := by
  rw [Config.switches, hdebuggable, hpath]
  simp only [read_of_holds h]
  rfl

/-- **The switches of a file.** Texts can list any switches that are not empty and have no blanks,
and no others. A text that lists switches, in a file that can be read, is read as these switches. A
debuggable engine with that file is started with them and, if they do not contain it, with
`enable-dcheck` behind them; and when a text that lists all of these has been written to the file,
the engine is started with the same switches again. An engine that is not debuggable is started with
`enable-dcheck` alone, whatever its file is and whether or not there is one. -/
theorem switches_listed :
    (∀ xs : List String, (∃ text, Lists xs text) ↔ ∀ x ∈ xs, IsWord x.toList) ∧
    (∀ (fs : FileSystem) (path text : String) (xs : List String),
      fs.Holds path text → Lists xs text →
      read fs path = .ok xs ∧
      ∀ c : Config, c.debuggable = true → c.switchFile = some path →
        let ys := if "enable-dcheck" ∈ xs then xs else xs ++ ["enable-dcheck"]
        c.switches fs = .ok ys ∧
        ∀ text' fs', Lists ys text' → fs.write path text'.toUTF8 = .ok fs' →
          c.switches fs' = .ok ys) ∧
    ∀ (c : Config) (fs : FileSystem), c.debuggable = false →
      c.switches fs = .ok ["enable-dcheck"] := by
  refine ⟨fun _ => exists_lists_iff, fun fs path text xs hfile hlists => ?_,
    fun c fs hplain => ?_⟩
  · -- The switches are read as listed; one that is there already is not appended.
    have hread := ofText_of_lists hlists
    refine ⟨by rw [read_of_holds hfile, hread], fun c hdebuggable hpath => ?_⟩
    intro ys
    constructor
    · rw [switches_of_holds hdebuggable hpath hfile, hread]
      rfl
    · intro text' fs' hlists' hwrite
      have hfile' : fs'.Holds path text' := FileSystem.read_after_write hfile hwrite
      rw [switches_of_holds hdebuggable hpath hfile', ofText_of_lists hlists']
      exact congrArg Except.ok (complete_complete xs)
  · rw [Config.switches, hplain]
    cases c.switchFile <;> rfl

/-- Switches among other words, with an ideographic space before one of them and three dashes before
another. -/
theorem switches_listed_among_others :
    let text := "_ --v=1\u3000--log  -- stray\n---x --log "
    let text' := "--v=1 --log ---x --log\u00a0--enable-dcheck"
    let fs : FileSystem := { root := .directory [.mk "switches" (.file text.toUTF8)] }
    let c : Config :=
      { baseDirectory := "/", debuggable := true, switchFile := some "/switches" }
    fs.Holds "/switches" text ∧ Lists ["v=1", "log", "-x", "log"] text ∧
      read fs "/switches" = .ok ["v=1", "log", "-x", "log"] ∧
      ∃ fs', fs.write "/switches" text'.toUTF8 = .ok fs' ∧
        c.switches fs = .ok ["v=1", "log", "-x", "log", "enable-dcheck"] ∧
        c.switches fs' = .ok ["v=1", "log", "-x", "log", "enable-dcheck"] := by
  intro text text' fs c
  have hfile : fs.Holds "/switches" text := rfl
  have hlists : Lists ["v=1", "log", "-x", "log"] text :=
    ⟨_, words_eq_iff.mp rfl, by decide +kernel⟩
  have hlists' : Lists ["v=1", "log", "-x", "log", "enable-dcheck"] text' :=
    ⟨_, words_eq_iff.mp rfl, by decide +kernel⟩
  obtain ⟨fs', hwrite⟩ : ∃ fs', fs.write "/switches" text'.toUTF8 = .ok fs' := ⟨_, rfl⟩
  obtain ⟨hread, hstarted⟩ := switches_listed.2.1 fs "/switches" text _ hfile hlists
  obtain ⟨hswitches, hagain⟩ := hstarted c rfl rfl
  exact ⟨hfile, hlists, hread, fs', hwrite, hswitches, hagain text' fs' hlists' hwrite⟩

end LazyEngine.Switches
