/-
What a configuration file overrides.

A file is an object, in which any members may stand among those that name settings. Each setting
that it names has the value of the file, and every other setting keeps its default:

* `Config.overridden` — a configuration with some settings taken from another one;
* `Config.Describes` — members that name settings with the values of a configuration, none of them
  twice, and others;
* `Config.takes_key`, `Config.takes_other` — what a reader makes of one member of either kind;
* **`Config.ofJson_of_describes`** — what it makes of all of them, in whatever order;
* **`Config.load_overrides`** — so a file is loaded, and so is what a configuration is written as.

Design notes: a member is a key, which is a text, and a value as it is written. Strings in values
may have lone halves of surrogate pairs, as long as they need not be read; a key has to be.
-/
import LazyEngine.Config
import LazyEngine.Proofs.Files.Contents
import LazyEngine.Proofs.Json.Objects

namespace LazyEngine

open Json

/-- What a configuration file can set. -/
inductive Setting where
  | baseDirectory
  | version
  | debuggable
  | switchFile
  | warmup
  | ownerName
deriving DecidableEq

namespace Setting

/-- The key of the member that names the setting. -/
def key : Setting → String
  | .baseDirectory => "baseDir"
  | .version => "versionCode"
  | .debuggable => "debuggable"
  | .switchFile => "commandLineFile"
  | .warmup => "warmupMs"
  | .ownerName => "ownerThreadName"

/-- The characters write the value that the setting has in `c`. -/
def IsWritten (c : Config) : Setting → List Char → Prop
  | .baseDirectory, cs => IsText c.baseDirectory cs
  | .version, cs => cs = Nat.toDigits 10 c.version.toNat
  | .debuggable, cs => cs = (if c.debuggable then Literal.true else Literal.false).word
  | .switchFile, cs =>
    c.switchFile.elim (cs = Literal.null.word) fun path => IsText path cs
  | .warmup, cs => cs = Nat.toDigits 10 c.warmup.toNat
  | .ownerName, cs => IsText c.ownerName cs

theorem key_inj {s s' : Setting} (h : s.key = s'.key) : s = s' := by
  cases s <;> cases s' <;> first | rfl | exact absurd h (by decide)

end Setting

namespace Config

/-- The configuration `d` with the settings that are named taken from `c`. -/
def overridden (d c : Config) (named : Setting → Prop) [DecidablePred named] : Config where
  baseDirectory := if named .baseDirectory then c.baseDirectory else d.baseDirectory
  version := if named .version then c.version else d.version
  debuggable := if named .debuggable then c.debuggable else d.debuggable
  switchFile := if named .switchFile then c.switchFile else d.switchFile
  warmup := if named .warmup then c.warmup else d.warmup
  ownerName := if named .ownerName then c.ownerName else d.ownerName

/-- Members that name settings, with their values in `c`, each at most once, and others, with any
values. -/
structure Describes (c : Config) (ms : List (String × List Char)) : Prop where
  once : ∀ s : Setting, (ms.map (·.1)).count s.key ≤ 1
  written : ∀ s : Setting, ∀ cs, (s.key, cs) ∈ ms → s.IsWritten c cs
  others : ∀ m ∈ ms, (∀ s : Setting, s.key ≠ m.1) → Grammar .value m.2

/-! ### Overriding -/

section Overridden

variable {c d : Config} {named named' : Setting → Prop} [DecidablePred named]
  [DecidablePred named']

theorem overridden_congr (h : ∀ s, named s ↔ named' s) :
    d.overridden c named = d.overridden c named' := by
  simp only [overridden, h]

theorem overridden_none (h : ∀ s, ¬named s) : d.overridden c named = d := by
  simp only [overridden, h, if_false]

theorem overridden_overridden :
    (d.overridden c named).overridden c named' = d.overridden c fun s => named s ∨ named' s := by
  have hite {α : Type} (p q : Prop) [Decidable p] [Decidable q] (a b : α) :
      (if q then a else if p then a else b) = if p ∨ q then a else b := by
    by_cases hp : p <;> by_cases hq : q <;> simp [hp, hq]
  simp only [overridden, hite]

end Overridden

/-- Members override one after another. -/
theorem foldl_overridden (c d : Config) (ms : List (String × List Char)) :
    ms.foldl (fun d m => d.overridden c (·.key = m.1)) d
      = d.overridden c fun s => s.key ∈ ms.map (·.1) := by
  induction ms generalizing d with
  | nil => exact (overridden_none (by simp)).symm
  | cons m ms ih =>
    rw [List.foldl_cons, ih, overridden_overridden]
    exact overridden_congr fun s => by simp

/-! ### Reading -/

theorem version_le (c : Config) : c.version.toNat ≤ 0xFFFFFFFF :=
  Nat.le_of_lt_succ c.version.toNat_lt

theorem warmup_le (c : Config) : c.warmup.toNat ≤ 0xFFFFFFFFFFFFFFFF :=
  Nat.le_of_lt_succ c.warmup.toNat_lt

/-- A member that names a setting overrides it. -/
theorem takes_key {c : Config} {s : Setting} {cs : List Char} (h : s.IsWritten c cs) :
    Takes fields (s.key, cs) fun d => d.overridden c (·.key = s.key) := by
  have hkey (s' : Setting) : s'.key = s.key ↔ s' = s := ⟨Setting.key_inj, fun h => h ▸ rfl⟩
  simp only [overridden, hkey]
  -- Each setting is written and read by its kind: as a text, a number, a literal.
  cases s with
  | baseDirectory => exact ⟨_, (Lexes.text h).stands, .inl ⟨_, rfl, fun _ _ => rfl⟩⟩
  | version =>
    subst h
    refine ⟨_, .decimal (c.version_le.trans (by decide)), .inl ⟨_, rfl, fun d rest => ?_⟩⟩
    simp [natural_of_le c.version_le, Except.map]
  | debuggable =>
    subst h
    refine ⟨_, (Lexes.literal _).stands, .inl ⟨_, rfl, fun d rest => ?_⟩⟩
    cases c.debuggable <;> rfl
  | switchFile =>
    cases hfile : c.switchFile with
    | none =>
      simp only [Setting.IsWritten, hfile, Option.elim_none] at h
      subst h
      exact ⟨_, (Lexes.literal .null).stands, .inl ⟨_, rfl, fun _ _ => rfl⟩⟩
    | some path =>
      simp only [Setting.IsWritten, hfile, Option.elim_some] at h
      exact ⟨_, (Lexes.text h).stands, .inl ⟨_, rfl, fun _ _ => rfl⟩⟩
  | warmup =>
    subst h
    refine ⟨_, .decimal c.warmup_le, .inl ⟨_, rfl, fun d rest => ?_⟩⟩
    simp [natural_of_le c.warmup_le, Except.map]
  | ownerName => exact ⟨_, (Lexes.text h).stands, .inl ⟨_, rfl, fun _ _ => rfl⟩⟩

theorem known_iff {key : String} : Known fields key ↔ ∃ s : Setting, s.key = key := by
  rw [Known, List.find?_isSome]
  constructor
  · rintro ⟨field, hfield, hname⟩
    obtain rfl : field.name = key := by simpa using hname
    simp only [fields, List.mem_cons, List.not_mem_nil, or_false] at hfield
    rcases hfield with rfl | rfl | rfl | rfl | rfl | rfl
    exacts [⟨.baseDirectory, rfl⟩, ⟨.version, rfl⟩, ⟨.debuggable, rfl⟩, ⟨.switchFile, rfl⟩,
      ⟨.warmup, rfl⟩, ⟨.ownerName, rfl⟩]
  · rintro ⟨s, rfl⟩
    cases s <;> simp [fields, Setting.key]

/-- Any other member leaves all settings as they are. -/
theorem takes_other {c : Config} {key : String} {cs : List Char} (hkey : ∀ s : Setting, s.key ≠ key)
    (h : Grammar .value cs) : Takes fields (key, cs) fun d => d.overridden c (·.key = key) := by
  obtain ⟨ts, hstands, hskip⟩ := skipValue_of_value h
  have hunknown : ¬Known fields key := by
    rw [known_iff]
    exact fun ⟨s, hs⟩ => hkey s hs
  exact ⟨ts, hstands, .inr ⟨Option.not_isSome_iff_eq_none.mp hunknown,
    fun d => overridden_none hkey, hskip⟩⟩

theorem Describes.takes {c : Config} {ms : List (String × List Char)} (h : c.Describes ms)
    {m : String × List Char} (hm : m ∈ ms) :
    Takes fields m fun d => d.overridden c (·.key = m.1) := by
  by_cases hkey : ∃ s : Setting, s.key = m.1
  · obtain ⟨s, hs⟩ := hkey
    have hwritten := h.written s m.2 (hs ▸ hm)
    simpa only [hs] using takes_key hwritten
  · have hother : ∀ s : Setting, s.key ≠ m.1 := fun s hs => hkey ⟨s, hs⟩
    exact takes_other hother (h.others m hm hother)

theorem Describes.pairwise {c : Config} {ms : List (String × List Char)} (h : c.Describes ms) :
    ms.Pairwise fun m m' => Known fields m.1 → m.1 ≠ m'.1 := by
  have honce := h.once
  clear h
  induction ms with
  | nil => exact .nil
  | cons m ms ih =>
    refine .cons (fun m' hm' hknown heq => ?_) (ih fun s => ?_)
    · obtain ⟨s, hs⟩ := known_iff.mp hknown
      have hcount := honce s
      have hpos : 0 < (ms.map (·.1)).count s.key :=
        List.count_pos_iff.mpr (List.mem_map.mpr ⟨m', hm', by rw [hs, heq]⟩)
      rw [List.map_cons, hs, List.count_cons_self] at hcount
      rw [hs] at hpos
      omega
    · exact List.count_le_count_cons.trans (honce s)

/-- **The settings that an object names are overridden.** -/
theorem ofJson_of_describes {c : Config} {ms : List (String × List Char)} {text : String}
    (defaults : Config) (hobject : IsObject ms text.toList) (h : c.Describes ms) :
    ofJson defaults text = .ok (defaults.overridden c fun s => s.key ∈ ms.map (·.1)) := by
  have hread := readRecord_of_isObject (fun key d => d.overridden c (·.key = key)) defaults hobject
    (fun _ => h.takes) h.pairwise
  rw [ofJson, hread, foldl_overridden]

/-! ### Writing -/

theorem toList_toString_bool (b : Bool) :
    (toString b).toList = (if b then Literal.true else Literal.false).word := by
  cases b <;> decide

/-- Each member of what is written of a configuration names a setting, with its value. -/
theorem written_of_mem_members {c : Config} {m : String × String} (h : m ∈ c.members) :
    ∃ s : Setting, s.key = m.1 ∧ s.IsWritten c m.2.toList := by
  simp only [members, List.mem_append, List.mem_cons, List.not_mem_nil, or_false,
    Option.mem_toList, Option.map_eq_some_iff] at h
  rcases h with ((rfl | rfl | rfl) | ⟨path, hpath, rfl⟩) | (rfl | rfl)
  · exact ⟨.baseDirectory, rfl, isText_encode _⟩
  · exact ⟨.version, rfl, by simp [Setting.IsWritten]⟩
  · exact ⟨.debuggable, rfl, toList_toString_bool _⟩
  · refine ⟨.switchFile, rfl, ?_⟩
    simpa only [Setting.IsWritten, hpath, Option.elim_some] using isText_encode path
  · exact ⟨.warmup, rfl, by simp [Setting.IsWritten]⟩
  · exact ⟨.ownerName, rfl, isText_encode _⟩

theorem describes_members (c : Config) :
    c.Describes (c.members.map fun m => (m.1, m.2.toList)) where
  once s := by cases hfile : c.switchFile <;> cases s <;> simp [members, hfile, Setting.key]
  written s cs h := by
    obtain ⟨m, hm, heq⟩ := List.mem_map.mp h
    obtain ⟨s', hkey, hwritten⟩ := written_of_mem_members hm
    obtain ⟨hname, rfl⟩ := Prod.mk.inj heq
    rwa [← Setting.key_inj (hkey.trans hname)]
  others m h hother := by
    obtain ⟨m', hm', rfl⟩ := List.mem_map.mp h
    obtain ⟨s, hkey, -⟩ := written_of_mem_members hm'
    exact absurd hkey (hother s)

/-- What is not written of a configuration has its default. -/
theorem overridden_members (c : Config) (env : Environment) :
    (default env).overridden c (fun s =>
      s.key ∈ (c.members.map fun m => (m.1, m.2.toList)).map (·.1)) = c := by
  obtain ⟨directory, version, debuggable, switchFile, warmup, ownerName⟩ := c
  cases switchFile <;> simp [overridden, members, Setting.key, default]

theorem isObject_toJson (c : Config) (layout : Layout) :
    IsObject (c.members.map fun m => (m.1, m.2.toList)) (c.toJson layout).toList :=
  isObject_writeObject layout (by simp [members])

/-! ### Files -/

theorem load_of_holds {fs : FileSystem} {env : Environment} {path text : String} {c : Config}
    (hfile : fs.Holds path text) (h : ofJson (default env) text = .ok c) :
    load fs env (some path) = .ok c := by
  simp only [load, hfile.readText, h]

/-- **A configuration file overrides what it names.** If a file can be read and holds an object, in
which settings are named with their values in `c`, each at most once, in any order and among any
other members, it is loaded as the default with these settings taken from `c`. What a configuration
is written as is loaded as the configuration, and an empty object as the default that is loaded
without a file. -/
theorem load_overrides (fs : FileSystem) (env : Environment) (path : String) :
    (∀ (text : String) (c : Config) (ms : List (String × List Char)), fs.Holds path text →
      IsObject ms text.toList → c.Describes ms →
      load fs env (some path)
        = .ok ((default env).overridden c fun s => s.key ∈ ms.map (·.1))) ∧
    (∀ (layout : Layout) (c : Config), fs.Holds path (c.toJson layout) →
      load fs env (some path) = .ok c) ∧
    (fs.Holds path "\x7b\x7d" → load fs env (some path) = load fs env none) := by
  refine ⟨fun text c ms hfile hobject hms => ?_, fun layout c hfile => ?_, fun hfile => ?_⟩
  · exact load_of_holds hfile (ofJson_of_describes _ hobject hms)
  · have hread := ofJson_of_describes (default env) (c.isObject_toJson layout) c.describes_members
    rw [overridden_members] at hread
    exact load_of_holds hfile hread
  · have hobject : IsObject [] "\x7b\x7d".toList := .empty .nil .nil .nil
    exact load_of_holds hfile (readRecord_of_isObject (fun _ => id) _ hobject (by simp) .nil)

/-- A file with two settings, behind a value that no reader could use: it has half of a surrogate
pair for a key and a number that is out of range. -/
theorem load_overrides_among_others :
    let text :=
      "\x7b\"x\":[\x7b\"\\ud800\":1e999\x7d] , \"warmupMs\":7,\n\"baseDir\":\"\\u002f\"\x7d"
    let fs : FileSystem := { root := .directory [.mk "config" (.file text.toUTF8)] }
    fs.Holds "/config" text ∧
      load fs { home := "/home" } (some "/config") = .ok { baseDirectory := "/", warmup := 7 } := by
  intro text fs
  have hfile : fs.Holds "/config" text := rfl
  let c : Config := { baseDirectory := "/", version := 3, warmup := 7 }
  have digit (n : Nat) (hn : n < 16) : IsHexDigit (Nat.digitChar n) n := isHexDigit_digitChar hn
  have hzero := digit 0 (by decide)
  let other := "[\x7b\"\\ud800\":1e999\x7d]".toList
  -- The value that no reader could use is one of the grammar all the same.
  have hother : Grammar .value other := by
    have hnumber : Grammar .value ['1', 'e', '9', '9', '9'] :=
      .number (.intro .none (isWhole_toDigits 1) .none
        (.some (.inl rfl) .none (isWhole_toDigits 999).toIsDigits))
    have hkey : IsInner ['\\', 'u', 'd', '8', '0', '0'] :=
      .number (.intro (digit 13 (by decide)) (digit 8 (by decide)) hzero hzero) .nil
    have hmember := Grammar.member .nil hkey .nil hnumber.bare
    exact .list (.lastElement (Grammar.object (.lastMember hmember)).bare)
  let slash := quoted ['\\', 'u', '0', '0', '2', 'f']
  have hslash : IsText "/" slash := by
    have hunit : IsUnit ['0', '0', '2', 'f'] ('/').toNat :=
      .intro hzero hzero (digit 2 (by decide)) (digit 15 (by decide))
    exact .intro (.number hunit .nil)
  let ms := [("x", other), ("warmupMs", ['7']), ("baseDir", slash)]
  have hms : c.Describes ms := by
    refine ⟨fun s => by cases s <;> decide, fun s cs h => ?_, fun m hm hothers => ?_⟩
    · simp only [ms, List.mem_cons, List.not_mem_nil, or_false, Prod.mk.injEq] at h
      rcases h with ⟨hkey, -⟩ | ⟨hkey, rfl⟩ | ⟨hkey, rfl⟩
      · cases s <;> exact absurd hkey (by decide)
      · obtain rfl : s = .warmup := Setting.key_inj hkey
        simp only [Setting.IsWritten]
        decide
      · obtain rfl : s = .baseDirectory := Setting.key_inj hkey
        exact hslash
    · simp only [ms, List.mem_cons, List.not_mem_nil, or_false] at hm
      rcases hm with rfl | rfl | rfl
      · exact hother
      · exact absurd rfl (hothers .warmup)
      · exact absurd rfl (hothers .baseDirectory)
  have hspace : AreSpaces [' '] := by decide
  have hline : AreSpaces ['\n'] := by decide
  have hobject : IsObject ms text.toList := by
    have h : IsObject ms _ := .members .nil
      (.next (.intro (isText_encode "x") .nil .nil .nil hspace)
        (.next (.intro (isText_encode "warmupMs") hspace .nil .nil .nil)
          (.last (.intro (isText_encode "baseDir") hline .nil .nil .nil)))) .nil
    convert h using 1
    decide +kernel
  exact ⟨hfile, (load_overrides fs { home := "/home" } "/config").1 text c ms hfile hobject hms⟩

end Config

end LazyEngine
