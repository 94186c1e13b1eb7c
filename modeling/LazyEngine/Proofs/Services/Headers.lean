/-
Cookie headers that are read back.

The line of a host can be taken apart at its semicolons and given to a new jar, piece by piece and
in any order, and the new jar has the same line. This rests on what is kept of a cookie text:

* `Cookie.Plain` — a name and a value that can stand in a line: no semicolons, no equals sign in
  the name, no blanks at the ends; `Cookie.Sets.plain` — nothing else is ever read from a text;
* `Cookie.Plain.read?` — a plain cookie is read from a text that has blanks in front of it;
* `Cookie.pieces_line`, `Cookie.readings_line` — the pieces of a line are the cookies that it was
  made of;
* `CookieJar.get?_given_iff` — a new jar holds what it has been given, in whatever order, if no
  name has been given twice;
* **`CookieJar.header_read_back`**.
-/
import LazyEngine.Proofs.Services.Cookies
import Mathlib.Data.List.Sort

namespace LazyEngine

open Text

namespace Text.Trims

variable {cs kept : List Char}

theorem subset (h : Trims cs kept) : kept ⊆ cs := by
  obtain ⟨before, after, rfl, -⟩ := h
  intro c hc
  simp [hc]

/-- There is nothing more to be trimmed from what has been trimmed. -/
theorem again (h : Trims cs kept) : Trims kept kept := by
  obtain ⟨-, -, -, -, -, hhead, hlast⟩ := h
  exact ⟨[], [], by simp, areBlank_nil, areBlank_nil, hhead, hlast⟩

/-- More blanks in front make no difference. -/
theorem blanks (h : Trims cs kept) {bs : List Char} (hbs : AreBlank bs) :
    Trims (bs ++ cs) kept := by
  obtain ⟨before, after, rfl, hbefore, hafter, hends⟩ := h
  exact ⟨bs ++ before, after, by simp, hbs.append hbefore, hafter, hends⟩

end Text.Trims

namespace Table

variable {K V : Type} [LE K] [DecidableLE K] [LT K] [Std.IsLinearOrder K] [Std.LawfulOrderLT K]

/-- There is one way only to list the entries of a table in the order of their keys. -/
theorem sorted_eq {t : Table K V} {l : List (K × V)} (hl : l.Pairwise (·.1 < ·.1))
    (hmem : ∀ e, e ∈ l ↔ e ∈ t.entries) : t.sorted = l := by
  have : Std.Irrefl fun a b : K × V => a.1 < b.1 := ⟨fun a => Std.lt_irrefl⟩
  refine t.pairwise_sorted.eq_of_mem_iff hl fun e => ?_
  rw [hmem]
  exact (List.mergeSort_perm t.entries _).mem_iff

end Table

namespace Cookie

variable {name value : String}

/-! ### Names and values -/

/-- What a name and a value can be. The value may hold equals signs, and both may hold blanks, but
not at their ends. -/
structure Plain (name value : String) : Prop where
  named : name ≠ ""
  no_semicolon : ';' ∉ name.toList ++ value.toList
  no_equals : '=' ∉ name.toList
  name_trimmed : Trims name.toList name.toList
  value_trimmed : Trims value.toList value.toList

/-- **What a text sets is plain.** -/
theorem Sets.plain {text : String} (h : Sets text name value) : Plain name value := by
  obtain ⟨n, v, ⟨⟨hfront, -⟩, hequals⟩, hn, hv, hname⟩ := h
  refine ⟨hname, fun hmem => hfront ?_, fun hmem => hequals (hn.subset hmem), hn.again, hv.again⟩
  -- the name and the value are parts of what stands before the first semicolon
  rcases List.mem_append.mp hmem with hmem | hmem
  · exact List.mem_append_left _ (hn.subset hmem)
  · exact List.mem_append_right _ (List.mem_cons_of_mem _ (hv.subset hmem))

/-- A cookie as it stands in a line. -/
def written (cookie : String × String) : String :=
  cookie.1 ++ "=" ++ cookie.2

theorem toList_written (cookie : String × String) :
    (written cookie).toList = cookie.1.toList ++ '=' :: cookie.2.toList := by
  simp [written]

theorem Plain.no_semicolon_written (h : Plain name value) :
    ';' ∉ (written (name, value)).toList := by
  have hfree := h.no_semicolon
  rw [List.mem_append] at hfree
  rw [toList_written, List.mem_append, List.mem_cons]
  rintro (hmem | heq | hmem)
  · exact hfree (.inl hmem)
  · exact absurd heq (by decide)
  · exact hfree (.inr hmem)

/-- A plain cookie is set by what is written for it, with any blanks in front. -/
theorem Plain.sets (h : Plain name value) {blanks : String} (hblanks : AreBlank blanks.toList) :
    Sets (blanks ++ written (name, value)) name value := by
  have hno : ∀ c, isBlank c = false → c ∉ blanks.toList := by
    intro c hc hmem
    rw [hblanks c hmem] at hc
    cases hc
  refine ⟨blanks.toList ++ name.toList, value.toList, ⟨⟨?_, [], ?_, by simp⟩, ?_⟩,
    h.name_trimmed.blanks hblanks, h.value_trimmed, h.named⟩
  · -- there is no semicolon at all, so all of the text counts
    have hwritten := h.no_semicolon_written
    rw [toList_written] at hwritten
    rw [List.append_assoc, List.mem_append, not_or]
    exact ⟨hno ';' (by decide), hwritten⟩
  · rw [String.toList_append, toList_written, List.append_nil, List.append_assoc]
  · rw [List.mem_append, not_or]
    exact ⟨hno '=' (by decide), h.no_equals⟩

theorem Plain.read? (h : Plain name value) (blanks : String) (hblanks : AreBlank blanks.toList) :
    Cookie.read? (blanks ++ written (name, value)) = some (name, value) :=
  read?_eq_some_iff.mpr (h.sets hblanks)

/-! ### Lines -/

/-- The pieces of a line, between its semicolons. -/
def pieces (line : String) : List String :=
  (line.toList.splitOn ';').map String.ofList

/-- A separator is a semicolon, and a blank in front of what follows. -/
theorem intercalate_separator (first : String) (others : List String) :
    "; ".intercalate (first :: others)
      = ";".intercalate (first :: others.map (" " ++ ·)) := by
  induction others generalizing first with
  | nil => simp
  | cons second others ih =>
    rw [String.intercalate_cons_cons, ih, List.map_cons, String.intercalate_cons_cons,
      String.intercalate_cons_append, ← String.append_assoc]
    congr 1
    rw [String.append_assoc]
    rfl

/-- **The pieces of a line** are what it was put together from, all but the first behind a
blank. -/
theorem pieces_line {first : String} {others : List String}
    (hfree : ∀ text ∈ first :: others, ';' ∉ text.toList) :
    pieces ("; ".intercalate (first :: others)) = first :: others.map (" " ++ ·) := by
  rw [intercalate_separator, pieces, String.toList_intercalate,
    show ";".toList = [';'] from rfl, List.splitOn_intercalate, List.map_map]
  · simp
  · intro cs hcs
    obtain ⟨text, htext, rfl⟩ := List.mem_map.mp hcs
    rcases List.mem_cons.mp htext with rfl | htext
    · exact hfree text (by simp)
    · obtain ⟨other, hother, rfl⟩ := List.mem_map.mp htext
      have := hfree other (by simp [hother])
      simpa using this
  · simp

/-- Plain cookies are read from the pieces of the line that is written for them. -/
theorem readings_line {cookies : List (String × String)}
    (hplain : ∀ c ∈ cookies, Plain c.1 c.2) (hne : cookies ≠ []) :
    (pieces ("; ".intercalate (cookies.map written))).map read? = cookies.map some := by
  obtain ⟨first, others, rfl⟩ := List.exists_cons_of_ne_nil hne
  have hfree : ∀ text ∈ written first :: others.map written, ';' ∉ text.toList := by
    intro text htext
    obtain ⟨c, hc, rfl⟩ := List.mem_map.mp (List.map_cons ▸ htext)
    exact (hplain c hc).no_semicolon_written
  rw [List.map_cons, pieces_line hfree, List.map_cons, List.map_cons, List.map_map, List.map_map]
  congr 1
  · -- nothing stands in front of the first cookie
    have hfirst := (hplain first (by simp)).read? "" areBlank_nil
    rwa [String.empty_append] at hfirst
  · refine List.map_congr_left fun c hc => ?_
    exact (hplain c (by simp [hc])).read? " " (by simp [AreBlank]; decide)

end Cookie

namespace CookieJar

/-! ### What a jar gives -/

/-- What a history keeps has been read from a text. -/
theorem Kept.plain {history : List CookieRequest} {host name value : String}
    (h : Kept history host name value) : Cookie.Plain name value := by
  obtain ⟨before, request, later, -, ⟨text, -, -, hsets⟩, -⟩ := h
  exact hsets.plain

theorem plain_of_mem_sorted (history : List CookieRequest) (host : String) :
    ∀ c ∈ ((after history).ofHost host).sorted, Cookie.Plain c.1 c.2 := by
  intro c hc
  have hget := Table.mem_sorted_iff.mp (show (c.1, c.2) ∈ _ from hc)
  exact ((get?_after_iff history host c.1 c.2).mp hget).plain

theorem header?_eq_some_iff {jar : CookieJar} {host line : String} :
    jar.header? host = some line ↔ (jar.ofHost host).sorted ≠ [] ∧
      "; ".intercalate ((jar.ofHost host).sorted.map Cookie.written) = line := by
  simp only [header?, List.isEmpty_iff]
  split
  · rename_i hnil
    simp [hnil]
  · rename_i hne
    rw [Option.some.injEq]
    exact ⟨fun h => ⟨hne, h⟩, fun h => h.2⟩

/-! ### What a jar is given -/

/-- A new jar that has been given texts for a host. -/
def given (host : String) (texts : List String) : CookieJar :=
  after (texts.map (.set host))

theorem given_concat (host : String) (texts : List String) (text : String) :
    given host (texts ++ [text]) = ((given host texts).set host text).2 := by
  rw [given, List.map_append, List.map_singleton, after_concat]
  rfl

/-- Nobody has turned cookies off. -/
theorem accepting_given (host : String) (texts : List String) :
    (given host texts).accepting = true := by
  rw [given, accepting_after_iff]
  intro before later heq
  have hmem : CookieRequest.setAccepting false ∈ texts.map (.set host) := by simp [heq]
  simp at hmem

/-- **A new jar holds what it has been given**, in whatever order that was, if no name has been
given twice. The induction is on the texts, the latest at the end. -/
theorem get?_given_iff {host : String} {texts : List String}
    (hdistinct : ((texts.filterMap Cookie.read?).map (·.1)).Nodup) (name value : String) :
    ((given host texts).ofHost host).get? name = some value ↔
      (name, value) ∈ texts.filterMap Cookie.read? := by
  induction texts using List.reverseRecOn with
  | nil => simp [given, after, ofHost, Table.get?, Table.empty]
  | append_singleton texts text ih =>
    rw [List.filterMap_append, List.map_append] at hdistinct
    have hbefore := ih hdistinct.of_append_left
    rw [given_concat, List.filterMap_append, List.mem_append, ← hbefore]
    cases hread : Cookie.read? text with
    | none => simp [set_eq_self fun _ => hread, hread]
    | some cookie =>
      obtain ⟨n, v⟩ := cookie
      rw [get?_set (accepting_given host texts) hread]
      by_cases hname : name = n
      · subst hname
        -- the name has not been given before
        have hnone : ¬ ((given host texts).ofHost host).get? name = some value := by
          intro hget
          have hdisjoint := (List.nodup_append.mp hdistinct).2.2
          exact hdisjoint name (List.mem_map_of_mem (hbefore.mp hget)) name (by simp [hread]) rfl
        simp [hnone, hread, eq_comm]
      · simp [hname, hread]

/-- Texts that cookies with distinct names are read from give a jar the line of these cookies. -/
theorem header?_given {host : String} {texts : List String} {cookies : List (String × String)}
    (hsorted : cookies.Pairwise (·.1 < ·.1)) (hne : cookies ≠ [])
    (htexts : (texts.filterMap Cookie.read?).Perm cookies) :
    (given host texts).header? host
      = some ("; ".intercalate (cookies.map Cookie.written)) := by
  have hdistinct : ((texts.filterMap Cookie.read?).map (·.1)).Nodup := by
    rw [(htexts.map _).nodup_iff, List.nodup_iff_pairwise_ne, List.pairwise_map]
    exact hsorted.imp fun hlt => Std.ne_of_lt hlt
  have heq : ((given host texts).ofHost host).sorted = cookies := by
    refine Table.sorted_eq hsorted ?_
    rintro ⟨name, value⟩
    rw [← htexts.mem_iff, Table.mem_entries_iff]
    exact (get?_given_iff hdistinct name value).symm
  rw [header?_eq_some_iff, heq]
  exact ⟨hne, rfl⟩

/-! ### Main result -/

/-- **Headers are read back.** Take the line that a jar gives a host after any history, and give its
pieces, in any order, to a new jar for any host: each of them is kept, and the new jar gives that
host the same line. -/
theorem header_read_back (history : List CookieRequest) {host line : String}
    (hline : ((after history).answer (.header host)).1 = .text? (some line))
    {texts : List String} (htexts : texts.Perm (Cookie.pieces line)) (other : String) :
    (∀ earlier text later, texts = earlier ++ text :: later →
      ((after (earlier.map (.set other))).answer (.set other text)).1 = .flag true) ∧
    ((after (texts.map (.set other))).answer (.header other)).1 = .text? (some line) := by
  set cookies := ((after history).ofHost host).sorted
  have hheader : (after history).header? host = some line := by
    simpa only [answer, Value.text?.injEq] using hline
  obtain ⟨hne, rfl⟩ := header?_eq_some_iff.mp hheader
  have hreadings := Cookie.readings_line (plain_of_mem_sorted history host) hne
  have hread : (texts.map Cookie.read?).Perm (cookies.map some) := hreadings ▸ htexts.map _
  constructor
  · intro earlier text later heq
    have hmem : Cookie.read? text ∈ cookies.map some :=
      hread.subset (List.mem_map_of_mem (by simp [heq]))
    obtain ⟨c, -, hc⟩ := List.mem_map.mp hmem
    have hkept : ((given other earlier).set other text).1 = true :=
      set_fst_iff.mpr ⟨accepting_given other earlier, by rw [← hc]; rfl⟩
    exact congrArg Value.flag hkept
  · refine congrArg Value.text? (header?_given (Table.pairwise_sorted _) hne ?_)
    have hfilter := hread.filterMap id
    simpa only [List.filterMap_map, Function.id_comp, Function.comp_id, List.filterMap_some]
      using hfilter

/-- What `header_read_back` says of two cookies that were set in the opposite order of their names,
one with blanks and one with an attribute, and are given to another host back to front. -/
theorem header_read_back_reversed :
    let history : List CookieRequest := [.set "here" "b = 2", .set "here" "a=1=1; Path=/"]
    ((after history).answer (.header "here")).1 = .text? (some "a=1=1; b=2") ∧
    [" b=2", "a=1=1"].Perm (Cookie.pieces "a=1=1; b=2") ∧
    (∀ earlier text later, [" b=2", "a=1=1"] = earlier ++ text :: later →
      ((after (earlier.map (.set "there"))).answer (.set "there" text)).1 = .flag true) ∧
    ((after ([" b=2", "a=1=1"].map (.set "there"))).answer (.header "there")).1
      = .text? (some "a=1=1; b=2") := by
  intro history
  have hentries : ((after history).ofHost "here").entries = [("b", "2"), ("a", "1=1")] := by
    decide +kernel
  have hsorted : ((after history).ofHost "here").sorted = [("a", "1=1"), ("b", "2")] :=
    Table.sorted_eq (by decide +kernel) fun e => by rw [hentries]; simp [or_comm]
  have hline : ((after history).answer (.header "here")).1 = .text? (some "a=1=1; b=2") := by
    refine congrArg Value.text? (header?_eq_some_iff.mpr ?_)
    rw [hsorted]
    exact ⟨List.cons_ne_nil _ _, by decide +kernel⟩
  have htexts : [" b=2", "a=1=1"].Perm (Cookie.pieces "a=1=1; b=2") := by
    have hpieces : Cookie.pieces "a=1=1; b=2" = ["a=1=1", " b=2"] := by decide +kernel
    rw [hpieces]
    exact List.Perm.swap _ _ _
  exact ⟨hline, htexts, header_read_back history hline htexts "there"⟩

end CookieJar

end LazyEngine
