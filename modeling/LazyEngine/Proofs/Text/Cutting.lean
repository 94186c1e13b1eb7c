/-
Texts that are cut where characters of one kind end.

* `takeWhile_boundary`, `dropWhile_boundary` — characters of a kind in front of one of another kind;
* `takeWhile_eq_iff` — what is taken from the front of a text, said without taking it;
* `Trims` — what is left of a text when all blanks at its ends are taken away;
* **`trim_eq_iff`** — `trim` finds it, and there is nothing else to find.
-/
import LazyEngine.Proofs.Text.Words
import Mathlib.Data.List.Basic
import Mathlib.Data.List.TakeWhile

namespace LazyEngine.Text

/-! ### Boundaries -/

section Boundaries

variable {α : Type} {p : α → Bool} {cs rest : List α}

theorem takeWhile_boundary (hcs : ∀ c ∈ cs, p c = true) (hrest : ∀ c ∈ rest.head?, p c = false) :
    (cs ++ rest).takeWhile p = cs := by
  rw [List.takeWhile_append_of_pos hcs]
  cases rest with
  | nil => simp
  | cons c rest => simp [hrest c rfl]

theorem dropWhile_boundary (hcs : ∀ c ∈ cs, p c = true) (hrest : ∀ c ∈ rest.head?, p c = false) :
    (cs ++ rest).dropWhile p = rest := by
  rw [List.dropWhile_append_of_pos hcs]
  cases rest with
  | nil => rfl
  | cons c rest => exact List.dropWhile_cons_of_neg (by simp [hrest c rfl])

theorem head?_dropWhile (p : α → Bool) (cs : List α) :
    ∀ c ∈ (cs.dropWhile p).head?, p c = false := by
  intro c hc
  have hnot := List.head?_dropWhile_not p cs
  rw [Option.mem_def.mp hc] at hnot
  simpa using hnot

/-- What is taken from the front is of the kind, and what comes next is not. -/
theorem takeWhile_eq_iff {front : List α} :
    cs.takeWhile p = front ↔
      (∀ c ∈ front, p c = true) ∧ ∃ rest, cs = front ++ rest ∧ ∀ c ∈ rest.head?, p c = false := by
  constructor
  · rintro rfl
    exact ⟨fun c hc => List.mem_takeWhile_imp hc, cs.dropWhile p,
      List.takeWhile_append_dropWhile.symm, head?_dropWhile p cs⟩
  · rintro ⟨hfront, rest, rfl, hrest⟩
    exact takeWhile_boundary hfront hrest

/-- What comes before the first occurrence of a character. -/
theorem takeWhile_ne_eq_iff [DecidableEq α] {front : List α} {a : α} :
    cs.takeWhile (· != a) = front ↔
      a ∉ front ∧ ∃ rest, cs = front ++ rest ∧ ∀ c ∈ rest.head?, c = a := by
  simp only [takeWhile_eq_iff, bne_iff_ne, bne_eq_false_iff_eq, ne_eq, List.forall_mem_ne']

end Boundaries

/-! ### Trimming -/

/-- The text is blanks around what is kept, which neither begins nor ends with a blank. -/
def Trims (cs kept : List Char) : Prop :=
  ∃ before after, cs = before ++ kept ++ after ∧ AreBlank before ∧ AreBlank after ∧
    (∀ c ∈ kept.head?, isBlank c = false) ∧ ∀ c ∈ kept.getLast?, isBlank c = false

theorem areBlank_takeWhile (cs : List Char) : AreBlank (cs.takeWhile isBlank) :=
  fun _ => List.mem_takeWhile_imp

theorem AreBlank.append {bs cs : List Char} (hbs : AreBlank bs) (hcs : AreBlank cs) :
    AreBlank (bs ++ cs) :=
  fun c hc => (List.mem_append.mp hc).elim (hbs c) (hcs c)

theorem AreBlank.reverse {bs : List Char} (h : AreBlank bs) : AreBlank bs.reverse :=
  fun c hc => h c (List.mem_reverse.mp hc)

theorem trims_trim (cs : List Char) : Trims cs (trim cs) := by
  set rest := cs.dropWhile isBlank with hrest
  set last := rest.reverse.dropWhile isBlank with hlast
  have hcs : cs.takeWhile isBlank ++ rest = cs := List.takeWhile_append_dropWhile
  have hsplit : rest = last.reverse ++ (rest.reverse.takeWhile isBlank).reverse := by
    rw [← List.reverse_append, hlast, List.takeWhile_append_dropWhile, List.reverse_reverse]
  refine ⟨cs.takeWhile isBlank, (rest.reverse.takeWhile isBlank).reverse, ?_,
    areBlank_takeWhile cs, (areBlank_takeWhile _).reverse, fun c hc => ?_, fun c hc => ?_⟩
  · rw [trim, List.append_assoc, ← hsplit, hcs]
  · -- What is kept begins as the rest behind the first blanks does.
    refine head?_dropWhile isBlank cs c ?_
    rw [← hrest, hsplit]
    rw [trim] at hc
    exact List.mem_head?_append_of_mem_head? hc
  · rw [trim, List.getLast?_reverse] at hc
    exact head?_dropWhile isBlank _ c hc

/-- **What trimming keeps.** -/
theorem trim_eq_iff {cs kept : List Char} : trim cs = kept ↔ Trims cs kept := by
  constructor
  · rintro rfl
    exact trims_trim cs
  · rintro ⟨before, after, rfl, hbefore, hafter, hhead, hlast⟩
    by_cases hkept : kept = []
    · subst hkept
      rw [List.append_nil, trim, List.dropWhile_eq_nil_iff.mpr (hbefore.append hafter)]
      rfl
    · have hfront : ∀ c ∈ (kept ++ after).head?, isBlank c = false := by
        rwa [List.head?_append_of_ne_nil _ hkept]
      have hback : ∀ c ∈ kept.reverse.head?, isBlank c = false := by
        rwa [List.head?_reverse]
      rw [trim, List.append_assoc, dropWhile_boundary hbefore hfront, List.reverse_append,
        dropWhile_boundary hafter.reverse hback, List.reverse_reverse]

theorem trim_eq_nil_iff {cs : List Char} : trim cs = [] ↔ AreBlank cs := by
  rw [trim_eq_iff]
  constructor
  · rintro ⟨before, after, rfl, hbefore, hafter, -, -⟩
    exact (hbefore.append areBlank_nil).append hafter
  · exact fun h => ⟨cs, [], by simp, h, areBlank_nil, by simp, by simp⟩

end LazyEngine.Text
