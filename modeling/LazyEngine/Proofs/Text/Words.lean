/-
Words with white space between them.

* `Text.Spaced` — a text is these words in order, with at least one blank between any two and any
  blanks at its ends;
* **`Text.words_eq_iff`** — the words of a text are the ones that it is spaced out from, and no
  others.
-/
import LazyEngine.Text.Blank

namespace LazyEngine.Text

/-- One character or more, none of them blank. -/
structure IsWord (w : List Char) : Prop where
  nonempty : w ≠ []
  no_blank : ∀ c ∈ w, isBlank c = false

/-- Blank characters, as many as one likes. -/
def AreBlank (cs : List Char) : Prop :=
  ∀ c ∈ cs, isBlank c = true

/-- The words, in order, and nothing else but blanks, of which there are some between two words. -/
inductive Spaced : List (List Char) → List Char → Prop
  | none {bs : List Char} : AreBlank bs → Spaced [] bs
  | last {bs w : List Char} : AreBlank bs → IsWord w → Spaced [w] (bs ++ w)
  | next {bs w cs : List Char} {b : Char} {ws : List (List Char)} : AreBlank bs → IsWord w →
      isBlank b = true → Spaced ws cs → Spaced (w :: ws) (bs ++ w ++ b :: cs)

/-- What is behind a blank comes after what is before it. -/
theorem words_append_blank (cs rest : List Char) {b : Char} (hb : isBlank b = true) :
    words (cs ++ b :: rest) = words cs ++ words rest := by
  rw [words, List.splitOnP_append_cons cs rest hb, List.filter_append]
  rfl

theorem words_blanks {bs : List Char} (hbs : AreBlank bs) (cs : List Char) :
    words (bs ++ cs) = words cs := by
  induction bs with
  | nil => rfl
  | cons b bs ih =>
    have happend := words_append_blank [] (bs ++ cs) (hbs b (by simp))
    rw [words_nil] at happend
    rw [List.cons_append]
    exact happend.trans (ih fun c hc => hbs c (by simp [hc]))

theorem IsWord.words {w : List Char} (hw : IsWord w) : words w = [w] := by
  rw [Text.words, List.splitOnP_eq_singleton hw.no_blank]
  simp [hw.nonempty]

theorem Spaced.words {ws : List (List Char)} {cs : List Char} (h : Spaced ws cs) :
    words cs = ws := by
  induction h with
  | none hbs =>
    have happend := words_blanks hbs []
    rwa [List.append_nil, words_nil] at happend
  | last hbs hw => rw [words_blanks hbs, hw.words]
  | next hbs hw hb _ ih => rw [words_append_blank _ _ hb, words_blanks hbs, hw.words, ih]; rfl

theorem Spaced.isWord {ws : List (List Char)} {cs : List Char} (h : Spaced ws cs) :
    ∀ w ∈ ws, IsWord w := by
  induction h with
  | none => exact List.forall_mem_nil _
  | last _ hw => simpa using hw
  | next _ hw _ _ ih => exact List.forall_mem_cons.mpr ⟨hw, ih⟩

/-! ### Every text is spaced out from words -/

theorem AreBlank.cons {b : Char} {bs : List Char} (hb : isBlank b = true) (hbs : AreBlank bs) :
    AreBlank (b :: bs) := by
  simpa [AreBlank, hb] using hbs

theorem IsWord.cons {c : Char} {w : List Char} (hc : isBlank c = false) (hw : IsWord w) :
    IsWord (c :: w) :=
  ⟨List.cons_ne_nil c w, by simpa [hc] using hw.no_blank⟩

theorem areBlank_nil : AreBlank [] := by
  simp [AreBlank]

theorem isWord_singleton {c : Char} (hc : isBlank c = false) : IsWord [c] :=
  ⟨List.cons_ne_nil c [], by simpa using hc⟩

/-- A blank in front belongs to no word. -/
theorem Spaced.blank {ws : List (List Char)} {cs : List Char} {b : Char} (hb : isBlank b = true)
    (h : Spaced ws cs) : Spaced ws (b :: cs) := by
  cases h with
  | none hbs => exact .none (hbs.cons hb)
  | last hbs hw => exact .last (hbs.cons hb) hw
  | next hbs hw hb' h => exact .next (hbs.cons hb) hw hb' h

/-- Any other character in front is a word, or makes the first word longer. -/
theorem Spaced.letter {ws : List (List Char)} {cs : List Char} {c : Char} (hc : isBlank c = false)
    (h : Spaced ws cs) : ∃ ws', Spaced ws' (c :: cs) := by
  have hone := isWord_singleton hc
  cases h with
  | none hbs =>
    cases cs with
    | nil => exact ⟨_, .last areBlank_nil hone⟩
    | cons b cs =>
      exact ⟨_, .next areBlank_nil hone (hbs b (by simp)) (.none fun c hc => hbs c (by simp [hc]))⟩
  | @last bs w hbs hw =>
    cases bs with
    | nil => exact ⟨_, .last areBlank_nil (hw.cons hc)⟩
    | cons b bs =>
      exact ⟨_, .next areBlank_nil hone (hbs b (by simp))
        (.last (fun c hc => hbs c (by simp [hc])) hw)⟩
  | @next bs w cs b' ws hbs hw hb' h =>
    cases bs with
    | nil => exact ⟨_, .next areBlank_nil (hw.cons hc) hb' h⟩
    | cons b bs =>
      exact ⟨_, .next areBlank_nil hone (hbs b (by simp))
        (.next (fun c hc => hbs c (by simp [hc])) hw hb' h)⟩

theorem exists_spaced (cs : List Char) : ∃ ws, Spaced ws cs := by
  induction cs with
  | nil => exact ⟨[], .none areBlank_nil⟩
  | cons c cs ih =>
    obtain ⟨ws, h⟩ := ih
    cases hc : isBlank c with
    | true => exact ⟨ws, h.blank hc⟩
    | false => exact h.letter hc

/-- **The words of a text** are the ones that it is spaced out from. -/
theorem words_eq_iff {ws : List (List Char)} {cs : List Char} : words cs = ws ↔ Spaced ws cs := by
  constructor
  · rintro rfl
    obtain ⟨ws, h⟩ := exists_spaced cs
    rwa [h.words]
  · exact Spaced.words

end LazyEngine.Text
