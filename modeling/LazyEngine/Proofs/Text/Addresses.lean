/-
The first address of a text.

A text is read sentence by sentence and each sentence word by word, and only the first number of a
sentence is tried. Here it is said what is found without saying how it is looked for:

* `Address.Punctuated` — a text is these sentences in order; **`Address.sentences_eq_iff`** — so it
  is cut into them, and into no others;
* `Address.Occurs` — any number of a sentence has two words or more behind it; `Address.Stands` —
  the first one has, and the address is all there is from it on;
* **`Address.exists_stands_iff`** — if any number begins an address, the first one does, so there
  is no need to try another;
* `Address.Stands.alone` — an address by itself is a sentence in which the same address stands;
* **`Engine.finds_first_address`** — what the engine finds.
-/
import LazyEngine.Engine
import LazyEngine.Proofs.Text.Cutting

namespace LazyEngine

open Text

namespace Text

/-- The words of a text are made of its characters. -/
theorem Spaced.subset {ws : List (List Char)} {cs : List Char} (h : Spaced ws cs) :
    ∀ w ∈ ws, w ⊆ cs := by
  induction h with
  | none => exact List.forall_mem_nil _
  | last _ _ => simp
  | next _ _ _ _ ih =>
    refine List.forall_mem_cons.mpr ⟨fun c hc => by simp [hc], fun w hw c hc => ?_⟩
    have := ih w hw hc
    simp [this]

/-- Words with single blanks between them. -/
theorem spaced_intercalate {ws : List (List Char)} (b : Char) (hb : isBlank b = true)
    (h : ∀ w ∈ ws, IsWord w) : Spaced ws ([b].intercalate ws) := by
  induction ws with
  | nil => exact .none areBlank_nil
  | cons w ws ih =>
    have hw := h w (by simp)
    have hrest := ih fun v hv => h v (by simp [hv])
    cases ws with
    | nil =>
      have hlast := Spaced.last areBlank_nil hw
      simpa using hlast
    | cons v ws =>
      have hnext := Spaced.next areBlank_nil hw hb hrest
      simpa using hnext

/-- Joining words adds nothing but what is put between them. -/
theorem mem_intercalate {ws : List (List Char)} {b c : Char} (h : c ∈ [b].intercalate ws) :
    c = b ∨ ∃ w ∈ ws, c ∈ w := by
  induction ws with
  | nil => simp at h
  | cons w ws ih =>
    cases ws with
    | nil => exact .inr ⟨w, by simp, by simpa using h⟩
    | cons v ws =>
      rw [List.intercalate_cons_cons, List.mem_append, List.mem_append, List.mem_singleton] at h
      rcases h with (hw | hb) | hrest
      · exact .inr ⟨w, by simp, hw⟩
      · exact .inl hb
      · refine (ih hrest).imp_right ?_
        rintro ⟨u, hu, hcu⟩
        exact ⟨u, by simp [hu], hcu⟩

end Text

namespace Address

/-! ### Sentences -/

/-- A sentence holds neither a full stop nor a line end. -/
def IsSentence (cs : List Char) : Prop :=
  '.' ∉ cs ∧ '\n' ∉ cs

/-- The text is the sentences in order, every one but the last closed by a full stop or a line
end. -/
inductive Punctuated : List (List Char) → List Char → Prop
  | last {s : List Char} : IsSentence s → Punctuated [s] s
  | next {s text : List Char} {c : Char} {ss : List (List Char)} : IsSentence s →
      c = '.' ∨ c = '\n' → Punctuated ss text → Punctuated (s :: ss) (s ++ c :: text)

theorem endsSentence_iff {c : Char} : endsSentence c = true ↔ c = '.' ∨ c = '\n' := by
  simp [endsSentence]

theorem isSentence_iff {cs : List Char} : IsSentence cs ↔ ∀ c ∈ cs, endsSentence c = false := by
  simp only [IsSentence, ← Bool.not_eq_true, endsSentence_iff, not_or]
  exact ⟨fun h c hc => ⟨fun heq => h.1 (heq ▸ hc), fun heq => h.2 (heq ▸ hc)⟩,
    fun h => ⟨fun hmem => (h _ hmem).1 rfl, fun hmem => (h _ hmem).2 rfl⟩⟩

theorem Punctuated.sentences {ss : List (List Char)} {text : List Char} (h : Punctuated ss text) :
    sentences text = ss := by
  induction h with
  | last hs => exact List.splitOnP_eq_singleton (isSentence_iff.mp hs)
  | next hs hc _ ih =>
    rw [Address.sentences, List.splitOnP_append_cons_of_forall_mem (isSentence_iff.mp hs) _
      (endsSentence_iff.mpr hc), ← Address.sentences, ih]

theorem IsSentence.cons {c : Char} {s : List Char} (hc : endsSentence c = false)
    (hs : IsSentence s) : IsSentence (c :: s) :=
  isSentence_iff.mpr (List.forall_mem_cons.mpr ⟨hc, isSentence_iff.mp hs⟩)

/-- Every text is punctuated somehow. -/
theorem exists_punctuated (text : List Char) : ∃ ss, Punctuated ss text := by
  induction text with
  | nil => exact ⟨[[]], .last ⟨List.not_mem_nil, List.not_mem_nil⟩⟩
  | cons c text ih =>
    obtain ⟨ss, h⟩ := ih
    cases hc : endsSentence c with
    | true =>
      -- an empty sentence comes first
      exact ⟨[] :: ss, .next ⟨List.not_mem_nil, List.not_mem_nil⟩ (endsSentence_iff.mp hc) h⟩
    | false =>
      -- the first sentence is one character longer
      cases h with
      | last hs => exact ⟨_, .last (hs.cons hc)⟩
      | next hs hend h => exact ⟨_, .next (hs.cons hc) hend h⟩

/-- **The sentences of a text** are the ones that it is punctuated into. -/
theorem sentences_eq_iff {ss : List (List Char)} {text : List Char} :
    sentences text = ss ↔ Punctuated ss text := by
  constructor
  · rintro rfl
    obtain ⟨ss, h⟩ := exists_punctuated text
    rwa [h.sentences]
  · exact Punctuated.sentences

theorem Punctuated.isSentence {ss : List (List Char)} {text : List Char} (h : Punctuated ss text) :
    ∀ s ∈ ss, IsSentence s := by
  induction h with
  | last hs => simpa using hs
  | next hs _ _ ih => exact List.forall_mem_cons.mpr ⟨hs, ih⟩

/-! ### Numbers and what is behind them -/

/-- A word of decimal digits. -/
def IsNumber (word : List Char) : Prop :=
  ∀ c ∈ word, '0' ≤ c ∧ c ≤ '9'

theorem isHouseNumber_iff {word : List Char} : isHouseNumber word = true ↔ IsNumber word := by
  simp only [isHouseNumber, List.all_eq_true, IsNumber]
  refine forall₂_congr fun c _ => ?_
  simp only [Char.isDigit, Bool.and_eq_true, decide_eq_true_eq]
  exact Iff.rfl

/-- Some number of the sentence has two more words behind it. -/
def Occurs (sentence : List Char) : Prop :=
  ∃ before number others, Spaced (before ++ number :: others) sentence ∧ IsNumber number ∧
    2 ≤ others.length

/-- The first number of the sentence has two more words behind it, and these are the address. -/
def Stands (sentence : List Char) (address : List (List Char)) : Prop :=
  ∃ before number others, Spaced (before ++ number :: others) sentence ∧
    (∀ w ∈ before, ¬ IsNumber w) ∧ IsNumber number ∧ 2 ≤ others.length ∧
    address = number :: others

/-- A number is where the search for a number ends. -/
theorem not_skipped {number : List Char} (h : IsNumber number) (others : List (List Char)) :
    ∀ w ∈ (number :: others).head?, (!isHouseNumber w) = false := by
  intro w hw
  obtain rfl : number = w := by simpa using hw
  rw [isHouseNumber_iff.mpr h]
  rfl

/-- Skipping no further than to the first word of a kind skips no word of that kind. -/
theorem length_le_dropWhile {α : Type} {p : α → Bool} (before : List α) {rest : List α}
    (hrest : ∀ c ∈ rest.head?, p c = false) :
    rest.length ≤ ((before ++ rest).dropWhile p).length := by
  induction before with
  | nil =>
    cases rest with
    | nil => exact Nat.zero_le _
    | cons c rest => simp [hrest c rfl]
  | cons b before ih =>
    rw [List.cons_append, List.dropWhile_cons]
    split
    · exact ih
    · simp only [List.length_cons, List.length_append]
      omega

theorem ofSentence_eq_some_iff {sentence : List Char} {address : List (List Char)} :
    ofSentence sentence = some address ↔ Stands sentence address := by
  constructor
  · intro h
    have hspaced := words_eq_iff.mp (rfl : words sentence = words sentence)
    set ws := words sentence with hws
    have hdrop : ws.dropWhile (!isHouseNumber ·) = address ∧ 3 ≤ address.length := by
      rw [ofSentence, ← hws] at h
      split at h
      · rename_i hlength
        cases h
        exact ⟨rfl, hlength⟩
      · cases h
    obtain ⟨hdrop, hlength⟩ := hdrop
    cases address with
    | nil => simp at hlength
    | cons number others =>
      -- the words before the first number are the ones that have been skipped
      refine ⟨ws.takeWhile (!isHouseNumber ·), number, others, ?_, fun w hw => ?_, ?_, ?_, rfl⟩
      · rw [← hdrop, List.takeWhile_append_dropWhile]
        exact hspaced
      · have hskipped := List.mem_takeWhile_imp hw
        rw [← isHouseNumber_iff]
        simpa using hskipped
      · have hkept := head?_dropWhile (!isHouseNumber ·) ws number (by rw [hdrop]; rfl)
        rw [← isHouseNumber_iff]
        simpa using hkept
      · simp only [List.length_cons] at hlength
        omega
  · rintro ⟨before, number, others, hspaced, hbefore, hnumber, hlength, rfl⟩
    have hskip : ∀ w ∈ before, (!isHouseNumber w) = true := by
      intro w hw
      have := hbefore w hw
      rw [← isHouseNumber_iff] at this
      simpa using this
    rw [ofSentence, hspaced.words, dropWhile_boundary hskip (not_skipped hnumber others), if_pos]
    simp only [List.length_cons]
    omega

/-- **The first number is enough.** When some number of a sentence has two more words behind it, the
first one has them too, because it comes no later. -/
theorem exists_stands_iff {sentence : List Char} :
    (∃ address, Stands sentence address) ↔ Occurs sentence := by
  constructor
  · rintro ⟨address, before, number, others, hspaced, -, hnumber, hlength, -⟩
    exact ⟨before, number, others, hspaced, hnumber, hlength⟩
  · rintro ⟨before, number, others, hspaced, hnumber, hlength⟩
    have hle := length_le_dropWhile before (not_skipped hnumber others)
    rw [List.length_cons] at hle
    refine ⟨(words sentence).dropWhile (!isHouseNumber ·), ofSentence_eq_some_iff.mp ?_⟩
    rw [ofSentence, hspaced.words, if_pos (by omega)]

theorem ofSentence_eq_none_iff {sentence : List Char} :
    ofSentence sentence = none ↔ ¬ Occurs sentence := by
  rw [← exists_stands_iff, not_exists, Option.eq_none_iff_forall_ne_some]
  simp only [← ofSentence_eq_some_iff, ne_eq]

/-! ### The address by itself -/

/-- An address as a text. -/
def written (address : List (List Char)) : String :=
  " ".intercalate (address.map String.ofList)

theorem toList_written (address : List (List Char)) :
    (written address).toList = [' '].intercalate address := by
  rw [written, String.toList_intercalate, List.map_map]
  simp

/-- The words of an address are words of its sentence. -/
theorem Stands.words {sentence : List Char} {address : List (List Char)}
    (h : Stands sentence address) : ∀ w ∈ address, IsWord w ∧ w ⊆ sentence := by
  obtain ⟨before, number, others, hspaced, -, -, -, rfl⟩ := h
  intro w hw
  have hmem : w ∈ before ++ number :: others := List.mem_append_right _ hw
  exact ⟨hspaced.isWord w hmem, hspaced.subset w hmem⟩

/-- What an address is written with are the characters of its sentence, and blanks. -/
theorem Stands.isSentence {sentence : List Char} {address : List (List Char)}
    (h : Stands sentence address) (hs : IsSentence sentence) :
    IsSentence (written address).toList := by
  have hmem : ∀ c ∈ (written address).toList, c = ' ' ∨ c ∈ sentence := by
    intro c hc
    rw [toList_written] at hc
    refine (mem_intercalate hc).imp_right ?_
    rintro ⟨w, hw, hcw⟩
    exact (h.words w hw).2 hcw
  constructor
  · exact fun hdot => (hmem _ hdot).elim (by decide) hs.1
  · exact fun hbreak => (hmem _ hbreak).elim (by decide) hs.2

/-- **An address by itself** is a sentence in which this address stands. -/
theorem Stands.alone {sentence : List Char} {address : List (List Char)}
    (h : Stands sentence address) : Stands (written address).toList address := by
  have hspaced := spaced_intercalate ' ' (by decide) fun w hw => (h.words w hw).1
  rw [← toList_written] at hspaced
  obtain ⟨-, number, others, -, -, hnumber, hlength, rfl⟩ := h
  exact ⟨[], number, others, hspaced, List.forall_mem_nil _, hnumber, hlength, rfl⟩

/-! ### Texts -/

/-- The address of a text is the one of its first sentence that has any. -/
theorem address?_eq_some_iff {text r : String} :
    address? text = some r ↔ ∃ earlier s later address,
      sentences text.toList = earlier ++ s :: later ∧ (∀ s' ∈ earlier, ¬ Occurs s') ∧
      Stands s address ∧ written address = r := by
  rw [address?, Option.map_eq_some_iff]
  simp only [List.findSome?_eq_some_iff, ofSentence_eq_some_iff, ofSentence_eq_none_iff, written]
  constructor
  · rintro ⟨address, ⟨earlier, s, later, hcut, hstands, hearlier⟩, hr⟩
    exact ⟨earlier, s, later, address, hcut, hearlier, hstands, hr⟩
  · rintro ⟨earlier, s, later, address, hcut, hearlier, hstands, hr⟩
    exact ⟨address, ⟨earlier, s, later, hcut, hstands, hearlier⟩, hr⟩

theorem address?_isSome_iff {text : String} :
    (address? text).isSome = true ↔ ∃ s ∈ sentences text.toList, Occurs s := by
  rw [address?, Option.isSome_map, List.findSome?_isSome_iff]
  simp only [← Option.ne_none_iff_isSome, ne_eq, ofSentence_eq_none_iff, not_not]

/-- Sentences without an address in front make no difference. -/
theorem address?_behind {front text : String}
    (h : ∀ s ∈ sentences front.toList, ¬ Occurs s) :
    address? (front ++ "." ++ text) = address? text := by
  have hcut : sentences (front ++ "." ++ text).toList
      = sentences front.toList ++ sentences text.toList := by
    rw [String.toList_append, String.toList_append, List.append_assoc]
    exact List.splitOnP_append_cons _ _ (by decide)
  have hnone : (sentences front.toList).findSome? ofSentence = none :=
    List.findSome?_eq_none_iff.mpr fun s hs => ofSentence_eq_none_iff.mpr (h s hs)
  rw [address?, address?, hcut, List.findSome?_append, hnone, Option.none_or]

end Address

open Address

/-- **The engine finds the first address.** Any text is cut into sentences in exactly one way. An
address is found exactly when some sentence has a number, be it the first or not, with two more
words behind it. Then it is what stands in the first such sentence from its first number on, with
single blanks between the words; it has neither a full stop nor a line end, and it is found again in
itself. Sentences without a number in front of the text do not matter. -/
theorem Engine.finds_first_address (e : Engine) (text : String) :
    ∃ sentences, (∀ ss, Punctuated ss text.toList ↔ ss = sentences) ∧
      ((e.findAddress text).isSome = true ↔ ∃ s ∈ sentences, Occurs s) ∧
      (∀ r, e.findAddress text = some r →
        (∃ earlier s later address, sentences = earlier ++ s :: later ∧
          (∀ s' ∈ earlier, ¬ Occurs s') ∧ Stands s address ∧
          r = " ".intercalate (address.map String.ofList)) ∧
        '.' ∉ r.toList ∧ '\n' ∉ r.toList ∧ e.findAddress r = some r) ∧
      ∀ front : String,
        (∀ ss s ws, Punctuated ss front.toList → s ∈ ss → Spaced ws s → ∀ w ∈ ws, ¬ IsNumber w) →
        e.findAddress (front ++ "." ++ text) = e.findAddress text := by
  refine ⟨sentences text.toList, fun ss => ?_, address?_isSome_iff, fun r hr => ?_,
    fun front hfront => ?_⟩
  · rw [← sentences_eq_iff]
    exact eq_comm
  · obtain ⟨earlier, s, later, address, hcut, hearlier, hstands, rfl⟩ :=
      address?_eq_some_iff.mp hr
    have hsentence : IsSentence (written address).toList :=
      hstands.isSentence ((sentences_eq_iff.mp hcut).isSentence s (by simp))
    refine ⟨⟨earlier, s, later, address, hcut, hearlier, hstands, rfl⟩, hsentence.1, hsentence.2,
      ?_⟩
    -- the address is the only sentence of its own text
    refine address?_eq_some_iff.mpr ⟨[], (written address).toList, [], address, ?_,
      List.forall_mem_nil _, hstands.alone, rfl⟩
    exact sentences_eq_iff.mpr (.last hsentence)
  · refine address?_behind fun s hs => ?_
    rintro ⟨before, number, others, hspaced, hnumber, -⟩
    exact hfront _ s _ (sentences_eq_iff.mp rfl) hs hspaced number (by simp) hnumber

/-- The first number stands in a sentence of its own, and the second one does not stand alone. -/
example : address? "Room 12.\nShip to 42  Wallaby Way, 7 Sydney. Thanks"
    = some "42 Wallaby Way, 7 Sydney" := by
  decide +kernel

end LazyEngine
