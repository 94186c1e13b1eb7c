/-
How many retain an icon.

The database counts in words, and it takes one off a count without looking at it. That this never
goes below zero depends on what is left out of the table, not on what is in it:

* `IconDatabase.tally` — the number of those who retain a page, going by the requests alone;
  `IconDatabase.tally_le` — no page has more than there were retains;
* `IconDatabase.Exact` — a page is in the table exactly when somebody retains it, and then with
  this number; `IconDatabase.Exact.answer` — every request keeps this, as long as there is room for
  one more in a word;
* **`IconDatabase.counts_exact`** — so after any history the counts are right, and none of them is
  zero.
-/
import LazyEngine.Services.IconDatabase
import Mathlib.Data.List.DropRight
import Mathlib.Data.List.Induction

namespace LazyEngine

namespace IconRequest

/-- The request retains the icon of a page. -/
def retains : IconRequest → Bool
  | retain _ => true
  | _ => false

/-- The request retains or releases the icon of the page. -/
def isOn (url : String) : IconRequest → Bool
  | retain other | release other => other == url
  | _ => false

/-- One more, or one less if there is one. -/
def counted (n : Nat) : IconRequest → Nat
  | retain _ => n + 1
  | release _ => n - 1
  | _ => n

end IconRequest

namespace IconDatabase

open IconRequest

variable {d : IconDatabase} {history : List IconRequest} {url : String}

/-- The database after a history of requests, beginning with a new one. -/
def after (history : List IconRequest) : IconDatabase :=
  history.foldl (fun d request => (d.answer request).2) { retained := .empty }

theorem after_concat (history : List IconRequest) (request : IconRequest) :
    after (history ++ [request]) = ((after history).answer request).2 := by
  simp [after, List.foldl_append]

/-! ### Counting requests -/

/-- How many retain the icon of a page: of the requests since all icons were last removed, those on
this page count, beginning with nobody. -/
def tally (url : String) (history : List IconRequest) : Nat :=
  ((history.rtakeWhile (· != .removeAll)).filter (·.isOn url)).foldl counted 0

theorem tally_removeAll (url : String) (history : List IconRequest) :
    tally url (history ++ [.removeAll]) = 0 := by
  simp [tally]

/-- A request that removes nothing counts when it is on the page. -/
theorem tally_concat {request : IconRequest} (hremove : request ≠ .removeAll) (url : String)
    (history : List IconRequest) :
    tally url (history ++ [request]) =
      if request.isOn url then counted (tally url history) request else tally url history := by
  rw [tally, List.rtakeWhile_concat, if_pos (by simpa using hremove), List.filter_append,
    List.foldl_append]
  by_cases hon : request.isOn url = true
  · simp [hon, tally]
  · simp [hon, tally]

theorem tally_retain (url page : String) (history : List IconRequest) :
    tally url (history ++ [.retain page]) =
      if page = url then tally url history + 1 else tally url history := by
  rw [tally_concat (by simp)]
  simp [isOn, counted]

theorem tally_release (url page : String) (history : List IconRequest) :
    tally url (history ++ [.release page]) =
      if page = url then tally url history - 1 else tally url history := by
  rw [tally_concat (by simp)]
  simp [isOn, counted]

theorem tally_aside {request : IconRequest} (hremove : request ≠ .removeAll)
    (hon : request.isOn url = false) (history : List IconRequest) :
    tally url (history ++ [request]) = tally url history := by
  rw [tally_concat hremove, hon]
  rfl

/-- Nobody retains an icon who has not asked for it. -/
theorem tally_le (url : String) (history : List IconRequest) :
    tally url history ≤ history.countP retains := by
  induction history using List.reverseRecOn with
  | nil => exact Nat.le_refl 0
  | append_singleton history request ih =>
    rw [List.countP_append]
    cases request with
    | retain page =>
      rw [tally_retain, show [IconRequest.retain page].countP retains = 1 from rfl]
      split <;> omega
    | release page =>
      rw [tally_release]
      split <;> omega
    | removeAll =>
      rw [tally_removeAll]
      omega
    | openAt | close | isOpen | count =>
      rw [tally_aside (by simp) rfl]
      omega

/-! ### What every request keeps -/

/-- A request on another page does not matter, nor does one that is not about icons at all. -/
theorem count_answer {request : IconRequest} (hon : request.isOn url = false)
    (hremove : request ≠ .removeAll) : (d.answer request).2.count url = d.count url := by
  cases request with
  | retain page =>
    have hne : page ≠ url := by simpa [isOn] using hon
    simp [answer, retain, count, Table.get?_insert, hne.symm]
  | release page =>
    have hne : page ≠ url := by simpa [isOn] using hon
    simp only [answer, release]
    split
    · rfl
    · rw [count, count]
      dsimp only
      split
      · rw [Table.get?_erase, if_neg hne.symm]
      · rw [Table.get?_insert, if_neg hne.symm]
  | removeAll => exact absurd rfl hremove
  | openAt | close | isOpen | count => rfl

/-- A page is in the table when somebody retains it, with the number of those who do. -/
def Exact (d : IconDatabase) (history : List IconRequest) : Prop :=
  ∀ url, (d.retained.get? url).map UInt64.toNat =
    if tally url history = 0 then none else some (tally url history)

theorem Exact.get?_eq_none_iff (h : Exact d history) :
    d.retained.get? url = none ↔ tally url history = 0 := by
  have hurl := h url
  rw [← Option.map_eq_none_iff, hurl]
  split <;> simp_all

theorem Exact.toNat_eq (h : Exact d history) {n : UInt64} (hget : d.retained.get? url = some n) :
    n.toNat = tally url history ∧ tally url history ≠ 0 := by
  have hurl := h url
  rw [hget, Option.map_some] at hurl
  split at hurl
  · cases hurl
  · rename_i hne
    exact ⟨Option.some.inj hurl, hne⟩

theorem Exact.count_eq (h : Exact d history) (url : String) :
    (d.count url).toNat = tally url history := by
  rw [count]
  cases hget : d.retained.get? url with
  | none => exact (h.get?_eq_none_iff.mp hget).symm
  | some n => exact (h.toNat_eq hget).1

theorem exact_nil : Exact { retained := .empty } [] := fun _ => rfl

/-- A request that is about one page at most: the others stay as they are. -/
theorem Exact.change (h : Exact d history) {d' : IconDatabase} {request : IconRequest}
    {page : String} (hremove : request ≠ .removeAll)
    (hothers : ∀ url, page ≠ url → request.isOn url = false ∧
      d'.retained.get? url = d.retained.get? url)
    (hpage : (d'.retained.get? page).map UInt64.toNat =
      if tally page (history ++ [request]) = 0 then none
      else some (tally page (history ++ [request]))) :
    Exact d' (history ++ [request]) := by
  intro url
  by_cases hurl : page = url
  · exact hurl ▸ hpage
  · obtain ⟨hon, hget⟩ := hothers url hurl
    rw [tally_aside hremove hon, hget]
    exact h url

/-- A request that is not about icons. -/
theorem Exact.aside (h : Exact d history) {d' : IconDatabase} {request : IconRequest}
    (hd : d'.retained = d.retained) (hremove : request ≠ .removeAll)
    (hon : ∀ url, request.isOn url = false) : Exact d' (history ++ [request]) := by
  intro url
  rw [hd, tally_aside hremove (hon url)]
  exact h url

/-- One retainer more. There is room for it in a word. -/
theorem Exact.retain (h : Exact d history) (page : String)
    (hroom : tally page history + 1 < UInt64.size) :
    Exact (d.retain page) (history ++ [.retain page]) := by
  refine h.change (by simp) (fun url hurl => ⟨by simpa [isOn] using hurl, ?_⟩) ?_
  · rw [IconDatabase.retain, Table.get?_insert, if_neg (Ne.symm hurl)]
  · rw [IconDatabase.retain, Table.get?_insert, tally_retain, if_pos rfl, if_pos rfl,
      if_neg (Nat.succ_ne_zero _), Option.map_some, UInt64.toNat_add, UInt64.toNat_one,
      h.count_eq page, Nat.mod_eq_of_lt hroom]

theorem sub_one_of_ne_zero {n : UInt64} (h : n.toNat ≠ 0) :
    1 ≤ n ∧ (n - 1).toNat = n.toNat - 1 := by
  have hone : (1 : UInt64) ≤ n := by
    rw [UInt64.le_iff_toNat_le, UInt64.toNat_one]
    omega
  exact ⟨hone, by rw [UInt64.toNat_sub_of_le _ _ hone, UInt64.toNat_one]⟩

/-- One retainer less. The count of a page in the table is not zero, so one can be taken off it,
and if this was the last one the page is taken out. -/
theorem Exact.release (h : Exact d history) (page : String) :
    Exact (d.release page) (history ++ [.release page]) := by
  cases hget : d.retained.get? page with
  | none =>
    -- nobody retains the page, so there is nothing to count down from
    have hzero := h.get?_eq_none_iff.mp hget
    rw [show d.release page = d by simp [IconDatabase.release, hget]]
    refine h.change (by simp) (fun url hurl => ⟨by simpa [isOn] using hurl, rfl⟩) ?_
    rw [tally_release, if_pos rfl, hget, hzero]
    rfl
  | some n =>
    obtain ⟨hn, hne⟩ := h.toNat_eq hget
    obtain ⟨-, hless⟩ := sub_one_of_ne_zero (hn ▸ hne)
    have hlast : n - 1 = 0 ↔ tally page history - 1 = 0 := by
      rw [← UInt64.toNat_inj, hless, hn, UInt64.toNat_zero]
    refine h.change (by simp) (fun url hurl => ⟨by simpa [isOn] using hurl, ?_⟩) ?_
    · simp only [IconDatabase.release, hget]
      split
      · rw [Table.get?_erase, if_neg (Ne.symm hurl)]
      · rw [Table.get?_insert, if_neg (Ne.symm hurl)]
    · rw [tally_release, if_pos rfl]
      simp only [IconDatabase.release, hget]
      by_cases hzero : n - 1 = 0
      · rw [if_pos hzero, if_pos (hlast.mp hzero), Table.get?_erase, if_pos rfl, Option.map_none]
      · rw [if_neg hzero, if_neg (mt hlast.mpr hzero), Table.get?_insert, if_pos rfl,
          Option.map_some, hless, hn]

theorem Exact.removeAll (d : IconDatabase) (history : List IconRequest) :
    Exact d.removeAll (history ++ [.removeAll]) := by
  intro url
  rw [tally_removeAll]
  rfl

/-- **Every request keeps the counts exact**: the step lemma of `exact_after`. -/
theorem Exact.answer (h : Exact d history) (request : IconRequest)
    (hroom : request.retains = true → ∀ url, tally url history + 1 < UInt64.size) :
    Exact (d.answer request).2 (history ++ [request]) := by
  cases request with
  | retain url => exact h.retain url (hroom rfl url)
  | release url => exact h.release url
  | removeAll => exact Exact.removeAll d history
  | openAt | close | isOpen | count => exact h.aside rfl (by simp) fun _ => rfl

/-- The counts are exact after any history with fewer retains than a word can count. -/
theorem exact_after (history : List IconRequest) (hfew : history.countP retains < UInt64.size) :
    Exact (after history) history := by
  induction history using List.reverseRecOn with
  | nil => exact exact_nil
  | append_singleton history request ih =>
    rw [List.countP_append, List.countP_singleton] at hfew
    rw [after_concat]
    refine (ih (by omega)).answer request fun hretains url => ?_
    -- the request is one of the few that retain, so there is room for it
    have hle := tally_le url history
    rw [if_pos hretains] at hfew
    omega

/-! ### Main result -/

/-- **Counts of icons are exact.** After any history of requests with fewer retains than there are
words of 64 bits, every count in the table is at least one, so one can be taken off it; the database
answers for a page with the number that the requests on this page since all icons were last removed
come to; no other request but one that removes all icons has any effect on this answer; and a page
that nobody retains has no entry. -/
theorem counts_exact (history : List IconRequest) (hfew : history.countP retains < UInt64.size) :
    (∀ url n, (after history).retained.get? url = some n →
      1 ≤ n ∧ (n - 1).toNat + 1 = n.toNat) ∧
    (∀ url, ((after history).answer (.count url)).1 = .number (tally url history)) ∧
    (∀ url request, request.isOn url = false → request ≠ .removeAll →
      (((after history).answer request).2.answer (.count url)).1
        = ((after history).answer (.count url)).1) ∧
    ∀ url, ((after history).answer (.count url)).1 = .number 0 →
      (after history).retained.get? url = none := by
  have h := exact_after history hfew
  refine ⟨fun url n hget => ?_, fun url => ?_, fun url request hon hremove => ?_,
    fun url hzero => ?_⟩
  · obtain ⟨hn, hne⟩ := h.toNat_eq hget
    obtain ⟨hone, hless⟩ := sub_one_of_ne_zero (hn ▸ hne)
    exact ⟨hone, by omega⟩
  · exact congrArg Value.number (h.count_eq url)
  · refine congrArg (fun n : UInt64 => Value.number n.toNat) ?_
    exact count_answer hon hremove
  · have hcount := h.count_eq url
    rw [h.get?_eq_none_iff, ← hcount]
    exact Value.number.inj hzero

/-- What `counts_exact` says after a release that nobody has asked for, in the middle of two
pages' requests. -/
theorem counts_exact_after_release :
    let history : List IconRequest := [.retain "a", .retain "b", .removeAll, .release "a",
      .retain "a", .openAt "icons", .retain "a", .release "b", .release "a"]
    history.countP retains < UInt64.size ∧ (after history).retained.get? "a" = some 1 ∧
    (1 ≤ (1 : UInt64) ∧ ((1 : UInt64) - 1).toNat + 1 = (1 : UInt64).toNat) ∧
    ((after history).answer (.count "a")).1 = .number (tally "a" history) ∧
    tally "a" history = 1 ∧ (after history).retained.get? "b" = none := by
  intro history
  have hfew : history.countP retains < UInt64.size := by decide
  have hget : (after history).retained.get? "a" = some 1 := by decide +kernel
  obtain ⟨hone, hcount, -, hnone⟩ := counts_exact history hfew
  refine ⟨hfew, hget, hone "a" 1 hget, hcount "a", by decide +kernel, hnone "b" ?_⟩
  rw [hcount "b"]
  decide +kernel

end IconDatabase

end LazyEngine
