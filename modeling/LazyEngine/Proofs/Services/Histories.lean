/-
Histories of requests.

What is kept of a history is often what its last request of some kind has left.

* `append_singleton_eq_iff` — an entry of a history is its last one, or one of those before;
* `Latest` — of the requests that concern something, the last one has set it to a value;
* **`latest_foldl_iff`** — this is what is kept where every request that concerns it either sets it
  or forgets it, by induction on the history.
-/
import Mathlib.Data.List.Basic
import Mathlib.Data.List.Induction

namespace LazyEngine

variable {R S V : Type} {effect : R → Option (Option V)} {history : List R} {request : R} {v : V}

/-- An entry of a history is its last one or one of those before. -/
theorem append_singleton_eq_iff {before later : List R} {last : R} :
    history ++ [last] = before ++ request :: later ↔
      (history = before ∧ last = request ∧ later = []) ∨
      ∃ later', later = later' ++ [last] ∧ history = before ++ request :: later' := by
  constructor
  · intro h
    rcases List.eq_nil_or_concat' later with rfl | ⟨later', x, rfl⟩
    · obtain ⟨hh, hl⟩ := List.append_inj' h rfl
      exact .inl ⟨hh, List.singleton_inj.mp hl, rfl⟩
    · rw [← List.cons_append, ← List.append_assoc] at h
      obtain ⟨hh, hl⟩ := List.append_inj' h rfl
      exact .inr ⟨later', by rw [List.singleton_inj.mp hl], hh⟩
  · rintro (⟨rfl, rfl, rfl⟩ | ⟨later', rfl, rfl⟩)
    · rfl
    · simp

/-- A request of the history has set the value, and no later one has set it again, or forgotten it.
The effect of a request is none if it does not matter, and otherwise what it sets, if anything. -/
def Latest (effect : R → Option (Option V)) (history : List R) (v : V) : Prop :=
  ∃ before request later, history = before ++ request :: later ∧ effect request = some (some v) ∧
    ∀ other ∈ later, effect other = none

theorem latest_nil : ¬ Latest effect [] v := by
  rintro ⟨before, request, later, heq, -⟩
  simp at heq

theorem latest_concat :
    Latest effect (history ++ [request]) v ↔
      effect request = some (some v) ∨ effect request = none ∧ Latest effect history v := by
  constructor
  · rintro ⟨before, first, later, heq, hset, hlater⟩
    rcases append_singleton_eq_iff.mp heq with ⟨rfl, rfl, -⟩ | ⟨later, rfl, rfl⟩
    · exact .inl hset
    · exact .inr ⟨hlater request (by simp), before, first, later, rfl, hset,
        fun other hother => hlater other (by simp [hother])⟩
  · rintro (hset | ⟨hnone, before, first, later, rfl, hset, hlater⟩)
    · exact ⟨history, request, [], rfl, hset, List.forall_mem_nil _⟩
    · refine ⟨before, first, later ++ [request], by simp, hset, fun other hother => ?_⟩
      rcases List.mem_append.mp hother with hother | hother
      · exact hlater other hother
      · rw [List.mem_singleton.mp hother]
        exact hnone

/-- **What is kept is the latest**, if every request that matters sets it or forgets it, and no
other request touches it. -/
theorem latest_foldl_iff {step : S → R → S} (kept : S → Option V) {start : S}
    (hstart : kept start = none)
    (hstep : ∀ s request, kept (step s request) = (effect request).getD (kept s))
    (history : List R) (v : V) :
    kept (history.foldl step start) = some v ↔ Latest effect history v := by
  induction history using List.reverseRecOn with
  | nil => simp [hstart, latest_nil]
  | append_singleton history request ih =>
    rw [List.foldl_append, List.foldl_cons, List.foldl_nil, hstep, latest_concat, ← ih]
    cases effect request with
    | none => simp
    | some set => simp

end LazyEngine
