/-
The thread that owns the engine.

Threads are numbered. An owner is a thread's number with the name the thread had when the owner
was recorded; two owners are the same when their numbers are, whatever the names say.

* `Owner.display` — an owner in words;
* `Owner.nameFault?` — why no thread can have a name.
-/

namespace LazyEngine

/-- Number of a thread. -/
abbrev ThreadId := Nat

/-- The one thread allowed to run the initializer. -/
structure Owner where
  thread : ThreadId
  name : Option String

namespace Owner

/-- Names do not count: a thread is the same owner under any name. -/
instance : BEq Owner where
  beq a b := a.thread == b.thread

/-- Whether the calling thread is this owner. -/
def isCurrent (o : Owner) (caller : ThreadId) : Bool :=
  o.thread == caller

/-- The owner as messages show it, for a given spelling of the thread's number. -/
def display (o : Owner) (number : String) : String :=
  match o.name with
  | some name => name ++ " (ThreadId(" ++ number ++ "))"
  | none => "ThreadId(" ++ number ++ ")"

/-- Why no thread can have a name: it holds a NUL character. The words tell where the first one is,
and all bytes of the name. -/
def nameFault? (name : String) : Option String :=
  let bytes := name.toUTF8.toList
  (bytes.findIdx? (· == 0)).map fun position =>
    "thread name may not contain interior null bytes: NulError(" ++ toString position ++ ", ["
      ++ ", ".intercalate (bytes.map fun b => toString b.toNat) ++ "])"

theorem isCurrent_iff {o : Owner} {caller : ThreadId} :
    o.isCurrent caller = true ↔ caller = o.thread := by
  rw [isCurrent, beq_iff_eq, eq_comm]

theorem beq_iff {a b : Owner} : (a == b) = true ↔ a.thread = b.thread := by
  simp [BEq.beq]

end Owner

end LazyEngine
