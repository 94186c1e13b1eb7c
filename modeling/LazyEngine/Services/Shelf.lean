/-
Objects that are made when they are first wanted.

A shelf keeps every object of a kind that was ever made, and which of them is handed out; an object
is known by its place on the shelf. `Shelf.request` is the one way to get an object: it makes one
if none is handed out.
-/

namespace LazyEngine

/-- Place of an object on its shelf. -/
abbrev ObjectId := Nat

/-- All objects of a kind, oldest first. -/
structure Shelf (A : Type) where
  made : List A := []
  /-- The object that is handed out. -/
  current : Option ObjectId := none

namespace Shelf

variable {A : Type}

/-- The object that is handed out; `fresh` if there is none yet. -/
def request (s : Shelf A) (fresh : A) : ObjectId × Shelf A :=
  match s.current with
  | some id => (id, s)
  | none => (s.made.length, { made := s.made ++ [fresh], current := some s.made.length })

def get? (s : Shelf A) (id : ObjectId) : Option A :=
  s.made[id]?

/-- Let an object answer, and change if it does. -/
def ask {B : Type} (s : Shelf A) (id : ObjectId) (answer : A → B × A) (default : B) :
    B × Shelf A :=
  match s.made[id]? with
  | none => (default, s)
  | some a =>
    let (b, a) := answer a
    (b, { s with made := s.made.set id a })

theorem request_request (s : Shelf A) (fresh fresh' : A) :
    ((s.request fresh).2.request fresh') = s.request fresh := by
  cases h : s.current <;> simp [request, h]

theorem get?_request (s : Shelf A) (fresh : A) (h : s.current = none) :
    (s.request fresh).2.get? (s.request fresh).1 = some fresh := by
  simp [request, h, get?]

end Shelf

end LazyEngine
