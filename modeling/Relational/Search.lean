import Relational.Event

/-!
Searches: answers in order, with the events on the way to each. What follows an answer is not
looked at before it is asked for.
-/

namespace Relational

inductive Search (α : Type) where
  | done
  /-- Given up, because the search went deeper than it was allowed to. -/
  | cut
  | note (e : Event) (rest : Search α)
  | answer (a : α) (rest : Unit → Search α)

namespace Search

variable {α β : Type}

def single (a : α) : Search α := .answer a fun _ => .done

def ofList : List α → Search α
  | [] => .done
  | a :: as => .answer a fun _ => ofList as

def notes (log : List Event) (s : Search α) : Search α := log.foldr .note s

def append : Search α → (Unit → Search α) → Search α
  | .done, more => more ()
  | .cut, _ => .cut
  | .note e rest, more => .note e (rest.append more)
  | .answer a rest, more => .answer a fun _ => (rest ()).append more

def bind : Search α → (α → Search β) → Search β
  | .done, _ => .done
  | .cut, _ => .cut
  | .note e rest, f => .note e (rest.bind f)
  | .answer a rest, f => (f a).append fun _ => (rest ()).bind f

/-- Looks for the first answer: the events before it, and the search from there on if there is
one. -/
def opening : Search α → List Event × Option (Search α)
  | .done => ([], none)
  | .note e rest => (e :: rest.opening.1, rest.opening.2)
  | s => ([], some s)

/-- The events and answers up to the `n`-th answer. -/
def pull : Nat → Search α → List (Event ⊕ α)
  | 0, _ => []
  | _, .done => []
  | _, .cut => []
  | n + 1, .note e rest => .inl e :: pull (n + 1) rest
  | n + 1, .answer a rest => .inr a :: pull n (rest ())

def take (n : Nat) (s : Search α) : List α := (s.pull n).filterMap Sum.getRight?

def toList : Search α → List α
  | .done => []
  | .cut => []
  | .note _ rest => rest.toList
  | .answer a rest => a :: (rest ()).toList

/-- The search ends by itself. -/
def Complete : Search α → Prop
  | .done => True
  | .cut => False
  | .note _ rest => rest.Complete
  | .answer _ rest => (rest ()).Complete

/-- What is pulled are the first of all answers. -/
theorem take_eq (n : Nat) (s : Search α) : s.take n = s.toList.take n := by
  induction s generalizing n with
  | done | cut => cases n <;> rfl
  | note e rest ih =>
    cases n with
    | zero => rfl
    | succ n => exact ih (n + 1)
  | answer a rest ih =>
    cases n with
    | zero => rfl
    | succ n => exact congrArg (a :: ·) (ih () n)

/-! ### Composition -/

theorem append_assoc (u : Search α) (v w : Unit → Search α) :
    (u.append v).append w = u.append fun _ => (v ()).append w := by
  induction u with
  | done | cut => rfl
  | note e rest ih => exact congrArg (note e) ih
  | answer a rest ih => exact congrArg (answer a) (funext fun _ => ih ())

theorem append_done (w : Search α) : (w.append fun _ => .done) = w := by
  induction w with
  | done | cut => rfl
  | note e rest ih => exact congrArg (note e) ih
  | answer a rest ih => exact congrArg (answer a) (funext fun _ => ih ())

theorem notes_append (log log' : List Event) (w : Search α) :
    notes (log ++ log') w = notes log (notes log' w) :=
  List.foldr_append

theorem append_notes (log : List Event) (w : Search α) (more : Unit → Search α) :
    (notes log w).append more = notes log (w.append more) := by
  induction log with
  | nil => rfl
  | cons e log ih => exact congrArg (note e) ih

theorem bind_notes (log : List Event) (w : Search α) (f : α → Search β) :
    (notes log w).bind f = notes log (w.bind f) := by
  induction log with
  | nil => rfl
  | cons e log ih => exact congrArg (note e) ih

theorem opening_notes (log : List Event) (w : Search α) :
    (notes log w).opening = (log ++ w.opening.1, w.opening.2) := by
  induction log with
  | nil => rfl
  | cons e log ih =>
    change (e :: (notes log w).opening.1, (notes log w).opening.2) = _
    rw [ih]
    rfl

/-! ### Answers of composed searches -/

theorem toList_single (a : α) : (single a).toList = [a] := rfl

theorem complete_single (a : α) : (single a).Complete := trivial

theorem toList_ofList (as : List α) : (ofList as).toList = as := by
  induction as with
  | nil => rfl
  | cons a as ih => simp [ofList, toList, ih]

theorem complete_ofList (as : List α) : (ofList as).Complete := by
  induction as with
  | nil => trivial
  | cons a as ih => exact ih

theorem toList_notes (log : List Event) (s : Search α) : (notes log s).toList = s.toList := by
  induction log with
  | nil => rfl
  | cons e log ih => exact ih

theorem complete_notes {log : List Event} {s : Search α} :
    (notes log s).Complete ↔ s.Complete := by
  induction log with
  | nil => exact Iff.rfl
  | cons e log ih => exact ih

theorem toList_append {s : Search α} (h : s.Complete) (more : Unit → Search α) :
    (s.append more).toList = s.toList ++ (more ()).toList := by
  induction s with
  | done => rfl
  | cut => exact h.elim
  | note e rest ih => exact ih h
  | answer a rest ih => simp [append, toList, ih () h]

theorem complete_append {s : Search α} {more : Unit → Search α} (h : s.Complete)
    (k : (more ()).Complete) : (s.append more).Complete := by
  induction s with
  | done => exact k
  | cut => exact h.elim
  | note e rest ih => exact ih h
  | answer a rest ih => exact ih () h

theorem complete_bind {s : Search α} {f : α → Search β} (h : s.Complete)
    (k : ∀ a ∈ s.toList, (f a).Complete) : (s.bind f).Complete := by
  induction s with
  | done => trivial
  | cut => exact h.elim
  | note e rest ih => exact ih h k
  | answer a rest ih =>
    refine complete_append (k a (by simp [toList])) (ih () h fun b hb => ?_)
    exact k b (by simp [toList, hb])

theorem toList_bind {s : Search α} {f : α → Search β} (h : s.Complete)
    (k : ∀ a ∈ s.toList, (f a).Complete) :
    (s.bind f).toList = s.toList.flatMap fun a => (f a).toList := by
  induction s with
  | done => rfl
  | cut => exact h.elim
  | note e rest ih => exact ih h k
  | answer a rest ih =>
    rw [bind, toList_append (k a (by simp [toList])), toList, List.flatMap_cons]
    rw [ih () h fun b hb => k b (by simp [toList, hb])]

end Search

end Relational
