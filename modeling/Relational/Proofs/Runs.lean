import Relational.Goal
import Relational.Proofs.Constraining
import Relational.Text.Grammar

/-!
Runs: states that come of constraining earlier ones, from an empty one on. None of them has a
circle in its bindings, so that walking never meets its guard and constraining always ends.
-/

namespace Relational

namespace Bindings

/-- Following `x` at the end of the path leads to a variable for the second time, where the walk
stops. -/
inductive Circles (s : Bindings) : List Var → Var → Prop where
  | here {path : List Var} {x : Var} (h : x ∈ path) : Circles s path x
  | there {path : List Var} {x y : Var} {t : Term} (h : x ∉ path) (hx : s[x]? = some t)
      (hy : y ∈ t.vars) (next : Circles s (x :: path) y) : Circles s path x

lemma Acyclic.not_circles {s : Bindings} (hs : s.Acyclic) {path : List Var} {x : Var}
    (hp : ∀ y ∈ path, s.Reaches y x) : ¬ s.Circles path x := by
  intro h
  induction h with
  | here h => exact hs _ (hp _ h)
  | @there path x y t _ hx hy _ ih =>
    have hxy : s.Refers x y := ⟨t, hx, hy⟩
    refine ih fun z hz => ?_
    rcases List.mem_cons.1 hz with rfl | hz
    · exact .single hxy
    · exact (hp z hz).tail hxy

end Bindings

/-- All terms that the goal compares have the property, whichever variables it takes. -/
def Goal.All (P : Term → Prop) : Goal → Prop
  | .succeed | .fail => True
  | .equal left right | .differ left right => P left ∧ P right
  | .fresh body => ∀ x, (body x).All P

lemma Goal.all_true (g : Goal) : g.All fun _ => True := by
  induction g with
  | succeed | fail => trivial
  | equal | differ => exact ⟨trivial, trivial⟩
  | fresh body ih => exact ih

namespace State

variable {s s' : State}

lemma acyclic_of_unify (hs : s.bindings.Acyclic) {left right : Term}
    (h : s' ∈ (s.unify left right).states.toList) : s'.bindings.Acyclic := by
  obtain ⟨d, hadd, rfl⟩ := exists_addition hs h
  exact hadd.acyclic

lemma eq_of_disunify (hs : s.bindings.Acyclic) {left right : Term}
    (h : s' ∈ (s.disunify left right).states.toList) : s' = s := by
  obtain ⟨ds, hds⟩ := exists_ways (hs.ready left right)
  rw [(disunify_of_ways hs hds).2] at h
  split_ifs at h
  · exact List.mem_singleton.1 h
  · simp at h

lemma disunify_of_length (hs : s.bindings.Acyclic) {left right : Term}
    (h : (s.disunify left right).states.toList.length = 1) :
    (s.disunify left right).states.toList = [s] := by
  obtain ⟨s', hs'⟩ := List.length_eq_one_iff.1 h
  have hsame : s' = s := eq_of_disunify hs (by rw [hs']; exact .head _)
  rw [hs', hsame]

/-- What is kept when a variable is recorded, and when terms with a property are constrained, is kept
by goals that compare such terms only. -/
lemma of_run {P : Term → Prop} {I : State → Prop}
    (equal : ∀ {s s' left right}, I s → P left → P right →
      s' ∈ (s.unify left right).states.toList → I s')
    (differ : ∀ {s s' left right}, I s → s' ∈ (s.disunify left right).states.toList → I s')
    (record : ∀ s x, I s → I { s with ledger := s.ledger ++ [x] })
    {g : Goal} (hg : g.All P) {c : Counters} (hs : I s)
    (h : s' ∈ (g.run s c).1.states.toList) : I s' := by
  induction g generalizing s c with
  | succeed => rwa [List.mem_singleton.1 h]
  | fail => simp [Goal.run, Search.toList] at h
  | equal left right => exact equal hs hg.1 hg.2 h
  | differ left right => exact differ hs h
  | fresh body ih => exact ih _ (hg _) (record s _ hs) h

lemma acyclic_of_run {g : Goal} {c : Counters} (hs : s.bindings.Acyclic)
    (h : s' ∈ (g.run s c).1.states.toList) : s'.bindings.Acyclic := by
  refine of_run (I := fun s => s.bindings.Acyclic) (fun hs _ _ h => acyclic_of_unify hs h)
    (fun hs h => ?_) (fun _ _ hs => hs) g.all_true hs h
  rwa [eq_of_disunify hs h]

/-- One step of a run: to a state that comes of a constraint, of a query that was read, or of a
goal for a fresh variable. -/
inductive Step : State → State → Prop where
  | unify {s s' : State} (left right : Term) (h : s' ∈ (s.unify left right).states.toList) :
      Step s s'
  | disunify {s s' : State} (left right : Term) (h : s' ∈ (s.disunify left right).states.toList) :
      Step s s'
  | query {s s' : State} {text : String} {q : Query} (hq : Query.parse text = .ok q)
      (c : Counters) (h : s' ∈ (q.goal.run s c).1.states.toList) : Step s s'
  | fresh {s s' : State} (body : Var → Goal) (c : Counters)
      (h : s' ∈ ((Goal.fresh body).run s c).1.states.toList) : Step s s'

/-- The state is reached in finitely many steps from an empty one. -/
def Reached (s : State) : Prop := ∃ p, Relation.ReflTransGen Step (.root p) s

lemma Step.acyclic (h : Step s s') (hs : s.bindings.Acyclic) : s'.bindings.Acyclic := by
  cases h with
  | unify left right h => exact acyclic_of_unify hs h
  | disunify left right h => rwa [eq_of_disunify hs h]
  | query hq c h | fresh body c h => exact acyclic_of_run hs h

lemma Reached.acyclic (h : s.Reached) : s.bindings.Acyclic := by
  obtain ⟨p, hp⟩ := h
  induction hp with
  | refl => exact Bindings.acyclic_empty
  | tail _ hstep ih => exact hstep.acyclic ih

/-- **No circles**: the bindings of reached states have none, the walk never meets its guard, and
a bound variable stands for what its term stands for. **Termination**: without circles,
constraining a state ends by itself and never runs into the limit of rounds and depth. -/
theorem acyclic_and_complete :
    (∀ s : State, s.Reached → s.bindings.Acyclic ∧ (∀ x, ¬ s.bindings.Circles [] x) ∧
      ∀ (x : Var) (t : Term), s.bindings[x]? = some t → s.walk (.var x) = s.walk t) ∧
    ∀ (s : State) (left right : Term), s.bindings.Acyclic →
      (s.unify left right).states.Complete ∧ (s.disunify left right).states.Complete := by
  refine ⟨fun s h => ?_, fun s left right hs => ?_⟩
  · have hs := h.acyclic
    exact ⟨hs, fun x => hs.not_circles (by simp), fun x t hx => hs.walk_var_of_some hx⟩
  · obtain ⟨ds, hds⟩ := exists_ways (hs.ready left right)
    exact ⟨(unify_of_ways hs hds).1, (disunify_of_ways hs hds).1⟩

lemma linked_reached : linked.Reached := by
  have hfirst : Step (root .global)
      ((root .global).extend (.single ⟨"x"⟩ (.pair (.var ⟨"y"⟩) (.var ⟨"z"⟩)))) :=
    .unify (.var ⟨"x"⟩) (.pair (.var ⟨"y"⟩) (.var ⟨"z"⟩)) (.head _)
  have hread : Query.parse "z = w" = .ok ⟨.var ⟨"z"⟩, .equal, .var ⟨"w"⟩⟩ := rfl
  exact ⟨.global, .tail (.single hfirst) (.query hread .start (.head _))⟩

/-- Here binding `w` makes the second field grow before it is matched. -/
theorem acyclic_and_complete_linked :
    linked.Reached ∧ linked.bindings.Acyclic ∧ (∀ x, ¬ linked.bindings.Circles [] x) ∧
    (linked.unify (.pair (.var ⟨"w"⟩) (.var ⟨"x"⟩))
      (.pair (.pair (.var ⟨"y"⟩) (.var ⟨"u"⟩)) (.var ⟨"u"⟩))).states.Complete ∧
    (linked.disunify (.pair (.var ⟨"w"⟩) (.var ⟨"x"⟩))
      (.pair (.pair (.var ⟨"y"⟩) (.var ⟨"u"⟩)) (.var ⟨"u"⟩))).states.Complete :=
  have hs := acyclic_and_complete.1 linked linked_reached
  ⟨linked_reached, hs.1, hs.2.1, acyclic_and_complete.2 linked _ _ hs.1⟩

end State

end Relational
