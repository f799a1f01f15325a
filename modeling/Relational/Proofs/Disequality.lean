import Relational.Proofs.FloatFree
import Relational.Proofs.Growth
import Relational.Proofs.Keeping
import Relational.Proofs.MostGeneral

/-!
What it means that two terms were kept different. Nothing is recorded of it, and nothing has to
be: the state stays as it is only when no substitution that satisfies it makes the terms equal,
and what the variables stand for in a later state is a substitution that satisfies it.
-/

namespace Relational

namespace Term

lemma closed_floatFree : Closed (floatFree · = true) :=
  closed_of_parts (fun _ => rfl) floatFree_pair floatFree_expr.1
    (fun _ ha hb => floatFree_expr.2 ⟨ha, hb⟩)
    (by simpa only [floatFree_value] using Scalar.closed_kind)

lemma floatFree_of_structural {t : Term} (ht : t.structural) : t.floatFree := by
  induction t with
  | empty | var x => rfl
  | value v => exact floatFree_value.2 (structural_value.1 ht)
  | pair a b iha ihb =>
    rw [structural_pair] at ht
    exact floatFree_pair.2 ⟨iha ht.1, ihb ht.2⟩
  | expr a op b => exact absurd ht not_structural_expr

end Term

/-! ### Steps on terms with a property -/

namespace State

variable {P : Term → Prop} {s s' : State}

/-- One step of a run, by a goal that compares terms with the property only. -/
def StepOn (P : Term → Prop) (s s' : State) : Prop :=
  ∃ (g : Goal) (c : Counters), g.All P ∧ s' ∈ (g.run s c).1.states.toList

lemma StepOn.steps (h : StepOn P s s') : Relation.ReflTransGen Step s s' := by
  obtain ⟨g, c, -, h⟩ := h
  cases g with
  | succeed => rw [List.mem_singleton.1 h]
  | fail => simp [Goal.run, Search.toList] at h
  | equal left right => exact .single (.unify left right h)
  | differ left right => exact .single (.disunify left right h)
  | fresh body => exact .single (.fresh body c h)

lemma all_of_run (hP : Term.Closed P) {g : Goal} {c : Counters} (hs : s.bindings.Acyclic)
    (hall : s.bindings.All P) (hg : g.All P) (h : s' ∈ (g.run s c).1.states.toList) :
    s'.bindings.All P := by
  refine (of_run (I := fun r => r.bindings.Acyclic ∧ r.bindings.All P) (fun hr ha hb h => ?_)
    (fun hr h => ?_) (fun _ _ hr => hr) hg ⟨hs, hall⟩ h).2
  · exact ⟨acyclic_of_unify hr.1 h, all_of_unify hP hr.2 ha hb h⟩
  · rwa [eq_of_disunify hr.1 h]

/-- A run by goals that compare terms with the property only is a run, and all that it binds has
the property. -/
lemma all_of_steps (hP : Term.Closed P) (hs : s.bindings.Acyclic) (hall : s.bindings.All P)
    (h : Relation.ReflTransGen (StepOn P) s s') :
    Relation.ReflTransGen Step s s' ∧ s'.bindings.All P := by
  induction h with
  | refl => exact ⟨.refl, hall⟩
  | tail _ hstep ih =>
    obtain ⟨hrun, hall'⟩ := ih
    have hacyclic := (within_of_steps hs hrun).1
    refine ⟨hrun.trans hstep.steps, ?_⟩
    obtain ⟨g, c, hg, h⟩ := hstep
    exact all_of_run hP hacyclic hall' hg h

/-! ### Later states -/

/-- What the variables stand for later satisfies the bindings from before. -/
lemma holds_of_within (hst : s.bindings.All (·.structural)) (hs' : s'.bindings.Acyclic)
    (h : s.bindings.Within s'.bindings) : s.bindings.Holds fun x => s'.walk (.var x) := by
  intro x t hx
  rw [← Term.instantiate_eq_subst (hst x t hx)]
  exact hs'.walk_var_of_some (h x t hx)

/-- The state stays only when no substitution that satisfies it makes the terms equal. -/
lemma subst_ne_of_disunify (hs : s.bindings.Acyclic) (hst : s.bindings.All (·.structural))
    {a b : Term} (ha : a.structural) (hb : b.structural)
    (h : s ∈ (s.disunify a b).states.toList) {θ : Var → Term} (hθ : s.bindings.Holds θ) :
    a.subst θ ≠ b.subst θ := by
  obtain ⟨ds, hds⟩ := exists_ways (hs.ready a b)
  have hnil : ds = [] := by
    rw [(disunify_of_ways hs hds).2] at h
    by_contra hne
    simp [hne] at h
  subst hnil
  rcases hds.decided (hs.ready a b) hst (hst.structural_walk ha) (hst.structural_walk hb) with
    ⟨d, hd, -⟩ | ⟨-, hno⟩
  · simp at hd
  · have hne := hno θ hθ
    rwa [hθ.subst_walk hst ha, hθ.subst_walk hst hb] at hne

/-- **Lasting difference**: when two structural terms could be kept different in a state with
structural bindings, they stay different in every run from it, whatever is asserted there, with
expressions too. As long as no float is asserted they are not equal as values either. -/
theorem disunify_lasts (s : State) (a b : Term) (hs : s.bindings.Acyclic)
    (hst : s.bindings.All (·.structural)) (ha : a.structural) (hb : b.structural)
    (hpass : s ∈ (s.disunify a b).states.toList) :
    (∀ s', Relation.ReflTransGen Step s s' → s'.walk a ≠ s'.walk b) ∧
    ∀ s', Relation.ReflTransGen (StepOn (·.floatFree)) s s' →
      (s'.walk a).equal (s'.walk b) = false := by
  have hdifferent : ∀ s', Relation.ReflTransGen Step s s' → s'.walk a ≠ s'.walk b := by
    intro s' hrun heq
    obtain ⟨hs', hwithin⟩ := within_of_steps hs hrun
    refine subst_ne_of_disunify hs hst ha hb hpass (holds_of_within hst hs' hwithin) ?_
    calc a.subst (fun x => s'.walk (.var x)) = s'.walk a :=
          (Term.instantiate_eq_subst ha _).symm
      _ = s'.walk b := heq
      _ = b.subst fun x => s'.walk (.var x) := Term.instantiate_eq_subst hb _
  refine ⟨hdifferent, fun s' hrun => ?_⟩
  have hfree : s.bindings.All (·.floatFree) := fun x t hx =>
    Term.floatFree_of_structural (hst x t hx)
  obtain ⟨hsteps, hall⟩ := all_of_steps Term.closed_floatFree hs hfree hrun
  have hfa : (s'.walk a).floatFree :=
    hall.walk Term.closed_floatFree.toHereditary (Term.floatFree_of_structural ha)
  have hfb : (s'.walk b).floatFree :=
    hall.walk Term.closed_floatFree.toHereditary (Term.floatFree_of_structural hb)
  rw [← Bool.not_eq_true, Term.equal_iff_eq hfa hfb]
  exact hdifferent s' hsteps

/-- The state `linked` later on, with `w` bound to an expression that has a value by then. -/
def linkedLater : State :=
  (linked.extend (.single ⟨"w"⟩ (.expr (.var ⟨"u"⟩) .plus (.int 1)))).extend
    (.single ⟨"u"⟩ (.int 1))

/-- Here the terms differ because `w` cannot be a pair of itself and something else. -/
theorem disunify_lasts_linked :
    linked.bindings.Acyclic ∧ linked.bindings.All (·.structural) ∧
    linked ∈ (linked.disunify (.var ⟨"x"⟩)
      (.pair (.var ⟨"y"⟩) (.pair (.var ⟨"z"⟩) (.int 1)))).states.toList ∧
    Relation.ReflTransGen (StepOn (·.floatFree)) linked linkedLater ∧
    linkedLater.walk (.var ⟨"x"⟩) ≠
      linkedLater.walk (.pair (.var ⟨"y"⟩) (.pair (.var ⟨"z"⟩) (.int 1))) ∧
    (linkedLater.walk (.var ⟨"x"⟩)).equal
      (linkedLater.walk (.pair (.var ⟨"y"⟩) (.pair (.var ⟨"z"⟩) (.int 1)))) = false := by
  have hone : (linked.disunify (.var ⟨"x"⟩)
      (.pair (.var ⟨"y"⟩) (.pair (.var ⟨"z"⟩) (.int 1)))).states.toList.length = 1 := by
    decide +kernel
  have hpass : linked ∈ (linked.disunify (.var ⟨"x"⟩)
      (.pair (.var ⟨"y"⟩) (.pair (.var ⟨"z"⟩) (.int 1)))).states.toList := by
    rw [disunify_of_length linked_acyclic hone]
    exact .head _
  have hw : StepOn (·.floatFree) linked
      (linked.extend (.single ⟨"w"⟩ (.expr (.var ⟨"u"⟩) .plus (.int 1)))) :=
    ⟨.equal (.var ⟨"w"⟩) (.expr (.var ⟨"u"⟩) .plus (.int 1)), .start, ⟨rfl, rfl⟩, .head _⟩
  have hu : StepOn (·.floatFree)
      (linked.extend (.single ⟨"w"⟩ (.expr (.var ⟨"u"⟩) .plus (.int 1)))) linkedLater :=
    ⟨.equal (.var ⟨"u"⟩) (.int 1), .start, ⟨rfl, rfl⟩, .head _⟩
  have hrun : Relation.ReflTransGen (StepOn (·.floatFree)) linked linkedLater :=
    .tail (.single hw) hu
  obtain ⟨hdifferent, hunequal⟩ := disunify_lasts linked (.var ⟨"x"⟩)
    (.pair (.var ⟨"y"⟩) (.pair (.var ⟨"z"⟩) (.int 1))) linked_acyclic linked_structural rfl rfl
    hpass
  exact ⟨linked_acyclic, linked_structural, hpass, hrun,
    hdifferent _ (hw.steps.trans hu.steps), hunequal _ hrun⟩

end State

end Relational
