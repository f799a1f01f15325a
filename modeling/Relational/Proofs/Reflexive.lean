import Relational.Proofs.FloatFree
import Relational.Proofs.Leaves
import Relational.Proofs.Runs

/-!
Making equal what is equal already. Nothing is added, and there is one way to do so, as long as
no expression is left in the terms: an expression matches no expression, also not itself, so that
an equation with one cannot be asserted twice, and its negation passes.
-/

namespace Relational

namespace Term

/-- No expression stands in the term. -/
def exprFree : Term → Bool
  | .empty | .value _ | .var _ => true
  | .pair a b => a.exprFree && b.exprFree
  | .expr _ _ _ => false

lemma leaves_of_equal {l r : Term} (hp : ¬ Pairs l r) (h : l.equal r) :
    l.leaves r = if l.exprFree then [∅] else [] := by
  cases l <;> cases r <;> simp only [equal, Bool.false_eq_true, decide_eq_true_eq] at h
  case empty.empty => rfl
  case value.value a b => rw [leaves_value, if_pos h]; rfl
  case pair.pair => exact absurd trivial hp
  case var.var x y => rw [h, leaves_var, if_pos rfl]; rfl
  case expr.expr => rw [leaves_expr rfl, solved_expr]; rfl

end Term

/-- Equal terms have one way to match, which adds nothing, or none if there are expressions. -/
lemma Ways.of_equal {s : Bindings} {l r : Term} {ds : List Bindings} (h : Ways s l r ds)
    (hp : Ready s l r) (he : l.equal r) : ds = if l.exprFree then [∅] else [] := by
  induction h with
  | leaf hn => exact Term.leaves_of_equal hn he
  | @pair s a b a' b' es f first second ih1 ih2 =>
    obtain ⟨he1, he2⟩ : a.equal a' ∧ b.equal b' := by simpa [Term.equal] using he
    have hes := ih1 hp.first he1
    cases ha : a.exprFree with
    | false => simp [hes, Term.exprFree, ha]
    | true =>
      rw [ha, if_pos rfl] at hes
      have hmem : ∅ ∈ es := by simp [hes]
      have hwalk : (s.extend ∅).walk b = b ∧ (s.extend ∅).walk b' = b' := by
        rw [Bindings.extend_empty]
        exact ⟨hp.left.of_pair.2.walk_eq, hp.right.of_pair.2.walk_eq⟩
      have hready : Ready (s.extend ∅) b b' := by
        rw [Bindings.extend_empty]
        exact ⟨hp.acyclic, hp.left.of_pair.2, hp.right.of_pair.2⟩
      have hf := ih2 ∅ hmem
      rw [hwalk.1, hwalk.2] at hf
      cases hb : b.exprFree <;> simp [hes, hf hready he2, Term.exprFree, ha, hb,
        Bindings.extend_empty]

namespace State

/-- **Reflexivity**, as far as it goes: when two terms walk to equal ones, making them equal gives
the state as it is and keeping them different gives nothing, if no expression is left in them;
if one is, it is the other way round. -/
theorem unify_of_equal (s : State) (a b : Term) (hs : s.bindings.Acyclic)
    (h : (s.walk a).equal (s.walk b)) :
    (s.unify a b).states.Complete ∧ (s.disunify a b).states.Complete ∧
    (s.unify a b).states.toList = (if (s.walk a).exprFree then [s] else []) ∧
    (s.disunify a b).states.toList = (if (s.walk a).exprFree then [] else [s]) := by
  obtain ⟨ds, hds⟩ := exists_ways (hs.ready a b)
  obtain ⟨hu, hut⟩ := unify_of_ways hs hds
  obtain ⟨hd, hdt⟩ := disunify_of_ways hs hds
  refine ⟨hu, hd, ?_⟩
  rw [hut, hdt, hds.of_equal (hs.ready a b) h, walk]
  cases (s.bindings.walk a).exprFree <;> simp [extend, Bindings.extend_empty]

/-- A list that the state binds, against what it stands for. -/
theorem unify_of_equal_linked :
    linked.bindings.Acyclic ∧
    (linked.walk (.var ⟨"x"⟩)).equal (linked.walk (.pair (.var ⟨"y"⟩) (.var ⟨"w"⟩))) ∧
    (linked.unify (.var ⟨"x"⟩) (.pair (.var ⟨"y"⟩) (.var ⟨"w"⟩))).states.toList = [linked] ∧
    (linked.disunify (.var ⟨"x"⟩) (.pair (.var ⟨"y"⟩) (.var ⟨"w"⟩))).states.toList = [] := by
  have hequal : (linked.walk (.var ⟨"x"⟩)).equal
      (linked.walk (.pair (.var ⟨"y"⟩) (.var ⟨"w"⟩))) := by decide +kernel
  have hfree : (linked.walk (.var ⟨"x"⟩)).exprFree := by decide +kernel
  have h := unify_of_equal linked (.var ⟨"x"⟩) (.pair (.var ⟨"y"⟩) (.var ⟨"w"⟩)) linked_acyclic
    hequal
  exact ⟨linked_acyclic, hequal, by rw [h.2.2.1, if_pos hfree], by rw [h.2.2.2, if_pos hfree]⟩

/-- A state in which `y` is one more than the unknown `x`. -/
def deferred : State :=
  (root .global).extend (.single ⟨"y"⟩ (.expr (.var ⟨"x"⟩) .plus (.int 1)))

/-- What made the state cannot be asserted again, and its negation passes. The same goes for an
expression that has no value, on the empty state. -/
theorem deferred_not_reflexive :
    deferred ∈ ((root .global).unify (.var ⟨"y"⟩)
      (.expr (.var ⟨"x"⟩) .plus (.int 1))).states.toList ∧
    deferred.Reached ∧
    Term.floatFree (.expr (.var ⟨"x"⟩) .plus (.int 1)) ∧
    deferred.walk (.var ⟨"y"⟩) = deferred.walk (.expr (.var ⟨"x"⟩) .plus (.int 1)) ∧
    (deferred.unify (.var ⟨"y"⟩) (.expr (.var ⟨"x"⟩) .plus (.int 1))).states.toList = [] ∧
    (deferred.disunify (.var ⟨"y"⟩) (.expr (.var ⟨"x"⟩) .plus (.int 1))).states.toList =
      [deferred] ∧
    ((root .global).unify (.expr (.int 1) .div (.int 0))
      (.expr (.int 1) .div (.int 0))).states.toList = [] := by
  have hmade : deferred ∈ ((root .global).unify (.var ⟨"y"⟩)
      (.expr (.var ⟨"x"⟩) .plus (.int 1))).states.toList := .head _
  have hone : (deferred.disunify (.var ⟨"y"⟩)
      (.expr (.var ⟨"x"⟩) .plus (.int 1))).states.toList.length = 1 := by decide +kernel
  have hreached : deferred.Reached := ⟨.global, .single (.unify _ _ hmade)⟩
  have hpass := disunify_of_length hreached.acyclic hone
  refine ⟨hmade, hreached, rfl, by decide +kernel, ?_, hpass, ?_⟩
  · exact List.length_eq_zero_iff.1 (by decide +kernel)
  · exact List.length_eq_zero_iff.1 (by decide +kernel)

end State

end Relational
