import Relational.Proofs.Constraining

/-!
Unification with arithmetic. Between truth values and integers, and without products and
quotients, every state that comes of making two terms equal makes them walk to the same term:
also when a variable was bound to an expression that got a value only later, or was solved for.
-/

namespace Relational

open Term (Leaf)

namespace Term

/-- All scalars in the term are truth values and integers, and nothing in it is multiplied or
divided. -/
def exact : Term → Bool
  | .empty | .var _ => true
  | .value v => v.exact
  | .pair a b => a.exact && b.exact
  | .expr a op b => a.exact && op.exact && b.exact

lemma exact_pair {a b : Term} : (pair a b).exact ↔ a.exact ∧ b.exact := by
  simp [exact]

lemma exact_expr {a b : Term} {op : Op} : (expr a op b).exact ↔ (a.exact ∧ op.exact) ∧ b.exact := by
  simp [exact]

lemma closed_exact : Closed (exact · = true) :=
  closed_of_parts (fun _ => rfl) exact_pair
    (fun h => ⟨(exact_expr.1 h).1.1, (exact_expr.1 h).2⟩)
    (fun h ha hb => exact_expr.2 ⟨⟨ha, (exact_expr.1 h).1.2⟩, hb⟩) Scalar.closed_exact

lemma eq_of_equal_exact {a b : Scalar} (ha : a.exact) (hb : b.exact) (h : a.equal b) : a = b := by
  cases a <;> cases b <;> simp_all [Scalar.exact, Scalar.equal]

end Term

lemma Bindings.All.exact_walk {s : Bindings} (hs : s.All (·.exact)) {t : Term} (ht : t.exact) :
    (s.walk t).exact :=
  hs.walk Term.closed_exact.toHereditary ht

lemma Bindings.walk_bound {s : Bindings} {x : Var} {t : Term}
    (h : (s.extend (.single x t)).Acyclic) :
    (s.extend (.single x t)).walk (.var x) = (s.extend (.single x t)).walk t :=
  h.walk_var_of_some (by simp [getElem?_extend, getElem?_single])

/-- A way between terms of which one is no pair makes them walk to the same term. -/
lemma Term.Leaf.walk_eq {s d : Bindings} {l r : Term} (h : Leaf l r d)
    (hs : (s.extend d).Acyclic) (hl : l.exact) (hr : r.exact) :
    (s.extend d).walk l = (s.extend d).walk r := by
  induction h with
  | empty | same => rfl
  | value h => rw [eq_of_equal_exact hl hr h]
  | bind => exact Bindings.walk_bound hs
  | solveLeft h hv =>
    obtain ⟨k, r, w, rfl, rfl, rfl, hw⟩ := mem_solveLeft h hv
    rw [exact_expr] at hl
    have happly := hw.apply_left hl.2 hr hl.1.2
    rw [Bindings.walk_expr, Bindings.walk_bound hs]
    simp [reduce, evaluate, happly]
  | solveRight h hv =>
    obtain ⟨k, r, w, rfl, rfl, rfl, hw⟩ := mem_solveRight h hv
    rw [exact_expr] at hl
    have happly := hw.apply_right hl.1.1 hr hl.1.2
    rw [Bindings.walk_expr, Bindings.walk_bound hs]
    simp [reduce, evaluate, happly]
  | symm _ ih => exact (ih hs hr hl).symm

/-- **Soundness** of a way: walking goes on to give equal terms while later fields are matched. -/
lemma Way.walk_eq {s d : Bindings} {l r : Term} (h : Way s l r d) (hp : Ready s l r)
    (hs : s.All (·.exact)) (hl : l.exact) (hr : r.exact) :
    (s.extend d).walk l = (s.extend d).walk r := by
  induction h with
  | leaf h => exact h.walk_eq (h.addition hp).acyclic hl hr
  | @pair s a b a' b' d e first second ih1 ih2 =>
    rw [Term.exact_pair] at hl hr
    have h1 := first.addition hp.first
    have h2 := second.addition h1.second
    have hs' := hs.extend (first.all Term.closed_exact hs hl.1 hr.1)
    have hb := ih2 h1.second hs' (hs'.exact_walk hl.2) (hs'.exact_walk hr.2)
    rw [h2.walk_walk h1.acyclic, h2.walk_walk h1.acyclic] at hb
    have ha : ((s.extend d).extend e).walk a = ((s.extend d).extend e).walk a' := by
      calc ((s.extend d).extend e).walk a
          = ((s.extend d).extend e).walk ((s.extend d).walk a) := (h2.walk_walk h1.acyclic a).symm
        _ = ((s.extend d).extend e).walk ((s.extend d).walk a') := by
            rw [ih1 hp.first hs hl.1 hr.1]
        _ = ((s.extend d).extend e).walk a' := h2.walk_walk h1.acyclic a'
    rw [← Bindings.extend_assoc, Bindings.walk_pair, Bindings.walk_pair, ha, hb]

namespace State

/-- **Soundness**: under bindings without circles, every state that comes of making two terms
equal walks them to the same term, if they and all bound terms are exact. -/
theorem unify_walk_eq (s : State) (a b : Term) (hs : s.bindings.Acyclic)
    (hst : s.bindings.All (·.exact)) (ha : a.exact) (hb : b.exact) :
    ∀ s' ∈ (s.unify a b).states.toList, s'.walk a = s'.walk b := by
  intro s' hs'
  have hp : Ready s.bindings (s.walk a) (s.walk b) := hs.ready a b
  obtain ⟨ds, hds⟩ := exists_ways hp
  rw [(unify_of_ways hs hds).2] at hs'
  obtain ⟨d, hd, rfl⟩ := List.mem_map.1 hs'
  have hway := hds.way hd
  have hwalk : ∀ t, (s.extend d).walk (s.walk t) = (s.extend d).walk t :=
    (hway.addition hp).walk_walk hs
  rw [← hwalk a, ← hwalk b]
  exact hway.walk_eq hp hst (hst.exact_walk ha) (hst.exact_walk hb)

lemma linked_exact : linked.bindings.All (·.exact) := by
  refine .extend (.extend (Bindings.all_empty _) (Bindings.all_single ?_)) (Bindings.all_single ?_)
  all_goals rfl

/-- Here `z` is bound to an expression that gets a value with the next field, close to the limit
of the integers, and the last field leaves `q` open. -/
theorem unify_walk_eq_residual :
    linked.bindings.Acyclic ∧ linked.bindings.All (·.exact) ∧
    (linked.unify
      (.pair (.var ⟨"x"⟩) (.pair (.expr (.var ⟨"u"⟩) .plus (.int 1))
        (.expr (.var ⟨"q"⟩) .and (.bool false))))
      (.pair (.pair (.int 7) (.expr (.var ⟨"u"⟩) .mod (.int 3)))
        (.pair (.int Int64.maxValue) (.bool false)))).states.toList.length = 2 ∧
    ∀ s' ∈ (linked.unify
      (.pair (.var ⟨"x"⟩) (.pair (.expr (.var ⟨"u"⟩) .plus (.int 1))
        (.expr (.var ⟨"q"⟩) .and (.bool false))))
      (.pair (.pair (.int 7) (.expr (.var ⟨"u"⟩) .mod (.int 3)))
        (.pair (.int Int64.maxValue) (.bool false)))).states.toList,
      s'.walk (.pair (.var ⟨"x"⟩) (.pair (.expr (.var ⟨"u"⟩) .plus (.int 1))
        (.expr (.var ⟨"q"⟩) .and (.bool false)))) =
      s'.walk (.pair (.pair (.int 7) (.expr (.var ⟨"u"⟩) .mod (.int 3)))
        (.pair (.int Int64.maxValue) (.bool false))) :=
  ⟨linked_acyclic, linked_exact, by decide +kernel,
    unify_walk_eq linked _ _ linked_acyclic linked_exact rfl rfl⟩

end State

end Relational
