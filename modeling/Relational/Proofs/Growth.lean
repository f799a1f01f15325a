import Relational.Proofs.Problems
import Relational.Proofs.Runs

/-!
States only grow. What a constraint adds binds variables that were not bound, and both these and
the variables of what they are bound to are variables of the two walked terms; while the fields of
pairs are searched, nothing is bound twice either. So no binding is lost or changed in a run.
-/

namespace Relational.State

variable {s s' : State}

lemma within_of_unify (hs : s.bindings.Acyclic) {left right : Term}
    (h : s' ∈ (s.unify left right).states.toList) : s.bindings.Within s'.bindings := by
  obtain ⟨d, hadd, rfl⟩ := exists_addition hs h
  exact hadd.fresh.within

lemma within_of_run {g : Goal} {c : Counters} (hs : s.bindings.Acyclic)
    (h : s' ∈ (g.run s c).1.states.toList) : s.bindings.Within s'.bindings := by
  refine (of_run (I := fun r => r.bindings.Acyclic ∧ s.bindings.Within r.bindings)
    (fun hr _ _ h => ?_) (fun hr h => ?_) (fun _ _ hr => hr) g.all_true
    ⟨hs, Bindings.within_refl _⟩ h).2
  · exact ⟨acyclic_of_unify hr.1 h, hr.2.trans (within_of_unify hr.1 h)⟩
  · rwa [eq_of_disunify hr.1 h]

lemma Step.within (h : Step s s') (hs : s.bindings.Acyclic) :
    s.bindings.Within s'.bindings := by
  cases h with
  | unify left right h => exact within_of_unify hs h
  | disunify left right h => rw [eq_of_disunify hs h]; exact Bindings.within_refl _
  | query hq c h | fresh body c h => exact within_of_run hs h

/-- A run from bindings without circles comes to such bindings, and to no fewer. -/
lemma within_of_steps (hs : s.bindings.Acyclic) (hrun : Relation.ReflTransGen Step s s') :
    s'.bindings.Acyclic ∧ s.bindings.Within s'.bindings := by
  induction hrun with
  | refl => exact ⟨hs, Bindings.within_refl _⟩
  | tail _ hstep ih => exact ⟨hstep.acyclic ih.1, ih.2.trans (hstep.within ih.1)⟩

lemma Reached.within (h : s.Reached) (hrun : Relation.ReflTransGen Step s s') :
    s.bindings.Within s'.bindings :=
  (within_of_steps h.acyclic hrun).2

/-- **Growth**: a state that comes of making two terms equal adds bindings of variables that were
not bound before, and of these as of their terms all variables occur in the walked terms; ledger
and supply stay. Where a search goes through the fields of pairs, at any depth, nothing that it
takes binds what is bound already or what was taken before, and its ways are put together of
what it takes. In a run no binding is lost or changed. -/
theorem unify_grows :
    (∀ (s : State) (a b : Term), s.bindings.Acyclic → ∀ s' ∈ (s.unify a b).states.toList,
      s.bindings.Within s'.bindings ∧
      (∃ d, s'.bindings = s.bindings.extend d ∧ ∀ (x : Var) (t : Term), d[x]? = some t →
        s.bindings[x]? = none ∧ x ∈ (s.walk a).vars ++ (s.walk b).vars ∧
        ∀ y ∈ t.vars, y ∈ (s.walk a).vars ++ (s.walk b).vars) ∧
      s'.ledger = s.ledger ∧ s'.supply = s.supply) ∧
    (∀ (s : State) (a b : Term), s.bindings.Acyclic →
      ∀ p, Problem.Leads ⟨s.bindings, s.walk a, s.walk b⟩ p →
        (∀ ds q, Problem.Field p ds q → ∀ e ∈ q.ways,
          (p.bindings :: ds ++ [e]).Pairwise Bindings.Fresh) ∧
        (Term.Pairs p.left p.right → ∀ d ∈ p.ways, ∃ ds q, ∃ e ∈ Problem.ways q,
          Problem.Field p ds q ∧ d = (ds ++ [e]).foldr Bindings.extend ∅)) ∧
    ∀ s s' : State, s.Reached → Relation.ReflTransGen Step s s' →
      s.bindings.Within s'.bindings := by
  refine ⟨fun s a b hs s' h => ?_, fun s a b hs p hp => ?_, fun s s' h hrun => h.within hrun⟩
  · obtain ⟨d, hadd, rfl⟩ := exists_addition hs h
    refine ⟨hadd.fresh.within, ⟨d, rfl, fun x t hx => ?_⟩, rfl, rfl⟩
    exact ⟨hadd.fresh x t hx, hadd.domain x t hx, hadd.range x t hx⟩
  · have hready := hp.ready (hs.ready a b)
    exact ⟨fun ds q hfield e he => (hfield.stands hready).apart_concat he,
      fun hpairs d hd => hready.exists_field hpairs hd⟩

/-- Here `w` gets a value, which is that of `z` as well, and `p` is left open after it. -/
theorem unify_grows_linked :
    linked.Reached ∧
    (linked.unify (.pair (.var ⟨"w"⟩) (.expr (.var ⟨"p"⟩) .and (.bool false)))
      (.pair (.int 1) (.bool false))).states.toList.length = 2 ∧
    (∀ s' ∈ (linked.unify (.pair (.var ⟨"w"⟩) (.expr (.var ⟨"p"⟩) .and (.bool false)))
      (.pair (.int 1) (.bool false))).states.toList,
        linked.bindings.Within s'.bindings ∧ s'.ledger = linked.ledger) ∧
    (∀ e ∈ Problem.ways ⟨linked.bindings.extend (.single ⟨"w"⟩ (.int 1)),
        (linked.bindings.extend (.single ⟨"w"⟩ (.int 1))).walk
          (.expr (.var ⟨"p"⟩) .and (.bool false)),
        (linked.bindings.extend (.single ⟨"w"⟩ (.int 1))).walk (.bool false)⟩,
      [linked.bindings, .single ⟨"w"⟩ (.int 1), e].Pairwise Bindings.Fresh) ∧
    linked.bindings.Within (linked.extend (.single ⟨"w"⟩ (.int 1))).bindings := by
  obtain ⟨hgrow, hsearch, hrun⟩ := unify_grows
  refine ⟨linked_reached, by decide +kernel, fun s' h => ?_, fun e he => ?_, ?_⟩
  · have hs' := hgrow linked _ _ linked_acyclic s' h
    exact ⟨hs'.1, hs'.2.2.1⟩
  · have hwalk : linked.walk (.pair (.var ⟨"w"⟩) (.expr (.var ⟨"p"⟩) .and (.bool false))) =
        .pair (.var ⟨"w"⟩) (.expr (.var ⟨"p"⟩) .and (.bool false)) := by decide +kernel
    have hleads := hsearch linked (.pair (.var ⟨"w"⟩) (.expr (.var ⟨"p"⟩) .and (.bool false)))
      (.pair (.int 1) (.bool false)) linked_acyclic _ .refl
    rw [hwalk] at hleads
    exact hleads.1 _ _ (.later (.head _) .here) e he
  · exact hrun linked _ linked_reached (.single (.unify (.var ⟨"w"⟩) (.int 1) (.head _)))

end Relational.State
