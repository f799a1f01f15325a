import Relational.Proofs.Backtracking

/-!
Two pairs are made equal in sequence: their first fields, and then, in each state that comes of
that, their second fields. The loop that matches them, with its stack of fields, comes to the same.
-/

namespace Relational.State

variable {s : State} {a a' : Term}

/-- The states for two pairs, given the ways for their first fields. -/
lemma toList_unify_pair (hs : s.bindings.Acyclic) {es : List Bindings}
    (h : Ways s.bindings (s.walk a) (s.walk a') es) (b b' : Term) :
    ∃ ds, Ways s.bindings (s.walk (.pair a b)) (s.walk (.pair a' b')) ds ∧
      ds.map s.extend = es.flatMap fun e => ((s.extend e).unify b b').states.toList := by
  obtain ⟨ds, hds⟩ := exists_ways (hs.ready (.pair a b) (.pair a' b'))
  refine ⟨ds, hds, ?_⟩
  obtain ⟨es', f, rfl, first, second⟩ := hds.of_pair
  obtain rfl := first.unique h
  rw [List.map_flatMap]
  refine List.flatMap_congr fun e he => ?_
  have hadd := (h.way he).addition (hs.ready a a')
  have hwalk : ∀ t, (s.extend e).walk (s.walk t) = (s.extend e).walk t := hadd.walk_walk hs
  have hways : Ways (s.extend e).bindings ((s.extend e).walk b) ((s.extend e).walk b') (f e) := by
    rw [← hwalk b, ← hwalk b']
    exact second e he
  rw [(unify_of_ways hadd.acyclic hways).2, List.map_map]
  exact List.map_congr_left fun d _ => congrArg (fun t => { s with bindings := t })
    (Bindings.extend_assoc s.bindings e d).symm

/-- **Sequential composition**: making two pairs equal is making the first fields equal, then
the second ones in each resulting state, with the same states in the same order; and matching
the walked pairs is refused exactly when there are none. This is what the loop does, here and
wherever matching comes to two pairs: it ends, and it finds the ways of the recursion. -/
theorem unify_pair (s : State) (a b a' b' : Term) (hs : s.bindings.Acyclic) :
    (s.unify (.pair a b) (.pair a' b')).states.Complete ∧
    (s.unify (.pair a b) (.pair a' b')).states.toList =
      ((s.unify a a').states.toList.flatMap fun s' => (s'.unify b b').states.toList) ∧
    ((s.bindings.matchTerms (s.walk (.pair a b)) (s.walk (.pair a' b'))).2 = none ↔
      ((s.unify a a').states.toList.flatMap fun s' => (s'.unify b b').states.toList) = []) ∧
    ∀ q, Problem.Leads ⟨s.bindings, s.walk (.pair a b), s.walk (.pair a' b')⟩ q →
      Term.Pairs q.left q.right →
      ∀ m, Bindings.Backtracks Bindings.matchTerms q.bindings (Term.fields q.left q.right) m ↔
        m = q.matching := by
  obtain ⟨es, hes⟩ := exists_ways (hs.ready a a')
  obtain ⟨ds, hds, heq⟩ := toList_unify_pair hs hes b b'
  have hfirst : ((s.unify a a').states.toList.flatMap fun s' => (s'.unify b b').states.toList) =
      ds.map s.extend := by
    rw [(unify_of_ways hs hes).2, List.flatMap_map, heq]
  obtain ⟨hc, ht⟩ := unify_of_ways hs hds
  refine ⟨hc, ht.trans hfirst.symm, ?_, fun q hq hpairs m => ?_⟩
  · rw [matchTerms_eq_none hs hds, hfirst, List.map_eq_nil_iff]
  · exact (hq.ready (hs.ready (.pair a b) (.pair a' b'))).backtracks_iff hpairs

/-- The first fields leave `p` open, the second ones `q` in one of two cases, and the last field
is a pair only by a binding. -/
theorem unify_pair_branching :
    linked.bindings.Acyclic ∧
    (linked.unify (.pair (.expr (.var ⟨"p"⟩) .and (.bool false))
          (.pair (.expr (.var ⟨"p"⟩) .or (.var ⟨"q"⟩)) (.var ⟨"x"⟩)))
        (.pair (.bool false) (.pair (.bool true) (.pair (.int 1) (.int 2))))).states.toList =
      ((linked.unify (.expr (.var ⟨"p"⟩) .and (.bool false)) (.bool false)).states.toList.flatMap
        fun s' => (s'.unify (.pair (.expr (.var ⟨"p"⟩) .or (.var ⟨"q"⟩)) (.var ⟨"x"⟩))
          (.pair (.bool true) (.pair (.int 1) (.int 2)))).states.toList) ∧
    (linked.unify (.pair (.expr (.var ⟨"p"⟩) .and (.bool false))
          (.pair (.expr (.var ⟨"p"⟩) .or (.var ⟨"q"⟩)) (.var ⟨"x"⟩)))
        (.pair (.bool false) (.pair (.bool true) (.pair (.int 1) (.int 2))))).states.toList.length
      = 3 ∧
    ∃ log w, Bindings.Backtracks Bindings.matchTerms linked.bindings
        (Term.fields
          (linked.walk (.pair (.expr (.var ⟨"p"⟩) .and (.bool false))
            (.pair (.expr (.var ⟨"p"⟩) .or (.var ⟨"q"⟩)) (.var ⟨"x"⟩))))
          (linked.walk (.pair (.bool false) (.pair (.bool true) (.pair (.int 1) (.int 2))))))
        (log, some w) ∧
      w.toList.length = 3 := by
  obtain ⟨-, hstates, -, hloop⟩ := unify_pair linked (.expr (.var ⟨"p"⟩) .and (.bool false))
    (.pair (.expr (.var ⟨"p"⟩) .or (.var ⟨"q"⟩)) (.var ⟨"x"⟩)) (.bool false)
    (.pair (.bool true) (.pair (.int 1) (.int 2))) linked_acyclic
  have hthree : (Problem.matching ⟨linked.bindings,
      linked.walk (.pair (.expr (.var ⟨"p"⟩) .and (.bool false))
        (.pair (.expr (.var ⟨"p"⟩) .or (.var ⟨"q"⟩)) (.var ⟨"x"⟩))),
      linked.walk (.pair (.bool false) (.pair (.bool true) (.pair (.int 1) (.int 2))))⟩).2.map
        (·.toList.length) = some 3 := by
    decide +kernel
  obtain ⟨w, hw, hlength⟩ := Option.map_eq_some_iff.1 hthree
  exact ⟨linked_acyclic, hstates, by decide +kernel,
    _, w, (hloop _ .refl trivial _).2 (Prod.ext rfl hw.symm), hlength⟩

end Relational.State
