import Relational.Proofs.Problems

/-!
Keeping two terms different is the complement of making them equal. The one is decided by whether
matching refuses, and the other by the ways that it finds; so it matters that matching never goes
on without a way, also where it stands in the middle of other fields.
-/

namespace Relational.State

variable {s : State} {left right : Term}

/-- Matching two walked terms and each problem that it comes to have a way, unless they refuse. -/
lemma ne_nil_of_leads (hs : s.bindings.Acyclic) {q : Problem}
    (h : Problem.Leads ⟨s.bindings, s.walk left, s.walk right⟩ q) {w : Search Bindings}
    (hw : q.matching.2 = some w) : w.toList ≠ [] :=
  (h.ready (hs.ready left right)).ne_nil hw

/-- **Complements**: the state stays as it is when there is no state that makes the terms equal,
and nothing stays when there is one. Wherever matching comes to, it refuses or finds a way. -/
theorem disunify_complement (s : State) (a b : Term) (hs : s.bindings.Acyclic) :
    (s.unify a b).states.Complete ∧ (s.disunify a b).states.Complete ∧
    ((s.disunify a b).states.toList = [s] ↔ (s.unify a b).states.toList = []) ∧
    ((s.disunify a b).states.toList = [] ↔ (s.unify a b).states.toList ≠ []) ∧
    ∀ q, Problem.Leads ⟨s.bindings, s.walk a, s.walk b⟩ q →
      ∀ w, q.matching.2 = some w → w.toList ≠ [] := by
  obtain ⟨ds, hds⟩ := exists_ways (hs.ready a b)
  obtain ⟨hu, hut⟩ := unify_of_ways hs hds
  obtain ⟨hd, hdt⟩ := disunify_of_ways hs hds
  refine ⟨hu, hd, ?_, ?_, fun q hq w hw => ne_nil_of_leads hs hq hw⟩
  · rw [hut, hdt]
    by_cases h : ds = [] <;> simp [h]
  · rw [hut, hdt]
    by_cases h : ds = [] <;> simp [h]

/-- Of the two values that the inner first field leaves to `p`, the one that is tried first fails
with the field after it. -/
theorem disunify_complement_nested :
    linked.bindings.Acyclic ∧
    (linked.unify (.pair (.pair (.expr (.var ⟨"p"⟩) .and (.bool false)) (.var ⟨"p"⟩)) (.var ⟨"z"⟩))
      (.pair (.pair (.bool false) (.bool true)) (.int 1))).states.toList.length = 1 ∧
    (linked.disunify (.pair (.pair (.expr (.var ⟨"p"⟩) .and (.bool false)) (.var ⟨"p"⟩))
      (.var ⟨"z"⟩)) (.pair (.pair (.bool false) (.bool true)) (.int 1))).states.toList = [] ∧
    ∃ w, (Problem.mk linked.bindings (.pair (.expr (.var ⟨"p"⟩) .and (.bool false)) (.var ⟨"p"⟩))
      (.pair (.bool false) (.bool true))).matching.2 = some w ∧ w.toList ≠ [] := by
  have h := disunify_complement linked
    (.pair (.pair (.expr (.var ⟨"p"⟩) .and (.bool false)) (.var ⟨"p"⟩)) (.var ⟨"z"⟩))
    (.pair (.pair (.bool false) (.bool true)) (.int 1)) linked_acyclic
  have hone : (linked.unify
      (.pair (.pair (.expr (.var ⟨"p"⟩) .and (.bool false)) (.var ⟨"p"⟩)) (.var ⟨"z"⟩))
      (.pair (.pair (.bool false) (.bool true)) (.int 1))).states.toList.length = 1 := by
    decide +kernel
  have hwalk : linked.walk
      (.pair (.pair (.expr (.var ⟨"p"⟩) .and (.bool false)) (.var ⟨"p"⟩)) (.var ⟨"z"⟩)) =
      .pair (.pair (.expr (.var ⟨"p"⟩) .and (.bool false)) (.var ⟨"p"⟩)) (.var ⟨"w"⟩) := by
    decide +kernel
  have hsome : (Problem.mk linked.bindings
      (.pair (.expr (.var ⟨"p"⟩) .and (.bool false)) (.var ⟨"p"⟩))
      (.pair (.bool false) (.bool true))).matching.2.isSome := by
    decide +kernel
  refine ⟨linked_acyclic, hone, h.2.2.2.1.2 fun hnil => ?_, ?_⟩
  · rw [hnil] at hone
    simp at hone
  · obtain ⟨w, hw⟩ := Option.isSome_iff_exists.1 hsome
    refine ⟨w, hw, h.2.2.2.2 _ ?_ w hw⟩
    rw [hwalk]
    exact .single ⟨[], .first⟩

end Relational.State
