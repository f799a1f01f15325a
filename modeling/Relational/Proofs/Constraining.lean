import Relational.Proofs.Rounds
import Relational.State

/-!
What comes of constraining a state without circles, in terms of the ways to match: making two
terms equal gives one state for each way, and keeping them different gives the state as it is
when there are none.
-/

namespace Relational.State

variable {s : State} {left right : Term} {ds : List Bindings}

lemma unify_of_finds (h : (s.bindings.matchTerms (s.walk left) (s.walk right)).Finds ds) :
    (s.unify left right).states.Complete ∧
      (s.unify left right).states.toList = ds.map s.extend := by
  obtain ⟨hc, ht, hn⟩ := h
  unfold unify
  simp only [walk] at *
  rcases hm : s.bindings.matchTerms (s.bindings.walk left) (s.bindings.walk right) with
    ⟨log, _ | ways⟩ <;> rw [hm] at hc ht hn
  · rw [hn.1 rfl]
    exact ⟨trivial, rfl⟩
  · simp only [Matching.search, Search.complete_notes, Search.toList_notes] at hc ht
    have hnote : ∀ d ∈ ways.toList,
        (Search.note (.extending d) (.single (s.extend d))).Complete := fun d _ => trivial
    refine ⟨Search.complete_bind hc hnote, ?_⟩
    rw [Search.toList_bind hc hnote, ht, List.map_eq_flatMap]
    rfl

lemma disunify_of_finds (h : (s.bindings.matchTerms (s.walk left) (s.walk right)).Finds ds) :
    (s.disunify left right).states.Complete ∧
      (s.disunify left right).states.toList = if ds = [] then [s] else [] := by
  obtain ⟨hc, ht, hn⟩ := h
  unfold disunify
  simp only [walk] at *
  rcases hm : s.bindings.matchTerms (s.bindings.walk left) (s.bindings.walk right) with
    ⟨log, _ | ways⟩ <;> rw [hm] at hc ht hn
  · rw [if_pos (hn.1 rfl)]
    exact ⟨trivial, rfl⟩
  · rw [if_neg fun he => Option.some_ne_none _ (hn.2 he)]
    rw [Matching.search, Search.complete_notes] at hc
    cases ways with
    | cut => exact hc.elim
    | done | note | answer => exact ⟨trivial, rfl⟩

lemma unify_of_ways (hs : s.bindings.Acyclic)
    (h : Ways s.bindings (s.walk left) (s.walk right) ds) :
    (s.unify left right).states.Complete ∧
      (s.unify left right).states.toList = ds.map s.extend :=
  unify_of_finds (meets_matchTerms (hs.ready left right) ds h)

lemma matchTerms_eq_none (hs : s.bindings.Acyclic)
    (h : Ways s.bindings (s.walk left) (s.walk right) ds) :
    (s.bindings.matchTerms (s.walk left) (s.walk right)).2 = none ↔ ds = [] :=
  (meets_matchTerms (hs.ready left right) ds h).none_iff

lemma disunify_of_ways (hs : s.bindings.Acyclic)
    (h : Ways s.bindings (s.walk left) (s.walk right) ds) :
    (s.disunify left right).states.Complete ∧
      (s.disunify left right).states.toList = if ds = [] then [s] else [] :=
  disunify_of_finds (meets_matchTerms (hs.ready left right) ds h)

/-- A state that comes of making two terms equal adds what one of the ways binds. -/
lemma exists_way (hs : s.bindings.Acyclic) {s' : State}
    (h : s' ∈ (s.unify left right).states.toList) :
    ∃ d, Way s.bindings (s.walk left) (s.walk right) d ∧ s' = s.extend d := by
  obtain ⟨ds, hds⟩ := exists_ways (hs.ready left right)
  rw [(unify_of_ways hs hds).2] at h
  obtain ⟨d, hd, rfl⟩ := List.mem_map.1 h
  exact ⟨d, hds.way hd, rfl⟩

lemma exists_addition (hs : s.bindings.Acyclic) {s' : State}
    (h : s' ∈ (s.unify left right).states.toList) :
    ∃ d, Addition s.bindings (s.walk left) (s.walk right) d ∧ s' = s.extend d := by
  obtain ⟨d, hway, rfl⟩ := exists_way hs h
  exact ⟨d, hway.addition (hs.ready left right), rfl⟩

/-- A state in which `x` is the pair of `y` and `z`, and `z` another name for `w`. -/
def linked : State :=
  ((root .global).extend (.single ⟨"x"⟩ (.pair (.var ⟨"y"⟩) (.var ⟨"z"⟩)))).extend
    (.single ⟨"z"⟩ (.var ⟨"w"⟩))

lemma linked_acyclic : linked.bindings.Acyclic := by
  refine (Bindings.acyclic_empty.extend_single ?_ ?_ ?_).extend_single ?_ ?_ ?_
  all_goals simp [Term.vars, Bindings.getElem?_extend, Bindings.getElem?_single]

end Relational.State
