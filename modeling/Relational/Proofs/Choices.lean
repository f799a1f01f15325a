import Mathlib.Data.Finset.Powerset
import Relational.Proofs.Leaves
import Relational.Proofs.Problems

/-!
Choices. Only a truth value may be left open by the equation that is solved for it, and then false
is tried before true. A variable that was chosen for stays bound, and nothing further down chooses
for it again; so each state that makes two terms equal has its own choices, and the states come in
the lexicographic order of these.
-/

namespace Relational

/-- Variables and the truth values they were given, in the order of the choices. -/
abbrev Choices : Type := List (Var × Bool)

namespace Choices

/-- Where the two part, it is for the same variable, and the first one has the value that is tried
first. -/
def Before (p q : Choices) : Prop :=
  ∃ c x p' q', p = c ++ (x, false) :: p' ∧ q = c ++ (x, true) :: q'

/-- The variables are bound to their values, and none has been chosen for twice. -/
structure Made (p : Choices) (d : Bindings) : Prop where
  once : (p.map Prod.fst).Nodup
  bound : ∀ c ∈ p, d[c.1]? = some (.bool c.2)

variable {p q : Choices} {s d e : Bindings}

lemma Before.append (h : p.Before q) (p' q' : Choices) : Before (p ++ p') (q ++ q') := by
  obtain ⟨c, x, u, v, rfl, rfl⟩ := h
  exact ⟨c, x, u ++ p', v ++ q', by simp, by simp⟩

lemma Before.append_left (h : p.Before q) (c : Choices) : Before (c ++ p) (c ++ q) := by
  obtain ⟨c', x, p', q', rfl, rfl⟩ := h
  exact ⟨c ++ c', x, p', q', by simp, by simp⟩

lemma made_nil (d : Bindings) : Made [] d := ⟨List.nodup_nil, by simp⟩

lemma made_single (x : Var) (b : Bool) : Made [(x, b)] (.single x (.bool b)) where
  once := by simp
  bound c hc := by
    rw [List.mem_singleton.1 hc, Bindings.getElem?_single, if_pos rfl]

/-- What is bound stays, so that the further choices are for other variables. -/
lemma Made.append (hp : p.Made d) (hq : q.Made e) (h : (s.extend d).Fresh e) :
    Made (p ++ q) (d.extend e) where
  once := by
    rw [List.map_append, List.nodup_append']
    refine ⟨hp.once, hq.once, fun x hx hx' => ?_⟩
    obtain ⟨c, hc, rfl⟩ := List.mem_map.1 hx
    obtain ⟨c', hc', heq⟩ := List.mem_map.1 hx'
    have hnone := (Bindings.extend_eq_none.1 (h _ _ (hq.bound c' hc'))).1
    rw [heq, hp.bound c hc] at hnone
    simp at hnone
  bound c hc := by
    rw [Bindings.getElem?_extend]
    rcases List.mem_append.1 hc with hc | hc
    · cases he : e[c.1]? with
      | none => exact hp.bound c hc
      | some t =>
        have hnone := (Bindings.extend_eq_none.1 (h _ _ he)).1
        rw [hp.bound c hc] at hnone
        simp at hnone
    · rw [hq.bound c hc]
      rfl

/-- Each of the bindings has its choices, and they stand in the order of these. -/
structure Ordered (ps : List (Choices × Bindings)) : Prop where
  made : ∀ p ∈ ps, p.1.Made p.2
  before : ps.Pairwise fun p q => p.1.Before q.1

end Choices

open Choices (Ordered)

/-! ### One equation -/

/-- What solving one equation may add: nothing, one thing, or a truth value that it leaves open. -/
inductive Alternatives : List Bindings → Prop where
  | none : Alternatives []
  | one (d : Bindings) : Alternatives [d]
  | both (x : Var) : Alternatives [.single x (.bool false), .single x (.bool true)]

lemma Alternatives.exists_ordered {ds : List Bindings} (h : Alternatives ds) :
    ∃ ps, Ordered ps ∧ ps.map Prod.snd = ds := by
  cases h with
  | none => exact ⟨[], ⟨by simp, .nil⟩, rfl⟩
  | one d => exact ⟨[([], d)], ⟨by simp [Choices.made_nil], List.pairwise_singleton _ _⟩, rfl⟩
  | both x =>
    refine ⟨[([(x, false)], .single x (.bool false)), ([(x, true)], .single x (.bool true))],
      ⟨?_, ?_⟩, rfl⟩
    · simp [Choices.made_single]
    · rw [List.pairwise_pair]
      exact ⟨[], x, [], [], rfl, rfl⟩

lemma alternatives_of_solveLogic {op : Op} {a b : Bool} {vs : List Term}
    (h : solveLogic op a b = some vs) (x : Var) : Alternatives (vs.map (.single x)) := by
  unfold solveLogic at h
  split_ifs at h <;> obtain rfl := Option.some.inj h
  · exact .both x
  · exact .one _

lemma alternatives_of_solutions {op : Op} {k r : Scalar} {operand : Option Scalar}
    {vs : List Term} (h : solutions op k r operand = some vs) (x : Var) :
    Alternatives (vs.map (.single x)) := by
  cases op with
  | and | or =>
    obtain ⟨a, b, -, -, hlogic⟩ := solveLogic?_eq_some h
    exact alternatives_of_solveLogic hlogic x
  | plus | minus | times | div | mod =>
    obtain ⟨w, -, rfl⟩ := Option.map_eq_some_iff.1 h
    exact .one _

namespace Term

lemma alternatives_solveFor {e : Term} {x : Var} {values? : Term → Option (List Term)}
    (he : e.unknown? = some (x, values?)) (result : Term) :
    Alternatives (e.solveFor result x (values? result)).search.toList := by
  rw [toList_solveFor]
  cases hvs : values? result with
  | none => exact .none
  | some vs =>
    rcases unknown?_eq_some he with ⟨op, known, -, rfl⟩ | ⟨op, known, -, rfl⟩
    · obtain ⟨k, r, -, -, hsolutions⟩ := solveLeft_eq_some hvs
      exact alternatives_of_solutions hsolutions x
    · obtain ⟨k, r, -, -, hsolutions⟩ := solveRight_eq_some hvs
      exact alternatives_of_solutions hsolutions x

lemma alternatives_bindVar (x : Var) (t : Term) :
    Alternatives (Matching.bindVar x t).search.toList := by
  rw [toList_bindVar]
  split_ifs
  · exact .none
  · exact .one _

lemma alternatives_matchLeaf {l r : Term} (h : ¬ Pairs l r) :
    Alternatives (l.matchLeaf r).search.toList := by
  unfold matchLeaf Bindings.matchStep
  split
  · exact .one _
  · split_ifs
    · exact .one _
    · exact .none
  · exact absurd trivial h
  · split_ifs
    · exact .one _
    · exact alternatives_bindVar ..
  · exact alternatives_bindVar ..
  · split
    · next he => exact alternatives_solveFor he _
    · next he => exact alternatives_solveFor he _
    · exact .none

end Term

/-! ### The whole search -/

/-- The choices of a first search, each followed by those of the search that goes on from it. -/
lemma Choices.Ordered.flatMap {s : Bindings} {ps : List (Choices × Bindings)} (hps : Ordered ps)
    {g : Choices × Bindings → List (Choices × Bindings)} (hg : ∀ p ∈ ps, Ordered (g p))
    (hfresh : ∀ p ∈ ps, ∀ q ∈ g p, (s.extend p.2).Fresh q.2) :
    Ordered (ps.flatMap fun p => (g p).map fun q => (p.1 ++ q.1, p.2.extend q.2)) where
  made c hc := by
    obtain ⟨p, hp, hc⟩ := List.mem_flatMap.1 hc
    obtain ⟨q, hq, rfl⟩ := List.mem_map.1 hc
    exact (hps.made p hp).append ((hg p hp).made q hq) (hfresh p hp q hq)
  before := by
    rw [List.pairwise_flatMap]
    constructor
    · intro p hp
      rw [List.pairwise_map]
      exact (hg p hp).before.imp fun h => h.append_left p.1
    · refine hps.before.imp fun h c hc c' hc' => ?_
      obtain ⟨q, -, rfl⟩ := List.mem_map.1 hc
      obtain ⟨q', -, rfl⟩ := List.mem_map.1 hc'
      exact h.append q.1 q'.1

/-- **Order**: the ways to make two terms equal stand in the order of their choices. -/
theorem Ways.exists_ordered {s : Bindings} {l r : Term} {ds : List Bindings} (h : Ways s l r ds)
    (hp : Ready s l r) : ∃ ps, Ordered ps ∧ ps.map Prod.snd = ds := by
  induction h with
  | leaf hpairs => exact (Term.alternatives_matchLeaf hpairs).exists_ordered
  | @pair s a b a' b' ds f first second ih1 ih2 =>
    obtain ⟨ps, hps, rfl⟩ := ih1 hp.first
    have hadd : ∀ p ∈ ps, Addition s a a' p.2 := fun p hmem =>
      (first.way (List.mem_map_of_mem hmem)).addition hp.first
    have hsecond : ∀ p ∈ ps, ∃ qs, Ordered qs ∧ qs.map Prod.snd = f p.2 := fun p hmem =>
      ih2 p.2 (List.mem_map_of_mem hmem) (hadd p hmem).second
    -- What is chosen in the second field depends on what was chosen in the first.
    choose! g hg hgf using hsecond
    have hfresh : ∀ p ∈ ps, ∀ q ∈ g p, (s.extend p.2).Fresh q.2 := by
      intro p hmem q hq
      have hway : q.2 ∈ f p.2 := hgf p hmem ▸ List.mem_map_of_mem hq
      exact (((second p.2 (List.mem_map_of_mem hmem)).way hway).addition
        (hadd p hmem).second).fresh
    refine ⟨_, hps.flatMap hg hfresh, ?_⟩
    rw [List.map_flatMap, List.flatMap_map]
    refine List.flatMap_congr fun p hmem => ?_
    rw [← hgf p hmem, List.map_map, List.map_map]
    rfl

/-! ### States -/

lemma Bindings.exists_of_equal {s d : Bindings} (h : s.equal d) {x : Var} {t : Term}
    (hx : s[x]? = some t) : ∃ u, d[x]? = some u ∧ t.equal u := by
  rw [Bindings.equal, Bool.and_eq_true, List.all_eq_true] at h
  have hmem : (x, t) ∈ s.toList := Std.ExtTreeMap.mem_toList_iff_getElem?_eq_some.2 hx
  exact (Option.any_eq_true _ _).1 (h.2 _ hmem)

namespace State

/-- The first state gives one of the variables the value false, and the second one the value
true. -/
def Excludes (xs : List Var) (s₁ s₂ : State) : Prop :=
  ∃ x ∈ xs, s₁.lookup x = some (.bool false) ∧ s₂.lookup x = some (.bool true)

variable {xs : List Var} {s₁ s₂ : State}

lemma Excludes.equal_eq_false (h : Excludes xs s₁ s₂) : s₁.equal s₂ = false := by
  obtain ⟨x, -, h₁, h₂⟩ := h
  rw [equal, ← Bool.not_eq_true, Bool.and_eq_true]
  rintro ⟨hequal, -⟩
  obtain ⟨t, ht, hfalse⟩ := Bindings.exists_of_equal hequal h₁
  obtain rfl := Option.some.inj (h₂.symm.trans ht)
  simp [Term.bool, Term.equal, Scalar.equal] at hfalse

lemma Excludes.walk (h : Excludes xs s₁ s₂) (hs₁ : s₁.bindings.Acyclic)
    (hs₂ : s₂.bindings.Acyclic) :
    ∃ x ∈ xs, s₁.walk (.var x) = .bool false ∧ s₂.walk (.var x) = .bool true := by
  obtain ⟨x, hx, h₁, h₂⟩ := h
  exact ⟨x, hx, hs₁.walk_var_of_some h₁, hs₂.walk_var_of_some h₂⟩

lemma excludes_of_before {p q : Choices} (h : p.Before q) (hp : p.Made s₁.bindings)
    (hq : q.Made s₂.bindings) (hxs : ∀ c ∈ p, c.1 ∈ xs) : Excludes xs s₁ s₂ := by
  obtain ⟨c, x, p', q', rfl, rfl⟩ := h
  exact ⟨x, hxs (x, false) (by simp), hp.bound (x, false) (by simp),
    hq.bound (x, true) (by simp)⟩

/-- The variables that a state makes true. -/
def trueVars (xs : List Var) (s : State) : Finset Var :=
  xs.toFinset.filter fun x => s.lookup x = some (.bool true)

lemma Excludes.trueVars_ne (h : Excludes xs s₁ s₂) : trueVars xs s₁ ≠ trueVars xs s₂ := by
  obtain ⟨x, hx, h₁, h₂⟩ := h
  intro heq
  have hmem : x ∈ trueVars xs s₂ := Finset.mem_filter.2 ⟨List.mem_toFinset.2 hx, h₂⟩
  rw [← heq, trueVars, Finset.mem_filter, h₁] at hmem
  simp [Term.bool] at hmem

/-- There are no more states that exclude one another than sets of variables. -/
lemma length_le_of_excludes {states : List State} (h : states.Pairwise (Excludes xs)) :
    states.length ≤ 2 ^ xs.toFinset.card := by
  have hdistinct : (states.map (trueVars xs)).Nodup :=
    List.pairwise_map.2 (h.imp Excludes.trueVars_ne)
  have hsub : (states.map (trueVars xs)).toFinset ⊆ xs.toFinset.powerset := by
    intro f hf
    obtain ⟨s, -, rfl⟩ := List.mem_map.1 (List.mem_toFinset.1 hf)
    exact Finset.mem_powerset.2 (Finset.filter_subset ..)
  calc states.length = (states.map (trueVars xs)).toFinset.card := by
        rw [List.toFinset_card_of_nodup hdistinct, List.length_map]
    _ ≤ xs.toFinset.powerset.card := Finset.card_le_card hsub
    _ = 2 ^ xs.toFinset.card := Finset.card_powerset _

variable {s : State} {left right : Term}

/-- What was chosen for is bound in the state, and is a variable of the two terms. -/
lemma exists_choices (hs : s.bindings.Acyclic) (left right : Term) :
    ∃ ps : List (Choices × State), ps.map Prod.snd = (s.unify left right).states.toList ∧
      (∀ p ∈ ps, p.1.Made p.2.bindings ∧
        ∀ c ∈ p.1, c.1 ∈ (s.walk left).vars ++ (s.walk right).vars) ∧
      ps.Pairwise fun p q => p.1.Before q.1 := by
  obtain ⟨ds, hds⟩ := exists_ways (hs.ready left right)
  obtain ⟨ps, hps, rfl⟩ := hds.exists_ordered (hs.ready left right)
  refine ⟨ps.map fun p => (p.1, s.extend p.2), ?_, ?_, ?_⟩
  · rw [(unify_of_ways hs hds).2, List.map_map, List.map_map]
    rfl
  · intro q hq
    obtain ⟨p, hp, rfl⟩ := List.mem_map.1 hq
    have hadd := (hds.way (List.mem_map_of_mem hp)).addition (hs.ready left right)
    have hmade := hps.made p hp
    exact ⟨⟨hmade.once, fun c hc => Bindings.within_extend _ _ _ _ (hmade.bound c hc)⟩,
      fun c hc => hadd.domain _ _ (hmade.bound c hc)⟩
  · rw [List.pairwise_map]
    exact hps.before

/-- **Choices**: the states that make two terms equal are told apart by truth values that were
chosen for variables of the walked terms. In each state the variables that were chosen for are bound
to what was chosen, none of them twice, and the states come in the lexicographic order of the
choices. So of any two the earlier one makes some variable false that the later one makes true, no
two are equal, and there are at most as many as there are ways to make each variable true or
false. -/
theorem unify_choices (s : State) (a b : Term) (hs : s.bindings.Acyclic) :
    (s.unify a b).states.Complete ∧
    (∃ ps : List (Choices × State), ps.map Prod.snd = (s.unify a b).states.toList ∧
      (∀ p ∈ ps, p.1.Made p.2.bindings ∧
        ∀ c ∈ p.1, c.1 ∈ (s.walk a).vars ++ (s.walk b).vars) ∧
      ps.Pairwise fun p q => p.1.Before q.1) ∧
    (s.unify a b).states.toList.Pairwise (fun s₁ s₂ =>
      (∃ x ∈ (s.walk a).vars ++ (s.walk b).vars,
        s₁.walk (.var x) = .bool false ∧ s₂.walk (.var x) = .bool true) ∧
      s₁.equal s₂ = false) ∧
    (s.unify a b).states.toList.length ≤ 2 ^ Term.width (s.walk a) (s.walk b) := by
  obtain ⟨ps, hps, hmade, hbefore⟩ := exists_choices hs a b
  have hexcludes : (s.unify a b).states.toList.Pairwise
      (Excludes ((s.walk a).vars ++ (s.walk b).vars)) := by
    rw [← hps, List.pairwise_map]
    exact hbefore.imp_of_mem fun hp hq h =>
      excludes_of_before h (hmade _ hp).1 (hmade _ hq).1 (hmade _ hp).2
  have hacyclic : ∀ s' ∈ (s.unify a b).states.toList, s'.bindings.Acyclic := by
    intro s' h
    obtain ⟨d, hadd, rfl⟩ := exists_addition hs h
    exact hadd.acyclic
  obtain ⟨ds, hds⟩ := exists_ways (hs.ready a b)
  refine ⟨(unify_of_ways hs hds).1, ⟨ps, hps, hmade, hbefore⟩, ?_,
    length_le_of_excludes hexcludes⟩
  exact hexcludes.imp_of_mem fun h₁ h₂ h =>
    ⟨h.walk (hacyclic _ h₁) (hacyclic _ h₂), h.equal_eq_false⟩

/-- Two variables are left open, one after the other, and there are as many states as there can
be. -/
theorem unify_choices_both :
    linked.bindings.Acyclic ∧
    ((linked.unify
        (.pair (.expr (.var ⟨"p"⟩) .and (.bool false)) (.expr (.var ⟨"q"⟩) .or (.bool true)))
        (.pair (.bool false) (.bool true))).states.toList.map fun s' =>
          (s'.walk (.var ⟨"p"⟩), s'.walk (.var ⟨"q"⟩))) =
      [(.bool false, .bool false), (.bool false, .bool true), (.bool true, .bool false),
        (.bool true, .bool true)] ∧
    (linked.unify
        (.pair (.expr (.var ⟨"p"⟩) .and (.bool false)) (.expr (.var ⟨"q"⟩) .or (.bool true)))
        (.pair (.bool false) (.bool true))).states.toList.Pairwise
      fun s₁ s₂ => s₁.equal s₂ = false := by
  obtain ⟨-, -, hapart, -⟩ := unify_choices linked
    (.pair (.expr (.var ⟨"p"⟩) .and (.bool false)) (.expr (.var ⟨"q"⟩) .or (.bool true)))
    (.pair (.bool false) (.bool true)) linked_acyclic
  exact ⟨linked_acyclic, by decide +kernel, hapart.imp And.right⟩

end State

end Relational
