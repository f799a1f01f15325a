import Relational.Proofs.Measure

/-!
Matching finds the ways. The rounds and the depth that it allows itself are enough to find all
of them, and its limits make no difference: it is the plain recursion on smaller problems.
-/

namespace Relational

open Term (Below Pairs width)

variable {s : Bindings} {l r : Term}

/-! ### Finding the ways -/

lemma Search.bind_congr {α β : Type} {w : Search α} {f g : α → Search β}
    (h : ∀ a ∈ w.toList, f a = g a) : w.bind f = w.bind g := by
  induction w with
  | done | cut => rfl
  | note e rest ih => exact congrArg (Search.note e) (ih h)
  | answer a rest ih =>
    rw [Search.bind, Search.bind, h a (by simp [Search.toList]),
      ih () fun b hb => h b (by simp [Search.toList, hb])]

lemma search_opening (w : Search Bindings) : Matching.search w.opening = w := by
  induction w with
  | done | cut | answer => rfl
  | note e rest ih =>
    conv_rhs => rw [← ih]
    rcases h : rest.opening with ⟨log, _ | ways⟩ <;>
      simp [Search.opening, Matching.search, Search.notes, h]

lemma opening_eq_none {w : Search Bindings} (h : w.Complete) :
    w.opening.2 = none ↔ w.toList = [] := by
  induction w with
  | done => simp [Search.opening, Search.toList]
  | cut => exact h.elim
  | note e rest ih => exact ih h
  | answer => simp [Search.opening, Search.toList]

namespace Matching

/-- The matching ends by itself, with these ways, and says in advance if there are none. -/
structure Finds (m : Matching) (ds : List Bindings) : Prop where
  complete : m.search.Complete
  toList : m.search.toList = ds
  none_iff : m.2 = none ↔ ds = []

lemma finds_opening {w : Search Bindings} (h : w.Complete) : Finds w.opening w.toList where
  complete := by rwa [search_opening]
  toList := by rw [search_opening]
  none_iff := opening_eq_none h

lemma finds_agree : agree.Finds [∅] := ⟨trivial, rfl, by simp [agree]⟩

lemma finds_refuse : refuse.Finds [] := ⟨trivial, rfl, by simp [refuse]⟩

lemma finds_bindVar (x : Var) (t : Term) : (bindVar x t).Finds (bindVar x t).search.toList := by
  unfold bindVar
  split_ifs
  · exact ⟨trivial, rfl, by simp [search, Search.notes, Search.toList]⟩
  · exact ⟨trivial, rfl, by simp [search, Search.notes, Search.toList, Search.single]⟩

end Matching

namespace Term

lemma finds_solveFor {e r : Term} {x : Var} {values? : Term → Option (List Term)}
    (he : e.unknown? = some (x, values?)) :
    (e.solveFor r x (values? r)).Finds (e.solveFor r x (values? r)).search.toList := by
  cases hv : values? r with
  | none => exact ⟨trivial, rfl, by simp [solveFor, Matching.search, Search.notes, Search.toList]⟩
  | some vs =>
    have hne : vs ≠ [] := by
      rcases unknown?_eq_some he with ⟨op, known, -, rfl⟩ | ⟨op, known, -, rfl⟩
      · exact solveLeft_ne_nil hv
      · exact solveRight_ne_nil hv
    refine ⟨Search.complete_notes.2 (Search.complete_ofList _), rfl, ?_⟩
    simp [solveFor, Matching.ofValues, Matching.search, Search.notes, Search.toList_ofList, hne]

lemma finds_matchLeaf {l r : Term} (hp : ¬ Pairs l r) :
    (l.matchLeaf r).Finds (l.matchLeaf r).search.toList := by
  unfold matchLeaf Bindings.matchStep
  split
  · exact Matching.finds_agree
  · split_ifs
    · exact Matching.finds_agree
    · exact Matching.finds_refuse
  · exact absurd trivial hp
  · split_ifs
    · exact Matching.finds_agree
    · exact Matching.finds_bindVar _ _
  · exact Matching.finds_bindVar _ _
  · split
    · next he => exact finds_solveFor he
    · next he => exact finds_solveFor he
    · exact Matching.finds_refuse

end Term

/-- The matcher finds the ways of a problem. -/
def Meets (again : Matcher) (s : Bindings) (l r : Term) : Prop :=
  ∀ ds, Ways s l r ds → (again s l r).Finds ds

/-- The matcher finds the ways of every problem that is smaller than the one of `l` and `r`. -/
def MeetsBelow (again : Matcher) (l r : Term) : Prop :=
  ∀ s l' r', Ready s l' r' → Below l' r' l r → Meets again s l' r'

variable {again next : Matcher}

/-- Field by field down two chains is the same as pair by pair. -/
lemma finds_fieldSearch (H : MeetsBelow again l r) (b b' : Term) {s : Bindings} {ds : List Bindings}
    (hs : s.Acyclic) (hb : Below (s.walk b) (s.walk b') l r)
    (h : Ways s (s.walk b) (s.walk b') ds) (acc : Bindings) :
    (Bindings.fieldSearch again s acc (Term.fields b b')).Complete ∧
      (Bindings.fieldSearch again s acc (Term.fields b b')).toList = ds.map acc.extend := by
  induction b, b' using Term.fields.induct generalizing s acc ds with
  | case1 a as a' as' ih =>
    rw [Bindings.walk_pair, Bindings.walk_pair] at h
    obtain ⟨es, f, rfl, first, second⟩ := h.of_pair
    obtain ⟨hc, ht, -⟩ := H s _ _ (hs.ready a a') ((Term.below_first ..).trans hb) _ first
    have hrest : ∀ d ∈ es,
        (Bindings.fieldSearch again (s.extend d) (acc.extend d) (Term.fields as as')).Complete ∧
        (Bindings.fieldSearch again (s.extend d) (acc.extend d) (Term.fields as as')).toList =
          (f d).map (acc.extend d).extend := by
      intro d hd
      have hadd := (first.way hd).addition (hs.ready a a')
      have hways := second d hd
      rw [hadd.walk_walk hs, hadd.walk_walk hs] at hways
      exact ih hadd.acyclic ((hadd.below_fields hs as as').trans hb) hways _
    have hcomplete := fun d hd => (hrest d (ht ▸ hd)).1
    simp only [Term.fields, Bindings.fieldSearch, Search.complete_notes, Search.toList_notes]
    refine ⟨Search.complete_bind hc hcomplete, ?_⟩
    rw [Search.toList_bind hc hcomplete, ht, List.map_flatMap]
    refine List.flatMap_congr fun d hd => ?_
    rw [(hrest d hd).2, List.map_map]
    exact List.map_congr_left fun e _ => Bindings.extend_assoc acc d e
  | case2 b b' hne =>
    obtain ⟨hc, ht, -⟩ := H s _ _ (hs.ready b b') hb ds h
    have hsingle : ∀ d ∈ (again s (s.walk b) (s.walk b')).search.toList,
        (Search.single (acc.extend d)).Complete := fun d _ => Search.complete_single _
    rw [Term.fields.eq_2 b b' hne]
    simp only [Bindings.fieldSearch, Search.complete_notes, Search.toList_notes]
    refine ⟨Search.complete_bind hc hsingle, ?_⟩
    rw [Search.toList_bind hc hsingle, ht, List.map_eq_flatMap]
    rfl

lemma meets_matchStep (h : Ready s l r) (H : MeetsBelow again l r) :
    Meets (Bindings.matchStep again) s l r := by
  intro ds hds
  by_cases hp : Pairs l r
  · obtain ⟨a, b, a', b', rfl, rfl⟩ := hp.exists_eq
    obtain ⟨es, f, rfl, first, second⟩ := hds.of_pair
    obtain ⟨hc, ht, -⟩ := H s a a' h.first (Term.below_first ..) _ first
    have hrest : ∀ d ∈ es, (Bindings.fieldSearch again (s.extend d) d (Term.fields b b')).Complete ∧
        (Bindings.fieldSearch again (s.extend d) d (Term.fields b b')).toList =
          (f d).map d.extend := by
      intro d hd
      have hadd := (first.way hd).addition h.first
      exact finds_fieldSearch H b b' hadd.acyclic (hadd.below_second h) (second d hd) d
    have hcomplete := fun d hd => (hrest d (ht ▸ hd)).1
    have hlist : ((again s a a').search.bind fun d =>
        Bindings.fieldSearch again (s.extend d) d (Term.fields b b')).toList =
          es.flatMap fun d => (f d).map d.extend := by
      rw [Search.toList_bind hc hcomplete, ht]
      exact List.flatMap_congr fun d hd => (hrest d hd).2
    rw [← hlist]
    exact Matching.finds_opening (Search.complete_bind hc hcomplete)
  · cases hds with
    | leaf => rw [Term.matchStep_eq_matchLeaf hp]; exact Term.finds_matchLeaf hp
    | pair => exact absurd trivial hp

/-- The two matchers do the same on every problem that is smaller than the one of `l` and `r`. -/
def SameBelow (again next : Matcher) (l r : Term) : Prop :=
  ∀ s l' r', Ready s l' r' → Below l' r' l r → again s l' r' = next s l' r'

lemma fieldSearch_congr (H : MeetsBelow again l r) (E : SameBelow again next l r) (b b' : Term)
    {s : Bindings} (hs : s.Acyclic) (hb : Below (s.walk b) (s.walk b') l r) (acc : Bindings) :
    Bindings.fieldSearch again s acc (Term.fields b b') =
      Bindings.fieldSearch next s acc (Term.fields b b') := by
  induction b, b' using Term.fields.induct generalizing s acc with
  | case1 a as a' as' ih =>
    have hfirst : Below (s.walk a) (s.walk a') l r := (Term.below_first ..).trans hb
    obtain ⟨es, hes⟩ := exists_ways (hs.ready a a')
    have ht := (H s _ _ (hs.ready a a') hfirst es hes).toList
    simp only [Term.fields, Bindings.fieldSearch, ← E s _ _ (hs.ready a a') hfirst]
    rw [Search.bind_congr fun d hd => ?_]
    have hadd := (hes.way (ht ▸ hd)).addition (hs.ready a a')
    exact ih hadd.acyclic ((hadd.below_fields hs as as').trans hb) _
  | case2 b b' hne =>
    rw [Term.fields.eq_2 b b' hne]
    simp only [Bindings.fieldSearch, E s _ _ (hs.ready b b') hb]

lemma matchStep_congr (h : Ready s l r) (H : MeetsBelow again l r) (E : SameBelow again next l r) :
    Bindings.matchStep again s l r = Bindings.matchStep next s l r := by
  by_cases hp : Pairs l r
  · obtain ⟨a, b, a', b', rfl, rfl⟩ := hp.exists_eq
    obtain ⟨es, hes⟩ := exists_ways h.first
    have ht := (H s a a' h.first (Term.below_first ..) es hes).toList
    change ((again s a a').search.bind fun d =>
        Bindings.fieldSearch again (s.extend d) d (Term.fields b b')).opening =
      ((next s a a').search.bind fun d =>
        Bindings.fieldSearch next (s.extend d) d (Term.fields b b')).opening
    rw [← E s a a' h.first (Term.below_first ..)]
    rw [Search.bind_congr fun d hd => ?_]
    have hadd := (hes.way (ht ▸ hd)).addition h.first
    exact fieldSearch_congr H E b b' hadd.acyclic (hadd.below_second h) d
  · rw [Term.matchStep_eq_matchLeaf hp, Term.matchStep_eq_matchLeaf hp]

/-! ### The limits -/

/-- A depth of the size of the terms is enough as long as no variable is bound; after that, the
rounds that are left have to be more than the variables. -/
def Enough (rounds depth : ℕ) (l r : Term) : Prop :=
  width l r < rounds ∨ (width l r ≤ rounds ∧ l.size + r.size ≤ depth)

/-- Within the limits matching takes a step, and what it goes on with is enough for all smaller
problems. -/
lemma Enough.exists_step {n depth : ℕ} (h : Enough n depth l r) (s : Bindings) :
    ∃ m k, Bindings.matchIn (Bindings.matchRounds n) depth s l r =
        Bindings.matchStep (Bindings.matchIn (Bindings.matchRounds m) k) s l r ∧
      ∀ l' r', Below l' r' l r → Enough m k l' r' := by
  unfold Enough Below at *
  have hsize := l.size_pos
  cases depth with
  | succ depth =>
    exact ⟨n, depth, rfl, fun l' r' hb => by omega⟩
  | zero =>
    -- a new round begins
    obtain ⟨m, rfl⟩ : ∃ m, n = m + 1 := ⟨n - 1, by omega⟩
    obtain ⟨k, hk⟩ : ∃ k, l.size + r.size = k + 1 := ⟨l.size + r.size - 1, by omega⟩
    refine ⟨m, k, ?_, fun l' r' hb => by omega⟩
    change Bindings.matchIn (Bindings.matchRounds m) (l.size + r.size) s l r = _
    rw [hk, Bindings.matchIn]

lemma Enough.meets {n depth : ℕ} (he : Enough n depth l r) (h : Ready s l r) :
    Meets (Bindings.matchIn (Bindings.matchRounds n) depth) s l r := by
  induction l, r using Term.below_induct generalizing s n depth with
  | _ l r ih =>
    obtain ⟨m, k, hstep, hnext⟩ := he.exists_step s
    intro ds hds
    rw [hstep]
    exact meets_matchStep h (fun s' l' r' h' hb => ih l' r' hb (hnext l' r' hb) h') ds hds

/-- The limits that matching allows itself are enough. -/
lemma enough_matchTerms (s : Bindings) (l r : Term) :
    Enough (l.size + r.size + s.weight + 2) 0 l r := by
  have := Term.width_le_size l r
  exact .inl (by omega)

/-- **Adequacy**: matching ends by itself and finds the ways, all of them and in their order. -/
theorem meets_matchTerms (h : Ready s l r) : Meets Bindings.matchTerms s l r :=
  (enough_matchTerms s l r).meets h

/-- Limits that are enough make no difference. -/
lemma Enough.matchIn_eq {n m depth depth' : ℕ} (he : Enough n depth l r)
    (he' : Enough m depth' l r) (h : Ready s l r) :
    Bindings.matchIn (Bindings.matchRounds n) depth s l r =
      Bindings.matchIn (Bindings.matchRounds m) depth' s l r := by
  induction l, r using Term.below_induct generalizing s n m depth depth' with
  | _ l r ih =>
    obtain ⟨n', k, hstep, hnext⟩ := he.exists_step s
    obtain ⟨m', k', hstep', hnext'⟩ := he'.exists_step s
    rw [hstep, hstep']
    exact matchStep_congr h (fun s' l' r' h' hb => (hnext l' r' hb).meets h')
      fun s' l' r' h' hb => ih l' r' hb (hnext l' r' hb) (hnext' l' r' hb) h'

/-- **Recursion**: without circles matching is one step that goes on with itself. -/
theorem matchTerms_eq_matchStep (h : Ready s l r) :
    Bindings.matchTerms s l r = Bindings.matchStep Bindings.matchTerms s l r := by
  obtain ⟨m, k, hstep, hnext⟩ := (enough_matchTerms s l r).exists_step s
  refine Eq.trans hstep (matchStep_congr h (fun s' l' r' h' hb => (hnext l' r' hb).meets h')
    fun s' l' r' h' hb => ?_)
  have heq := (hnext l' r' hb).matchIn_eq (enough_matchTerms s' l' r') h'
  exact heq

end Relational
