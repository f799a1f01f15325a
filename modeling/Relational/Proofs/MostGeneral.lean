import Relational.Proofs.Constraining

/-!
Unification of structural terms, which have no expressions and no floats. A substitution
satisfies bindings when it makes every variable equal to the term that it is bound to. Making
two terms equal gives a state exactly when some substitution satisfies the state and makes the
terms equal, and those that do are the ones that satisfy the new state.
-/

namespace Relational

open Term (Leaf Pairs)

namespace Term

/-- There is no expression and no float in the term. -/
def structural : Term → Bool
  | .value (.float _) | .expr _ _ _ => false
  | .empty | .value _ | .var _ => true
  | .pair a b => a.structural && b.structural

/-- Puts a term for every variable and computes nothing. -/
def subst (θ : Var → Term) : Term → Term
  | .empty => .empty
  | .value v => .value v
  | .var x => θ x
  | .pair a b => .pair (a.subst θ) (b.subst θ)
  | .expr a op b => .expr (a.subst θ) op (b.subst θ)

lemma structural_pair {a b : Term} : (pair a b).structural ↔ a.structural ∧ b.structural := by
  simp [structural]

lemma structural_value {v : Scalar} : (value v).structural ↔ v.kind ≠ .float := by
  cases v <;> simp [structural, Scalar.kind]

lemma not_structural_expr {a b : Term} {op : Op} : ¬ (expr a op b).structural := by
  simp [structural]

lemma instantiate_eq_subst {t : Term} (ht : t.structural) (f : Var → Term) :
    t.instantiate f = t.subst f := by
  induction t with
  | empty | value v | var x => rfl
  | pair a b iha ihb =>
    rw [structural_pair] at ht
    rw [instantiate, subst, iha ht.1, ihb ht.2]
  | expr a op b => exact absurd ht not_structural_expr

lemma closed_structural : Closed (structural · = true) :=
  closed_of_parts (fun _ => rfl) structural_pair (fun h => absurd h not_structural_expr)
    (fun h => absurd h not_structural_expr)
    (by simpa only [structural_value] using Scalar.closed_kind)

lemma subst_instantiate {t : Term} (ht : t.structural) {f θ : Var → Term}
    (hf : ∀ x, (f x).subst θ = θ x) : (t.instantiate f).subst θ = t.subst θ := by
  induction t with
  | empty | value v => rfl
  | var x => exact hf x
  | pair a b iha ihb =>
    rw [structural_pair] at ht
    rw [instantiate, subst, subst, iha ht.1, ihb ht.2]
  | expr a op b => exact absurd ht not_structural_expr

lemma size_le_size_subst {x : Var} {t : Term} (hx : x ∈ t.vars) (θ : Var → Term) :
    (θ x).size ≤ (t.subst θ).size := by
  induction t with
  | empty | value v => simp [vars] at hx
  | var y => rw [List.mem_singleton.1 hx, subst]
  | pair a b iha ihb | expr a op b iha ihb =>
    rw [vars, List.mem_append] at hx
    rw [subst, size]
    rcases hx with hx | hx
    · have := iha hx; omega
    · have := ihb hx; omega

/-- No substitution makes a variable equal to a term around it. -/
lemma subst_ne_of_mem {x : Var} {t : Term} (hx : x ∈ t.vars) (ht : t ≠ .var x)
    (θ : Var → Term) : θ x ≠ t.subst θ := by
  intro h
  have hsize := congrArg size h
  cases t with
  | empty | value v => simp [vars] at hx
  | var y => exact ht (by rw [List.mem_singleton.1 hx])
  | pair a b | expr a op b =>
    rw [subst, size] at hsize
    rcases List.mem_append.1 hx with hx | hx <;> have := size_le_size_subst hx θ <;> omega

lemma eq_of_equal {a b : Scalar} (ha : (value a).structural) (hb : (value b).structural)
    (h : a.equal b) : a = b := by
  cases a <;> cases b <;> simp_all [structural, Scalar.equal]

lemma equal_self {a : Scalar} (ha : (value a).structural) : a.equal a := by
  cases a <;> simp_all [structural, Scalar.equal]

end Term

namespace Bindings

variable {s d : Bindings} {θ : Var → Term}

/-- The substitution satisfies the bindings. -/
def Holds (s : Bindings) (θ : Var → Term) : Prop :=
  ∀ (x : Var) (t : Term), s[x]? = some t → θ x = t.subst θ

lemma holds_single {x : Var} {t : Term} : (single x t).Holds θ ↔ θ x = t.subst θ := by
  refine ⟨fun h => h x t (by simp [getElem?_single]), fun h y u hy => ?_⟩
  obtain ⟨rfl, rfl⟩ := single_eq_some hy
  exact h

lemma Fresh.holds_extend (h : s.Fresh d) : (s.extend d).Holds θ ↔ s.Holds θ ∧ d.Holds θ := by
  refine ⟨fun hθ => ⟨fun x t hx => hθ x t (h.within x t hx), fun x t hx => hθ x t ?_⟩, ?_⟩
  · rw [getElem?_extend, hx, Option.some_or]
  · rintro ⟨hs, hd⟩ x t hx
    rcases extend_eq_some hx with hx | hx
    · exact hd x t hx
    · exact hs x t hx

lemma All.structural_walk (hs : s.All (·.structural)) {t : Term} (ht : t.structural) :
    (s.walk t).structural :=
  hs.walk Term.closed_structural.toHereditary ht

/-- Walking does not change what satisfying substitutions make of a term. -/
lemma Holds.subst_walk (hθ : s.Holds θ) (hs : s.All (·.structural)) {t : Term}
    (ht : t.structural) : (s.walk t).subst θ = t.subst θ := by
  have hvar : ∀ x, (s.walk (.var x)).subst θ = θ x :=
    walk_induct (R := fun x t => t.subst θ = θ x) (fun _ => rfl) fun x t f hx hf =>
      (Term.subst_instantiate (hs x t hx) hf).trans (hθ x t hx).symm
  exact Term.subst_instantiate ht hvar

/-- Bindings without circles are satisfied by what their variables stand for. -/
lemma Acyclic.holds_walk (hs : s.Acyclic) (hst : s.All (·.structural)) :
    s.Holds fun x => s.walk (.var x) := by
  intro x t hx
  rw [← Term.instantiate_eq_subst (hst x t hx)]
  exact hs.walk_var_of_some hx

end Bindings

/-! ### One way or none -/

/-- There is one way, which adds nothing if the terms are equal already, or there is none and no
substitution that satisfies the bindings makes the terms equal. -/
def Decided (s : Bindings) (l r : Term) (ds : List Bindings) : Prop :=
  (∃ d, ds = [d] ∧ (l = r → d = ∅)) ∨ (ds = [] ∧ ∀ θ, s.Holds θ → l.subst θ ≠ r.subst θ)

lemma Decided.symm {s : Bindings} {l r : Term} {ds : List Bindings} (h : Decided s l r ds) :
    Decided s r l ds := by
  rcases h with ⟨d, rfl, hd⟩ | ⟨rfl, h⟩
  · exact .inl ⟨d, rfl, fun he => hd he.symm⟩
  · exact .inr ⟨rfl, fun θ hθ he => h θ hθ he.symm⟩

namespace Term

lemma decided_bindVar (s : Bindings) {x : Var} {t : Term} (ht : t ≠ .var x) :
    Decided s (.var x) t (Matching.bindVar x t).search.toList := by
  unfold Matching.bindVar
  split_ifs with ho
  · exact .inr ⟨rfl, fun θ _ => subst_ne_of_mem (occurs_iff.1 ho) ht θ⟩
  · exact .inl ⟨.single x t, rfl, fun h => absurd h.symm ht⟩

lemma decided_matchLeaf (s : Bindings) {l r : Term} (hl : l.structural) (hr : r.structural)
    (hp : ¬ Pairs l r) : Decided s l r (l.matchLeaf r).search.toList := by
  cases l with
  | expr => exact absurd hl not_structural_expr
  | var x =>
    change Decided s (.var x) r (if r = .var x then Matching.agree else .bindVar x r).search.toList
    split_ifs with h
    · exact .inl ⟨∅, rfl, fun _ => rfl⟩
    · exact decided_bindVar s h
  | empty =>
    cases r with
    | expr => exact absurd hr not_structural_expr
    | var x => exact (decided_bindVar s (by simp)).symm
    | empty => exact .inl ⟨∅, rfl, fun _ => rfl⟩
    | value | pair => exact .inr ⟨rfl, by simp [subst]⟩
  | pair =>
    cases r with
    | expr => exact absurd hr not_structural_expr
    | var x => exact (decided_bindVar s (by simp)).symm
    | empty | value => exact .inr ⟨rfl, by simp [subst]⟩
    | pair => exact absurd trivial hp
  | value a =>
    cases r with
    | expr => exact absurd hr not_structural_expr
    | var x => exact (decided_bindVar s (by simp)).symm
    | empty | pair => exact .inr ⟨rfl, by simp [subst]⟩
    | value b =>
      change Decided s (.value a) (.value b)
        (if a.equal b then Matching.agree else .refuse).search.toList
      split_ifs with h
      · exact .inl ⟨∅, rfl, fun _ => rfl⟩
      · refine .inr ⟨rfl, fun θ _ he => h ?_⟩
        rw [subst, subst, value.injEq] at he
        exact he ▸ equal_self hl

lemma Leaf.holds_iff {l r : Term} {d : Bindings} (h : Leaf l r d) (hl : l.structural)
    (hr : r.structural) (θ : Var → Term) : d.Holds θ ↔ l.subst θ = r.subst θ := by
  have hempty : Bindings.Holds ∅ θ := fun x t hx => by simp at hx
  induction h with
  | empty | same => exact iff_of_true hempty rfl
  | value h => exact iff_of_true hempty (by rw [eq_of_equal hl hr h])
  | bind => exact Bindings.holds_single
  | solveLeft | solveRight => exact absurd hl not_structural_expr
  | symm _ ih => exact (ih hr hl).trans eq_comm

end Term

variable {s d : Bindings} {l r : Term} {ds : List Bindings}

lemma Way.structural (h : Way s l r d) (hs : s.All (·.structural)) (hl : l.structural)
    (hr : r.structural) : d.All (·.structural) :=
  h.all Term.closed_structural hs hl hr

/-- The substitutions that satisfy the bindings after a way satisfy those before it and make the
terms equal. -/
lemma Way.holds_iff (h : Way s l r d) (hp : Ready s l r) (hs : s.All (·.structural))
    (hl : l.structural) (hr : r.structural) (θ : Var → Term) :
    (s.extend d).Holds θ ↔ s.Holds θ ∧ l.subst θ = r.subst θ := by
  induction h with
  | leaf h => rw [(h.addition hp).fresh.holds_extend, h.holds_iff hl hr]
  | @pair s a b a' b' d e first second ih1 ih2 =>
    rw [Term.structural_pair] at hl hr
    have hs' := hs.extend (first.structural hs hl.1 hr.1)
    have h1 := ih1 hp.first hs hl.1 hr.1
    have h2 := ih2 (first.addition hp.first).second hs' (hs'.structural_walk hl.2)
      (hs'.structural_walk hr.2)
    rw [← Bindings.extend_assoc, h2, Term.subst, Term.subst, Term.pair.injEq, ← and_assoc, ← h1]
    refine and_congr_right fun hθ => ?_
    rw [hθ.subst_walk hs' hl.2, hθ.subst_walk hs' hr.2]

/-- **Decision**: under every satisfying substitution, there is at most one way. -/
lemma Ways.decided (h : Ways s l r ds) (hp : Ready s l r) (hs : s.All (·.structural))
    (hl : l.structural) (hr : r.structural) : Decided s l r ds := by
  induction h with
  | leaf hn => exact Term.decided_matchLeaf _ hl hr hn
  | @pair s a b a' b' es f first second ih1 ih2 =>
    rw [Term.structural_pair] at hl hr
    rcases ih1 hp.first hs hl.1 hr.1 with ⟨d, rfl, hd⟩ | ⟨rfl, hno⟩
    · have hmem : d ∈ [d] := List.mem_singleton.2 rfl
      have hway := first.way hmem
      have hs' := hs.extend (hway.structural hs hl.1 hr.1)
      have hsecond : Decided (s.extend d) ((s.extend d).walk b) ((s.extend d).walk b') (f d) :=
        ih2 d hmem (hway.addition hp.first).second hs' (hs'.structural_walk hl.2)
          (hs'.structural_walk hr.2)
      rcases hsecond with ⟨e, he, hw⟩ | ⟨he, hno⟩
      · refine .inl ⟨d.extend e, by simp [he], fun heq => ?_⟩
        obtain ⟨rfl, rfl⟩ := Term.pair.inj heq
        rw [hd rfl, hw rfl, Bindings.extend_empty]
      · refine .inr ⟨by simp [he], fun θ hθ heq => ?_⟩
        obtain ⟨heq1, heq2⟩ := Term.pair.inj heq
        have hθ' := (hway.holds_iff hp.first hs hl.1 hr.1 θ).2 ⟨hθ, heq1⟩
        refine hno θ hθ' ?_
        rw [hθ'.subst_walk hs' hl.2, hθ'.subst_walk hs' hr.2, heq2]
    · exact .inr ⟨rfl, fun θ hθ heq => hno θ hθ (Term.pair.inj heq).1⟩

/-! ### States -/

namespace State

/-- **Most general unification**: making structural terms equal gives at most one state, and one
exactly when a satisfying substitution makes the terms equal; the substitutions that do are
those that satisfy the new state. Terms that are equal already change nothing. -/
theorem unify_mostGeneral (s : State) (a b : Term) (hs : s.bindings.Acyclic)
    (hst : s.bindings.All (·.structural)) (ha : a.structural) (hb : b.structural) :
    (s.unify a b).states.Complete ∧
    (s.unify a b).states.toList.length ≤ 1 ∧
    ((s.unify a b).states.toList.length = 1 ↔
      ∃ θ : Var → Term, (∀ x, (θ x).structural) ∧ s.bindings.Holds θ ∧ a.subst θ = b.subst θ) ∧
    (∀ s' ∈ (s.unify a b).states.toList, ∀ θ : Var → Term,
      s'.bindings.Holds θ ↔ s.bindings.Holds θ ∧ a.subst θ = b.subst θ) ∧
    (s.walk a = s.walk b → (s.unify a b).states.toList = [s]) := by
  have hp : Ready s.bindings (s.walk a) (s.walk b) := hs.ready a b
  obtain ⟨ds, hds⟩ := exists_ways hp
  obtain ⟨hc, ht⟩ := unify_of_ways hs hds
  have hwa : (s.walk a).structural := hst.structural_walk ha
  have hwb : (s.walk b).structural := hst.structural_walk hb
  -- walked terms have the same unifiers as the given ones
  have hwalk : ∀ θ, s.bindings.Holds θ →
      ((s.walk a).subst θ = (s.walk b).subst θ ↔ a.subst θ = b.subst θ) := fun θ hθ => by
    rw [walk, walk, hθ.subst_walk hst ha, hθ.subst_walk hst hb]
  have hiff : ∀ d ∈ ds, ∀ θ, (s.bindings.extend d).Holds θ ↔
      s.bindings.Holds θ ∧ a.subst θ = b.subst θ := fun d hd θ => by
    rw [(hds.way hd).holds_iff hp hst hwa hwb]
    exact and_congr_right fun hθ => hwalk θ hθ
  refine ⟨hc, ?_⟩
  rw [ht]
  rcases hds.decided hp hst hwa hwb with ⟨d, rfl, hd⟩ | ⟨rfl, hno⟩
  · have hway := hds.way (List.mem_singleton.2 rfl)
    refine ⟨le_rfl, iff_of_true rfl ?_, ?_, fun he => ?_⟩
    · have hst' := hst.extend (hway.structural hst hwa hwb)
      have hθ := (hway.addition hp).acyclic.holds_walk hst'
      exact ⟨_, fun x => hst'.structural_walk rfl, (hiff d (List.mem_singleton.2 rfl) _).1 hθ⟩
    · intro s' hs' θ
      rw [List.mem_singleton.1 hs']
      exact hiff d (List.mem_singleton.2 rfl) θ
    · rw [hd he, List.map_singleton, extend, Bindings.extend_empty]
  · refine ⟨Nat.zero_le 1, ⟨by simp, ?_⟩, by simp, fun he => ?_⟩
    · rintro ⟨θ, -, hθ, he⟩
      exact absurd ((hwalk θ hθ).2 he) (hno θ hθ)
    · -- equal walked terms are made equal by what the variables stand for
      exact absurd (by rw [he]) (hno _ (hs.holds_walk hst))

lemma linked_structural : linked.bindings.All (·.structural) := by
  refine .extend (.extend (Bindings.all_empty _) (Bindings.all_single ?_)) (Bindings.all_single ?_)
  all_goals rfl

/-- Here `w` becomes a pair, which the second fields then meet through `x`. -/
theorem unify_mostGeneral_linked :
    linked.bindings.Acyclic ∧ linked.bindings.All (·.structural) ∧
    Term.structural (.pair (.var ⟨"w"⟩) (.var ⟨"x"⟩)) ∧
    Term.structural (.pair (.pair (.var ⟨"y"⟩) (.int 1)) (.pair (.int 2) (.var ⟨"u"⟩))) ∧
    ∃ θ : Var → Term, (∀ x, (θ x).structural) ∧ linked.bindings.Holds θ ∧
      Term.subst θ (.pair (.var ⟨"w"⟩) (.var ⟨"x"⟩)) =
        Term.subst θ (.pair (.pair (.var ⟨"y"⟩) (.int 1)) (.pair (.int 2) (.var ⟨"u"⟩))) :=
  ⟨linked_acyclic, linked_structural, rfl, rfl,
    (unify_mostGeneral linked _ _ linked_acyclic linked_structural rfl rfl).2.2.1.1
      (by decide +kernel)⟩

end State

end Relational
