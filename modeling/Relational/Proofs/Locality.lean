import Relational.Proofs.Keeping

/-!
Matching is local. What it does depends on the bindings of those variables only that its terms
lead to, and what it adds is about these variables. So matching two terms whose variables are all
unbound is the same as matching them under no bindings, whatever other variables are bound to:
it ends also where the bindings have circles elsewhere.
-/

namespace Relational

open Term (Leaf Pairs)

namespace Bindings

variable {V : Var → Prop} {s s' : Bindings}

/-- All variables of the term are among these. -/
def Over (V : Var → Prop) (t : Term) : Prop := ∀ x ∈ t.vars, V x

/-- The same bindings of these variables, which lead to no other variables. -/
structure Agree (V : Var → Prop) (s s' : Bindings) : Prop where
  same : ∀ x, V x → s[x]? = s'[x]?
  closed : ∀ (x : Var) (t : Term), V x → s[x]? = some t → Over V t

lemma Agree.extend (h : Agree V s s') {d : Bindings} (hd : d.All (Over V)) :
    Agree V (s.extend d) (s'.extend d) where
  same x hx := by rw [getElem?_extend, getElem?_extend, h.same x hx]
  closed x t hx ht := by
    rcases extend_eq_some ht with ht | ht
    · exact hd x t ht
    · exact h.closed x t hx ht

lemma Agree.resolve_eq (h : Agree V s s') {n m : ℕ} {path : List Var} (hs : s.Trail n path)
    (hs' : s'.Trail m path) {x : Var} (hx : V x) : s.resolve n path x = s'.resolve m path x := by
  refine hs.resolve_induct
    (R := fun path x u => V x → ∀ m, s'.Trail m path → u = s'.resolve m path x)
    ?closed ?free ?follow x hx m hs'
  case closed => exact fun path x hmem _ m _ => (resolve_of_mem hmem m).symm
  case free => exact fun path x _ hx hV m _ => (resolve_of_none (h.same x hV ▸ hx) m path).symm
  case follow =>
    intro path x t f hmem ht ih hV m hm
    obtain ⟨m', hm', he⟩ := hm.resolve_of_some hmem (h.same x hV ▸ ht)
    rw [he]
    exact Term.instantiate_congr fun y hy => ih y (h.closed x t hV ht y hy) m' hm'

lemma Agree.walk_eq (h : Agree V s s') {t : Term} (ht : Over V t) : s.walk t = s'.walk t :=
  Term.instantiate_congr fun x hx => h.resolve_eq (trail_nil s) (trail_nil s') (ht x hx)

lemma Agree.over_walk (h : Agree V s s') {t : Term} (ht : Over V t) : Over V (s.walk t) :=
  vars_walk_of_closed ht h.closed

end Bindings

open Bindings (Over Agree)

/-- Under bindings that agree on the variables of two terms, the matcher does the same with them,
and adds nothing about other variables. -/
def Local (again : Matcher) : Prop :=
  ∀ ⦃V : Var → Prop⦄ ⦃s s' : Bindings⦄ ⦃l r : Term⦄, Agree V s s' → Over V l → Over V r →
    again s l r = again s' l r ∧ ∀ d ∈ (again s l r).search.toList, d.All (Over V)

variable {V : Var → Prop} {s s' : Bindings} {again next : Matcher}

lemma Term.over_var {x : Var} : Over V (.var x) ↔ V x := by
  simp [Over, vars]

lemma Term.over_pair {a b : Term} : Over V (.pair a b) ↔ Over V a ∧ Over V b := by
  simp [Over, vars, or_imp, forall_and]

lemma Term.over_expr {a b : Term} {op : Op} : Over V (.expr a op b) ↔ Over V a ∧ Over V b := by
  simp [Over, vars, or_imp, forall_and]

lemma Term.Leaf.over {l r : Term} {d : Bindings} (h : Leaf l r d) (hl : Over V l)
    (hr : Over V r) : d.All (Over V) := by
  induction h with
  | empty | value | same => exact Bindings.all_empty _
  | bind => exact Bindings.all_single hr
  | solveLeft h hv =>
    obtain ⟨k, r, w, -, -, rfl, -⟩ := mem_solveLeft h hv
    exact Bindings.all_single (by simp [Over, vars])
  | solveRight h hv =>
    obtain ⟨k, r, w, -, -, rfl, -⟩ := mem_solveRight h hv
    exact Bindings.all_single (by simp [Over, vars])
  | symm _ ih => exact ih hr hl

lemma kept_over : Kept (fun s => Agree V s s) (Over V) where
  pair := Term.over_pair.1
  leaf h hl hr := h.over hl hr
  walk hs ht := hs.over_walk ht
  extend hs hd := hs.extend hd

namespace Local

lemma keeps (H : Local again) (V : Var → Prop) : Keeps (fun s => Agree V s s) (Over V) again :=
  fun _ _ _ hs hl hr => (H hs hl hr).2

lemma fieldSearch (H : Local again) {fields : List (Term × Term)}
    (hf : ∀ p ∈ fields, Over V p.1 ∧ Over V p.2) (h : Agree V s s') (acc : Bindings) :
    Bindings.fieldSearch again s acc fields = Bindings.fieldSearch again s' acc fields := by
  induction fields generalizing s s' acc with
  | nil => rfl
  | cons p fields ih =>
    obtain ⟨left, right⟩ := p
    obtain ⟨⟨hl, hr⟩, hrest⟩ := List.forall_mem_cons.1 hf
    obtain ⟨heq, hover⟩ := H h (h.over_walk hl) (h.over_walk hr)
    simp only [Bindings.fieldSearch, ← h.walk_eq hl, ← h.walk_eq hr, ← heq]
    exact congrArg _ (Search.bind_congr fun d hd => ih hrest (h.extend (hover d hd)) _)

lemma matchStep (H : Local again) : Local (Bindings.matchStep again) := by
  intro V s s' l r h hl hr
  have hself : Agree V s s := ⟨fun _ _ => rfl, h.closed⟩
  refine ⟨?_, kept_over.matchStep (H.keeps V) hself hl hr⟩
  by_cases hp : Pairs l r
  · obtain ⟨a, b, a', b', rfl, rfl⟩ := hp.exists_eq
    rw [Term.over_pair] at hl hr
    obtain ⟨heq, hover⟩ := H h hl.1 hr.1
    change ((again s a a').search.bind fun d =>
        Bindings.fieldSearch again (s.extend d) d (Term.fields b b')).opening =
      ((again s' a a').search.bind fun d =>
        Bindings.fieldSearch again (s'.extend d) d (Term.fields b b')).opening
    rw [← heq]
    refine congrArg _ (Search.bind_congr fun d hd => ?_)
    exact H.fieldSearch (kept_over.fields hl.2 hr.2) (h.extend (hover d hd)) d
  · rw [Term.matchStep_eq_matchLeaf hp, Term.matchStep_eq_matchLeaf hp]

lemma matchIn (H : Local next) (depth : ℕ) : Local (Bindings.matchIn next depth) := by
  induction depth with
  | zero => exact H
  | succ depth ih => exact ih.matchStep

lemma matchRounds (rounds : ℕ) : Local (Bindings.matchRounds rounds) := by
  induction rounds with
  | zero => exact fun V s s' l r _ _ _ => ⟨rfl, fun d hd => by cases hd⟩
  | succ rounds ih => exact fun V s s' l r h hl hr => ih.matchIn (l.size + r.size) h hl hr

end Local

/-- **Locality**: terms with unbound variables only are matched as under no bindings. -/
theorem matchTerms_eq_of_normal {l r : Term} (hl : s.Normal l) (hr : s.Normal r) :
    s.matchTerms l r = Bindings.matchTerms ∅ l r := by
  have hagree : Agree (fun x => x ∈ l.vars ∨ x ∈ r.vars) s ∅ := by
    have hnone : ∀ x, x ∈ l.vars ∨ x ∈ r.vars → s[x]? = none := fun x hx =>
      hx.elim (hl.free x) (hr.free x)
    exact ⟨fun x hx => by simp [hnone x hx], fun x t hx ht => by simp [hnone x hx] at ht⟩
  have hready : Ready ∅ l r :=
    ⟨Bindings.acyclic_empty, ⟨fun x _ => by simp, hl.reduced⟩, ⟨fun x _ => by simp, hr.reduced⟩⟩
  have hlimits := (enough_matchTerms s l r).matchIn_eq (enough_matchTerms ∅ l r) hready
  calc s.matchTerms l r
      = Bindings.matchRounds (l.size + r.size + s.weight + 2) ∅ l r :=
        (Local.matchRounds _ hagree (fun _ => .inl) (fun _ => .inr)).1
    _ = Bindings.matchTerms ∅ l r := hlimits

end Relational
