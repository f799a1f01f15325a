import Mathlib.Data.List.Forall2
import Relational.Proofs.Constraining
import Relational.Proofs.Equality
import Relational.Proofs.Leaves
import Relational.Proofs.Renaming

/-!
The order of the two sides. It decides which of two variables is bound to the other one, and
nothing else: what comes of the two orders mirrors each other, state by state.
-/

namespace Relational

open Function (Injective)

/-! ### Terms that are not both pairs -/

namespace Term

variable {ρ : Var → Var}

lemma solveLeft_rename (known : Term) (op : Op) (result : Term) :
    solveLeft (known.rename ρ) op (result.rename ρ) = solveLeft known op result := by
  cases known <;> cases result <;> rfl

lemma solveRight_rename (known : Term) (op : Op) (result : Term) :
    solveRight (known.rename ρ) op (result.rename ρ) = solveRight known op result := by
  cases known <;> cases result <;> rfl

lemma solved_left {known : Term} (hk : known.isVar = false) (x : Var) (op : Op) (result : Term) :
    (expr (var x) op known).solved result =
      ((solveLeft known op result).getD []).map (.single x) := by
  cases known with
  | var => simp [isVar, var?] at hk
  | empty | value | pair | expr => rfl

lemma solved_right {known : Term} (hk : known.isVar = false) (x : Var) (op : Op)
    (result : Term) :
    (expr known op (var x)).solved result =
      ((solveRight known op result).getD []).map (.single x) := by
  cases known with
  | var => simp [isVar, var?] at hk
  | empty | value | pair | expr => rfl

section

variable {R : Bindings → Bindings → Prop}

lemma forall₂_values {x : Var} {values? : Option (List Term)}
    (hvalues : ∀ vs, values? = some vs → ∀ v ∈ vs, ∃ w, v = .value w)
    (hR : ∀ w, R (.single x (.value w)) (.single (ρ x) (.value w))) :
    List.Forall₂ R ((values?.getD []).map (.single x)) ((values?.getD []).map (.single (ρ x))) := by
  rw [List.forall₂_map_left_iff, List.forall₂_map_right_iff, List.forall₂_same]
  intro v hv
  cases values? with
  | none => simp at hv
  | some vs =>
    obtain ⟨w, rfl⟩ := hvalues vs rfl v hv
    exact hR w

lemma solved_rename_left {known : Term} (hk : known.isVar = false) {x : Var}
    (hR : ∀ w, R (.single x (.value w)) (.single (ρ x) (.value w))) (op : Op) (result : Term) :
    List.Forall₂ R ((expr (var x) op known).solved result)
      (((expr (var x) op known).rename ρ).solved (result.rename ρ)) := by
  have hk' : (known.rename ρ).isVar = false := (isVar_rename known).trans hk
  rw [rename, rename, solved_left hk, solved_left hk', solveLeft_rename]
  refine forall₂_values (fun vs hvs v hv => ?_) hR
  obtain ⟨k, r, w, -, -, hw, -⟩ := mem_solveLeft hvs hv
  exact ⟨w, hw⟩

lemma solved_rename_right {known : Term} (hk : known.isVar = false) {x : Var}
    (hR : ∀ w, R (.single x (.value w)) (.single (ρ x) (.value w))) (op : Op) (result : Term) :
    List.Forall₂ R ((expr known op (var x)).solved result)
      (((expr known op (var x)).rename ρ).solved (result.rename ρ)) := by
  have hk' : (known.rename ρ).isVar = false := (isVar_rename known).trans hk
  rw [rename, rename, solved_right hk, solved_right hk', solveRight_rename]
  refine forall₂_values (fun vs hvs v hv => ?_) hR
  obtain ⟨k, r, w, -, -, hw, -⟩ := mem_solveRight hvs hv
  exact ⟨w, hw⟩

/-- Under other names an expression has the same solutions, for the image of its unknown. -/
lemma solved_rename {e : Term}
    (hR : ∀ x ∈ e.vars, ∀ w, R (.single x (.value w)) (.single (ρ x) (.value w)))
    (result : Term) :
    List.Forall₂ R (e.solved result) ((e.rename ρ).solved (result.rename ρ)) := by
  cases e with
  | empty | value | pair | var => exact .nil
  | expr a op b =>
    cases a with
    | var x =>
      cases b with
      | var y => exact .nil
      | empty | value | pair | expr =>
        exact solved_rename_left rfl (hR x (by simp [vars])) op result
    | empty | value | pair | expr =>
      cases b with
      | var y => exact solved_rename_right rfl (hR y (by simp [vars])) op result
      | empty | value | pair | expr => exact .nil

end

lemma pairs_of_rename {l r : Term} (h : Pairs (r.rename ρ) (l.rename ρ)) : Pairs l r := by
  cases l <;> cases r <;> exact h

lemma leaves_var_var (x y : Var) :
    (var x).leaves (var y) = if y = x then [∅] else [.single x (.var y)] := by
  rw [leaves_var]
  by_cases hyx : y = x
  · simp [hyx]
  · simp [hyx, vars, Ne.symm hyx]

/-- The order of two terms matters only when both are variables. -/
lemma leaves_comm {l r : Term} (h : l.isVar = false ∨ r.isVar = false) :
    l.leaves r = r.leaves l := by
  have hvar : ∀ (x : Var) (t : Term), t.isVar = false → (var x).leaves t = t.leaves (var x) := by
    intro x t ht
    have hne : t ≠ var x := by rintro rfl; simp [isVar, var?] at ht
    rw [leaves_var, if_neg hne, leaves_var_right ht]
  have hexpr : ∀ (a : Term) (op : Op) (b t : Term), t.isVar = false →
      (expr a op b).leaves t = t.leaves (expr a op b) := fun a op b t ht => by
    rw [leaves_expr ht, leaves_expr_right ht]
  cases l with
  | var x => exact hvar x r (h.resolve_left (by simp [isVar, var?]))
  | expr a op b =>
    cases r with
    | var y => exact (hvar y _ rfl).symm
    | empty | value | pair | expr => exact hexpr a op b _ rfl
  | empty | pair =>
    cases r with
    | var y => exact (hvar y _ rfl).symm
    | expr a op b => exact (hexpr a op b _ rfl).symm
    | empty | value | pair => rfl
  | value v =>
    cases r with
    | var y => exact (hvar y _ rfl).symm
    | expr a op b => exact (hexpr a op b _ rfl).symm
    | empty | pair => rfl
    | value w => rw [leaves_value, leaves_value, Scalar.equal_comm]

section

variable {R : Bindings → Bindings → Prop}

lemma leaves_rename_var (hρ : Injective ρ) {x : Var} {t : Term} (hempty : R ∅ ∅)
    (hsingle : x ∉ t.vars → R (.single x t) (.single (ρ x) (t.rename ρ))) :
    List.Forall₂ R ((var x).leaves t) (((var x).rename ρ).leaves (t.rename ρ)) := by
  rw [rename, leaves_var, leaves_var]
  simp only [rename_eq_var_iff hρ, mem_vars_rename_iff hρ]
  split_ifs with ht hx
  · exact .cons hempty .nil
  · exact .nil
  · exact .cons (hsingle hx) .nil

lemma leaves_rename_expr {a b t : Term} {op : Op} (ht : t.isVar = false)
    (hvalue : ∀ x ∈ (expr a op b).vars, ∀ w,
      R (.single x (.value w)) (.single (ρ x) (.value w))) :
    List.Forall₂ R ((expr a op b).leaves t) (((expr a op b).rename ρ).leaves (t.rename ρ)) := by
  have hsolved := solved_rename hvalue t
  rw [rename] at hsolved ⊢
  rwa [leaves_expr ht, leaves_expr ((isVar_rename t).trans ht)]

/-- Under other names, matching adds the images of what it added. -/
lemma leaves_rename (hρ : Injective ρ) {l r : Term} (hempty : R ∅ ∅)
    (hsingle : ∀ x ∈ l.vars ++ r.vars, ∀ t, (t = l ∨ t = r ∨ ∃ w, t = .value w) → x ∉ t.vars →
      R (.single x t) (.single (ρ x) (t.rename ρ))) :
    List.Forall₂ R (l.leaves r) ((l.rename ρ).leaves (r.rename ρ)) := by
  have hvalue : ∀ x ∈ l.vars ++ r.vars, ∀ w,
      R (.single x (.value w)) (.single (ρ x) (.value w)) := fun x hx w =>
    hsingle x hx (.value w) (.inr (.inr ⟨w, rfl⟩)) (by simp [vars])
  have hcomm : l.isVar = false →
      List.Forall₂ R (r.leaves l) ((r.rename ρ).leaves (l.rename ρ)) →
      List.Forall₂ R (l.leaves r) ((l.rename ρ).leaves (r.rename ρ)) := fun hl h => by
    rwa [leaves_comm (.inl hl), leaves_comm (.inl ((isVar_rename l).trans hl))]
  have hvar : ∀ y, r = var y → l.isVar = false →
      List.Forall₂ R (l.leaves r) ((l.rename ρ).leaves (r.rename ρ)) := by
    rintro y rfl hl
    exact hcomm hl (leaves_rename_var hρ hempty (hsingle y (by simp [vars]) l (.inl rfl)))
  have hexpr : ∀ a op b, r = expr a op b → l.isVar = false →
      List.Forall₂ R (l.leaves r) ((l.rename ρ).leaves (r.rename ρ)) := by
    rintro a op b rfl hl
    exact hcomm hl (leaves_rename_expr hl fun x hx => hvalue x (List.mem_append_right _ hx))
  cases l with
  | var x => exact leaves_rename_var hρ hempty (hsingle x (by simp [vars]) r (.inr (.inl rfl)))
  | expr a op b =>
    cases r with
    | var y => exact hvar y rfl rfl
    | empty | value | pair | expr =>
      exact leaves_rename_expr rfl fun x hx => hvalue x (List.mem_append_left _ hx)
  | empty | pair =>
    cases r with
    | var y => exact hvar y rfl rfl
    | expr a op b => exact hexpr a op b rfl rfl
    | empty | pair | value => first | exact .nil | exact .cons hempty .nil
  | value v =>
    cases r with
    | var y => exact hvar y rfl rfl
    | expr a op b => exact hexpr a op b rfl rfl
    | empty | pair => exact .nil
    | value w =>
      rw [rename, rename, leaves_value]
      split_ifs
      · exact .cons hempty .nil
      · exact .nil

end

end Term

/-! ### Mirror images -/

/-- What is added to the one and what is added to the other make every term walk to the same, but
for the names of the variables. -/
def Mirrored (s s' d d' : Bindings) : Prop :=
  ∃ ρ, Injective ρ ∧ Bindings.Mirrors ρ (s.extend d) (s'.extend d')

section

variable {s s' : Bindings} {l r : Term} {ρ : Var → Var}

namespace Bindings.Mirrors

lemma empty (h : s.Mirrors ρ s') (hρ : Injective ρ) : Mirrored s s' ∅ ∅ :=
  ⟨ρ, hρ, by rwa [extend_empty, extend_empty]⟩

/-- Each order binds the variable on its own left side. -/
lemma leaves_var (h : s.Mirrors ρ s') (hs : s.Acyclic) (hs' : s'.Acyclic) (hρ : Injective ρ)
    {x y : Var} (hx : s[x]? = none) (hy : s[y]? = none) :
    List.Forall₂ (Mirrored s s') ((Term.var x).leaves (.var y))
      ((Term.var (ρ y)).leaves (.var (ρ x))) := by
  rw [Term.leaves_var_var, Term.leaves_var_var]
  by_cases hxy : x = y
  · rw [if_pos hxy.symm, if_pos (congrArg ρ hxy)]
    exact .cons (h.empty hρ) .nil
  · rw [if_neg (Ne.symm hxy), if_neg (hρ.ne hxy)]
    exact .cons ⟨_, hρ.comp (Equiv.injective _), h.swap hs hs' hρ hx hy hxy⟩ .nil

/-- In the other order and under the other names, matching adds mirror images. -/
lemma leaves (h : s.Mirrors ρ s') (hp : Ready s l r) (hs' : s'.Acyclic) (hρ : Injective ρ) :
    List.Forall₂ (Mirrored s s') (l.leaves r) ((r.rename ρ).leaves (l.rename ρ)) := by
  have hsingle : ∀ x ∈ l.vars ++ r.vars, ∀ t, (t = l ∨ t = r ∨ ∃ w, t = .value w) → x ∉ t.vars →
      Mirrored s s' (.single x t) (.single (ρ x) (t.rename ρ)) := by
    intro x hx t ht hxt
    have hnormal : s.Normal t := by
      rcases ht with rfl | rfl | ⟨w, rfl⟩
      · exact hp.left
      · exact hp.right
      · exact normal_value s w
    exact ⟨ρ, hρ, h.single hp.acyclic hs' hρ (hp.free x hx) hnormal hxt⟩
  have hcomm : (l.isVar = false ∨ r.isVar = false) →
      List.Forall₂ (Mirrored s s') (l.leaves r) ((r.rename ρ).leaves (l.rename ρ)) := by
    intro hone
    rw [Term.leaves_comm (l := r.rename ρ) (by rwa [Term.isVar_rename, Term.isVar_rename, or_comm])]
    exact Term.leaves_rename hρ (h.empty hρ) hsingle
  cases l with
  | var x =>
    cases r with
    | var y =>
      exact h.leaves_var hp.acyclic hs' hρ (hp.left.free x (.head _)) (hp.right.free y (.head _))
    | empty | value | pair | expr => exact hcomm (.inr rfl)
  | empty | value | pair | expr => exact hcomm (.inl rfl)

end Bindings.Mirrors

lemma Mirrored.extend {d d' e e' : Bindings}
    (h : Mirrored (s.extend d) (s'.extend d') e e') : Mirrored s s' (d.extend e) (d'.extend e') := by
  obtain ⟨ρ, hρ, hmirrors⟩ := h
  refine ⟨ρ, hρ, ?_⟩
  rwa [← Bindings.extend_assoc, ← Bindings.extend_assoc]

/-- Members of the two lists go together, and so do the lists that come of them. -/
lemma forall₂_flatMap {α β : Type} {R : α → α → Prop} {P : β → β → Prop} {xs ys : List α}
    {f g : α → List β} (h : List.Forall₂ R xs ys)
    (hfg : ∀ x ∈ xs, ∀ y ∈ ys, R x y → List.Forall₂ P (f x) (g y)) :
    List.Forall₂ P (xs.flatMap f) (ys.flatMap g) := by
  induction h with
  | nil => exact .nil
  | @cons x y xs ys hxy _ ih =>
    have hhead := hfg x (.head _) y (.head _) hxy
    have htail := ih fun x' hx' y' hy' => hfg x' (.tail _ hx') y' (.tail _ hy')
    rw [List.flatMap_cons, List.flatMap_cons]
    exact List.rel_append hhead htail

/-- **Mirror images**: in the other order and under the other names there are as many ways, and
each adds the mirror image of what its counterpart adds. -/
lemma Ways.mirrored {ds ds' : List Bindings} (hways : Ways s l r ds) (hp : Ready s l r)
    (hs' : s'.Acyclic) (hρ : Injective ρ) (h : s.Mirrors ρ s')
    (hways' : Ways s' (r.rename ρ) (l.rename ρ) ds') :
    List.Forall₂ (Mirrored s s') ds ds' := by
  induction hways generalizing s' ρ ds' with
  | @leaf s l r hn =>
    rw [hways'.of_leaf (mt Term.pairs_of_rename hn)]
    exact h.leaves hp hs' hρ
  | @pair s a b a' b' es f first second ih1 ih2 =>
    obtain ⟨es', f', rfl, first', second'⟩ := hways'.of_pair
    have hready : Ready s' (a'.rename ρ) (a.rename ρ) :=
      ⟨hs', h.normal hs' hp.right.of_pair.1, h.normal hs' hp.left.of_pair.1⟩
    have hfirst := ih1 hp.first hs' hρ h first'
    refine forall₂_flatMap hfirst fun d hd d' hd' ⟨ρ', hρ', h'⟩ => ?_
    have hadd := (first.way hd).addition hp.first
    have hadd' := (first'.way hd').addition hready
    -- the second fields are walked anew, which comes to the same from under the first names
    have hwalk : ∀ c, s.Normal c →
        (s'.extend d').walk (c.rename ρ) = ((s.extend d).walk c).rename ρ' := fun c hc => by
      rw [← hc.walk_eq, ← h c, hadd'.walk_walk hs', h' c, hc.walk_eq]
    have hsecond' := second' d' hd'
    rw [hwalk b hp.left.of_pair.2, hwalk b' hp.right.of_pair.2] at hsecond'
    have hsecond := ih2 d hd hadd.second hadd'.acyclic hρ' h' hsecond'
    rw [List.forall₂_map_left_iff, List.forall₂_map_right_iff]
    exact hsecond.imp fun e e' => Mirrored.extend

end

namespace State

/-- **Symmetry**: whichever of the two terms comes first, making them equal ends with as many
states, and state by state every term walks to the same, but for the names of the variables. -/
theorem unify_symm (s : State) (a b : Term) (hs : s.bindings.Acyclic) :
    (s.unify a b).states.Complete ∧ (s.unify b a).states.Complete ∧
    List.Forall₂ (fun s₁ s₂ => ∃ ρ : Var → Var, Injective ρ ∧
        ∀ t, s₂.walk t = (s₁.walk t).rename ρ)
      (s.unify a b).states.toList (s.unify b a).states.toList := by
  obtain ⟨ds, hds⟩ := exists_ways (hs.ready a b)
  obtain ⟨ds', hds'⟩ := exists_ways (hs.ready b a)
  obtain ⟨hab, habList⟩ := unify_of_ways hs hds
  obtain ⟨hba, hbaList⟩ := unify_of_ways hs hds'
  have hways : Ways s.bindings ((s.walk b).rename id) ((s.walk a).rename id) ds' := by
    rwa [Term.rename_id, Term.rename_id]
  have hmirrored : List.Forall₂ (Mirrored s.bindings s.bindings) ds ds' :=
    hds.mirrored (hs.ready a b) hs Function.injective_id (Bindings.mirrors_refl _) hways
  refine ⟨hab, hba, ?_⟩
  rw [habList, hbaList, List.forall₂_map_left_iff, List.forall₂_map_right_iff]
  exact hmirrored

/-- The first order binds `u` and the second one `v`, and then there are two values for the one
that is left. -/
theorem unify_symm_branching :
    linked.bindings.Acyclic ∧
    (linked.unify (.pair (.var ⟨"u"⟩) (.expr (.var ⟨"u"⟩) .and (.bool false)))
      (.pair (.var ⟨"v"⟩) (.bool false))).states.toList.length = 2 ∧
    List.Forall₂ (fun s₁ s₂ => ∃ ρ : Var → Var, Injective ρ ∧
        ∀ t, s₂.walk t = (s₁.walk t).rename ρ)
      (linked.unify (.pair (.var ⟨"u"⟩) (.expr (.var ⟨"u"⟩) .and (.bool false)))
        (.pair (.var ⟨"v"⟩) (.bool false))).states.toList
      (linked.unify (.pair (.var ⟨"v"⟩) (.bool false))
        (.pair (.var ⟨"u"⟩) (.expr (.var ⟨"u"⟩) .and (.bool false)))).states.toList :=
  ⟨linked_acyclic, by decide +kernel, (unify_symm linked _ _ linked_acyclic).2.2⟩

end State

end Relational
