import Relational.Proofs.Acyclic
import Relational.Walk

/-!
What walking computes. Under bindings without circles it is the plain recursion on terms and
bindings: the guard against circles is never met. Its result is a normal form, with no bound
variable and no expression that has a value, and walking it under more bindings is the same as
walking the term that it came from.
-/

namespace Relational

namespace Term

lemma evaluate_eq_some {a b v : Term} {op : Op} (h : evaluate a op b = some v) :
    ∃ m n w, a = .value m ∧ b = .value n ∧ m.apply op n = some w ∧ v = .value w := by
  unfold evaluate at h
  split at h
  · obtain ⟨w, hw, rfl⟩ := Option.map_eq_some_iff.1 h
    exact ⟨_, _, w, rfl, rfl, hw, rfl⟩
  · simp at h

/-- Reducing an expression leaves it as it is or computes the value of two scalars. -/
lemma reduce_cases (a : Term) (op : Op) (b : Term) :
    (evaluate a op b = none ∧ reduce a op b = .expr a op b) ∨
    ∃ m n w, a = .value m ∧ b = .value n ∧ m.apply op n = some w ∧ reduce a op b = .value w := by
  cases h : evaluate a op b with
  | none => exact .inl ⟨rfl, by simp [reduce, h]⟩
  | some v =>
    obtain ⟨m, n, w, rfl, rfl, hw, rfl⟩ := evaluate_eq_some h
    exact .inr ⟨m, n, w, rfl, rfl, hw, by simp [reduce, h]⟩

lemma mem_vars_reduce {a b : Term} {op : Op} {y : Var} :
    y ∈ (reduce a op b).vars ↔ y ∈ a.vars ∨ y ∈ b.vars := by
  rcases reduce_cases a op b with ⟨-, h⟩ | ⟨m, n, w, rfl, rfl, -, h⟩ <;> simp [h, vars]

/-! ### Putting terms for variables -/

lemma mem_vars_instantiate {f : Var → Term} {t : Term} {y : Var} :
    y ∈ (t.instantiate f).vars ↔ ∃ x ∈ t.vars, y ∈ (f x).vars := by
  induction t with
  | empty | value v | var x => simp [instantiate, vars]
  | pair a b iha ihb => simp [instantiate, vars, iha, ihb, or_and_right, exists_or]
  | expr a op b iha ihb =>
    simp [instantiate, vars, mem_vars_reduce, iha, ihb, or_and_right, exists_or]

lemma instantiate_congr {f g : Var → Term} {t : Term} (h : ∀ x ∈ t.vars, f x = g x) :
    t.instantiate f = t.instantiate g := by
  induction t with
  | empty | value v => rfl
  | var x => exact h x (by simp [vars])
  | pair a b iha ihb | expr a op b iha ihb =>
    rw [instantiate, instantiate, iha fun x hx => h x (by simp [vars, hx]),
      ihb fun x hx => h x (by simp [vars, hx])]

lemma instantiate_reduce (f : Var → Term) (a : Term) (op : Op) (b : Term) :
    (reduce a op b).instantiate f = reduce (a.instantiate f) op (b.instantiate f) := by
  rcases reduce_cases a op b with ⟨-, h⟩ | ⟨m, n, w, rfl, rfl, hw, h⟩
  · rw [h, instantiate]
  · rw [h, instantiate, instantiate, instantiate, h]

/-- Computing early does not matter: what has a value keeps it. -/
lemma instantiate_instantiate (f g : Var → Term) (t : Term) :
    (t.instantiate f).instantiate g = t.instantiate fun x => (f x).instantiate g := by
  induction t with
  | empty | value v | var x => rfl
  | pair a b iha ihb => simp only [instantiate, iha, ihb]
  | expr a op b iha ihb => simp only [instantiate, instantiate_reduce, iha, ihb]

/-- No expression in the term has a value. -/
def Reduced : Term → Prop
  | .empty | .value _ | .var _ => True
  | .pair a b => a.Reduced ∧ b.Reduced
  | .expr a op b => a.Reduced ∧ b.Reduced ∧ evaluate a op b = none

lemma reduced_reduce {a b : Term} {op : Op} (ha : a.Reduced) (hb : b.Reduced) :
    (reduce a op b).Reduced := by
  rcases reduce_cases a op b with ⟨he, h⟩ | ⟨m, n, w, rfl, rfl, -, h⟩
  · rw [h]; exact ⟨ha, hb, he⟩
  · rw [h]; trivial

lemma reduced_instantiate {f : Var → Term} (hf : ∀ x, (f x).Reduced) (t : Term) :
    (t.instantiate f).Reduced := by
  induction t with
  | empty | value v => trivial
  | var x => exact hf x
  | pair a b iha ihb => exact ⟨iha, ihb⟩
  | expr a op b iha ihb => exact reduced_reduce iha ihb

lemma instantiate_eq_self {f : Var → Term} {t : Term} (ht : t.Reduced)
    (h : ∀ x ∈ t.vars, f x = .var x) : t.instantiate f = t := by
  induction t with
  | empty | value v => rfl
  | var x => exact h x (by simp [vars])
  | pair a b iha ihb =>
    rw [instantiate, iha ht.1 fun x hx => h x (by simp [vars, hx]),
      ihb ht.2 fun x hx => h x (by simp [vars, hx])]
  | expr a op b iha ihb =>
    rw [instantiate, iha ht.1 fun x hx => h x (by simp [vars, hx]),
      ihb ht.2.1 fun x hx => h x (by simp [vars, hx]), reduce, ht.2.2, Option.getD_none]

/-- A property of terms that variables have and fields inherit, and that is kept when terms that
have it are put for variables. -/
structure Hereditary (P : Term → Prop) : Prop where
  var : ∀ x, P (.var x)
  pair : ∀ {a b}, P (.pair a b) → P a ∧ P b
  instantiate : ∀ {t f}, P t → (∀ x, P (f x)) → P (t.instantiate f)

end Term

namespace Bindings

variable {s s' : Bindings}

@[simp] lemma walk_empty (s : Bindings) : s.walk .empty = .empty := rfl
@[simp] lemma walk_value (s : Bindings) (v : Scalar) : s.walk (.value v) = .value v := rfl
@[simp] lemma walk_pair (s : Bindings) (a b : Term) :
    s.walk (.pair a b) = .pair (s.walk a) (s.walk b) := rfl
@[simp] lemma walk_expr (s : Bindings) (a : Term) (op : Op) (b : Term) :
    s.walk (.expr a op b) = .reduce (s.walk a) op (s.walk b) := rfl

lemma walk_eq_instantiate (s : Bindings) (t : Term) :
    s.walk t = t.instantiate fun x => s.walk (.var x) := rfl

lemma resolve_of_none {x : Var} (hx : s[x]? = none) (n : ℕ) (path : List Var) :
    s.resolve n path x = .var x := by
  cases n <;> simp [resolve, hx]

lemma resolve_of_mem {path : List Var} {x : Var} (hx : x ∈ path) (n : ℕ) :
    s.resolve n path x = .var x := by
  cases n <;> simp [resolve, hx]

lemma walk_var_of_none {x : Var} (hx : s[x]? = none) : s.walk (.var x) = .var x :=
  resolve_of_none hx _ _

/-! ### The guard -/

/-- A path of the walk: distinct bound variables, with steps for all the other ones. -/
structure Trail (s : Bindings) (steps : ℕ) (path : List Var) : Prop where
  nodup : path.Nodup
  bound : ∀ x ∈ path, s[x]? ≠ none
  enough : s.size ≤ steps + path.length

/-- The number of the bindings is enough steps, and so is every larger one. -/
lemma trail_of_le {n : ℕ} (h : s.size ≤ n) : s.Trail n [] :=
  ⟨List.nodup_nil, by simp, by simpa using h⟩

lemma trail_nil (s : Bindings) : s.Trail s.size [] := trail_of_le le_rfl

/-- The steps do not run out before every bound variable is on the path. -/
lemma Trail.mem_of_zero {path : List Var} (h : s.Trail 0 path) {x : Var}
    (hx : s[x]? ≠ none) : x ∈ path := by
  have hsub : path.toFinset ⊆ s.bound := fun y hy =>
    mem_bound.2 (h.bound y (List.mem_toFinset.1 hy))
  have hcard : s.bound.card ≤ path.toFinset.card := by
    rw [card_bound, List.toFinset_card_of_nodup h.nodup]
    simpa using h.enough
  rw [← List.mem_toFinset, Finset.eq_of_subset_of_card_le hsub hcard]
  exact mem_bound.2 hx

/-- A step along a bound variable that is not on the path. -/
lemma Trail.cons {n : ℕ} {path : List Var} (h : s.Trail (n + 1) path) {x : Var} (hx : x ∉ path)
    (hbound : s[x]? ≠ none) : s.Trail n (x :: path) where
  nodup := List.nodup_cons.2 ⟨hx, h.nodup⟩
  bound y hy := by
    rcases List.mem_cons.1 hy with rfl | hy
    · exact hbound
    · exact h.bound y hy
  enough := by
    have := h.enough
    simp only [List.length_cons]
    omega

/-- Following a bound variable that is not on the path. -/
lemma Trail.resolve_of_some {n : ℕ} {path : List Var} (h : s.Trail n path) {x : Var} {t : Term}
    (hx : x ∉ path) (ht : s[x]? = some t) :
    ∃ m, s.Trail m (x :: path) ∧
      s.resolve n path x = t.instantiate (s.resolve m (x :: path)) := by
  cases n with
  | zero => exact absurd (h.mem_of_zero (by simp [ht])) hx
  | succ m => exact ⟨m, h.cons hx (by simp [ht]), by rw [resolve, if_neg hx, ht]⟩

/-- What holds where the walk stops, and of a variable that it follows when it holds of all
variables along the longer path, holds of every variable. -/
lemma Trail.resolve_induct {R : List Var → Var → Term → Prop}
    (closed : ∀ path x, x ∈ path → R path x (.var x))
    (free : ∀ path x, x ∉ path → s[x]? = none → R path x (.var x))
    (follow : ∀ path x t f, x ∉ path → s[x]? = some t → (∀ y, R (x :: path) y (f y)) →
      R path x (t.instantiate f))
    {n : ℕ} {path : List Var} (h : s.Trail n path) (x : Var) :
    R path x (s.resolve n path x) := by
  induction n generalizing path x with
  | zero =>
    by_cases hmem : x ∈ path
    · exact closed path x hmem
    · exact free path x hmem (not_not.1 fun hbound => hmem (h.mem_of_zero hbound))
  | succ n ih =>
    by_cases hmem : x ∈ path
    · rw [resolve_of_mem hmem]
      exact closed path x hmem
    · cases hx : s[x]? with
      | none =>
        rw [resolve_of_none hx]
        exact free path x hmem hx
      | some t =>
        rw [resolve, if_neg hmem, hx]
        exact follow path x t _ hmem hx (ih (h.cons hmem (by simp [hx])))

/-! ### What walking keeps -/

/-- What a variable stands for has a relation to it, when the variable itself has and putting
terms that have it into the bound term gives one that has. -/
lemma walk_induct {R : Var → Term → Prop} (hvar : ∀ x, R x (.var x))
    (hbound : ∀ x t f, s[x]? = some t → (∀ y, R y (f y)) → R x (t.instantiate f)) (x : Var) :
    R x (s.walk (.var x)) :=
  (trail_nil s).resolve_induct (R := fun _ => R) (fun _ x _ => hvar x) (fun _ x _ _ => hvar x)
    (fun _ x t f _ => hbound x t f) x

lemma reduced_walk (s : Bindings) (t : Term) : (s.walk t).Reduced :=
  Term.reduced_instantiate
    (walk_induct (fun _ => trivial) fun _ t _ _ hf => Term.reduced_instantiate hf t) t

lemma All.walk {P : Term → Prop} (hs : s.All P) (hP : Term.Hereditary P) {t : Term} (ht : P t) :
    P (s.walk t) :=
  hP.instantiate ht (walk_induct hP.var fun x _ _ hx hf => hP.instantiate (hs x _ hx) hf)

/-- Walking stays among variables that the bindings do not lead out of. -/
lemma vars_walk_of_closed {V : Var → Prop} {t : Term} (ht : ∀ x ∈ t.vars, V x)
    (hV : ∀ x u, V x → s[x]? = some u → ∀ y ∈ u.vars, V y) : ∀ y ∈ (s.walk t).vars, V y := by
  have hvar : ∀ x, V x → ∀ y ∈ (s.walk (.var x)).vars, V y := by
    refine walk_induct (R := fun x t => V x → ∀ y ∈ t.vars, V y) (fun x hx y hy => ?_)
      fun x u f hu hf hx y hy => ?_
    · rwa [List.mem_singleton.1 hy]
    · obtain ⟨z, hz, hyz⟩ := Term.mem_vars_instantiate.1 hy
      exact hf z (hV x u hx hu z hz) y hyz
  intro y hy
  obtain ⟨x, hx, hyx⟩ := Term.mem_vars_instantiate.1 hy
  exact hvar x (ht x hx) y hyx

/-! ### Without circles -/

/-- Without circles a variable stands for the same term at the end of every path. -/
lemma Acyclic.resolve_eq (hs : s.Acyclic) (x : Var) {n m : ℕ} {path path' : List Var}
    (h : s.Trail n path) (h' : s.Trail m path') (hp : ∀ y ∈ path, s.Reaches y x)
    (hp' : ∀ y ∈ path', s.Reaches y x) : s.resolve n path x = s.resolve m path' x := by
  induction x using hs.wellFounded.induction generalizing n m path path' with
  | _ x ih =>
    cases hx : s[x]? with
    | none => rw [resolve_of_none hx, resolve_of_none hx]
    | some t =>
      obtain ⟨n', hn', he⟩ := h.resolve_of_some (fun hmem => hs x (hp x hmem)) hx
      obtain ⟨m', hm', he'⟩ := h'.resolve_of_some (fun hmem => hs x (hp' x hmem)) hx
      rw [he, he']
      refine Term.instantiate_congr fun y hy => ?_
      have hxy : s.Refers x y := ⟨t, hx, hy⟩
      refine ih y hxy hn' hm' ?_ ?_ <;> intro z hz <;> rcases List.mem_cons.1 hz with rfl | hz
      · exact .single hxy
      · exact (hp z hz).tail hxy
      · exact .single hxy
      · exact (hp' z hz).tail hxy

lemma Acyclic.walk_var_of_some (hs : s.Acyclic) {x : Var} {t : Term} (hx : s[x]? = some t) :
    s.walk (.var x) = s.walk t := by
  obtain ⟨m, hm, he⟩ := (trail_nil s).resolve_of_some (x := x) (by simp) hx
  change s.resolve s.size [] x = t.instantiate (s.resolve s.size [])
  rw [he]
  refine Term.instantiate_congr fun y hy => hs.resolve_eq y hm (trail_nil s) ?_ (by simp)
  intro z hz
  rw [List.mem_singleton.1 hz]
  exact .single ⟨t, hx, hy⟩

/-! ### Normal forms -/

/-- No variable of the term is bound, and no expression in it has a value. -/
structure Normal (s : Bindings) (t : Term) : Prop where
  free : ∀ x ∈ t.vars, s[x]? = none
  reduced : t.Reduced

lemma Normal.walk_eq {t : Term} (h : s.Normal t) : s.walk t = t :=
  Term.instantiate_eq_self h.reduced fun x hx => walk_var_of_none (h.free x hx)

lemma Normal.of_pair {a b : Term} (h : s.Normal (.pair a b)) : s.Normal a ∧ s.Normal b :=
  ⟨⟨fun x hx => h.free x (by simp [Term.vars, hx]), h.reduced.1⟩,
    ⟨fun x hx => h.free x (by simp [Term.vars, hx]), h.reduced.2⟩⟩

lemma Acyclic.free_walk (hs : s.Acyclic) (t : Term) : ∀ y ∈ (s.walk t).vars, s[y]? = none := by
  have hvar : ∀ x, ∀ y ∈ (s.walk (.var x)).vars, s[y]? = none := by
    intro x
    induction x using hs.wellFounded.induction with
    | _ x ih =>
      intro y hy
      cases hx : s[x]? with
      | none =>
        rw [walk_var_of_none hx, Term.vars, List.mem_singleton] at hy
        rw [hy, hx]
      | some t =>
        rw [hs.walk_var_of_some hx, walk_eq_instantiate] at hy
        obtain ⟨z, hz, hyz⟩ := Term.mem_vars_instantiate.1 hy
        exact ih z ⟨t, hx, hz⟩ y hyz
  intro y hy
  obtain ⟨x, -, hyx⟩ := Term.mem_vars_instantiate.1 hy
  exact hvar x y hyx

lemma Acyclic.normal_walk (hs : s.Acyclic) (t : Term) : s.Normal (s.walk t) :=
  ⟨hs.free_walk t, reduced_walk s t⟩

lemma walk_walk_of_vars {t : Term}
    (h : ∀ x ∈ t.vars, s'.walk (s.walk (.var x)) = s'.walk (.var x)) :
    s'.walk (s.walk t) = s'.walk t :=
  calc s'.walk (s.walk t) = t.instantiate fun x => s'.walk (s.walk (.var x)) :=
        Term.instantiate_instantiate _ _ t
    _ = s'.walk t := Term.instantiate_congr h

/-- Walking before there were more bindings does not matter. -/
lemma Acyclic.walk_walk (hs : s.Acyclic) (hs' : s'.Acyclic) (h : s.Within s') (t : Term) :
    s'.walk (s.walk t) = s'.walk t := by
  have hvar : ∀ x, s'.walk (s.walk (.var x)) = s'.walk (.var x) := by
    intro x
    induction x using hs.wellFounded.induction with
    | _ x ih =>
      cases hx : s[x]? with
      | none => rw [walk_var_of_none hx]
      | some u =>
        rw [hs.walk_var_of_some hx, hs'.walk_var_of_some (h x u hx)]
        exact walk_walk_of_vars fun y hy => ih y ⟨u, hx, hy⟩
  exact walk_walk_of_vars fun x _ => hvar x

end Bindings

end Relational
