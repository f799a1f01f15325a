import Relational.Proofs.NormalForm

/-!
Renaming variables. Two bindings mirror each other when every term walks to the same under both,
but for the names of the variables. They still do after a variable was bound under the one and
its mirror image under the other, and also when of two variables the one was bound to the other
and their images the other way round: the two then change their roles.
-/

namespace Relational

open Function (Injective)

namespace Term

/-- The term with every variable renamed. -/
def rename (ρ : Var → Var) : Term → Term
  | .empty => .empty
  | .value v => .value v
  | .var x => .var (ρ x)
  | .pair a b => .pair (a.rename ρ) (b.rename ρ)
  | .expr a op b => .expr (a.rename ρ) op (b.rename ρ)

variable {ρ : Var → Var}

lemma rename_id (t : Term) : t.rename id = t := by
  induction t with
  | empty | value v | var x => rfl
  | pair a b iha ihb | expr a op b iha ihb => rw [rename, iha, ihb]

lemma isVar_rename (t : Term) : (t.rename ρ).isVar = t.isVar := by
  cases t <;> rfl

lemma mem_vars_rename {y : Var} {t : Term} :
    y ∈ (t.rename ρ).vars ↔ ∃ x ∈ t.vars, ρ x = y := by
  induction t with
  | empty | value v | var x => simp [rename, vars, eq_comm]
  | pair a b iha ihb | expr a op b iha ihb =>
    simp [rename, vars, iha, ihb, or_and_right, exists_or]

lemma mem_vars_rename_iff (hρ : Injective ρ) {x : Var} {t : Term} :
    ρ x ∈ (t.rename ρ).vars ↔ x ∈ t.vars := by
  simp [mem_vars_rename, hρ.eq_iff]

lemma rename_eq_var_iff (hρ : Injective ρ) {x : Var} {t : Term} :
    t.rename ρ = .var (ρ x) ↔ t = .var x := by
  cases t <;> simp [rename, hρ.eq_iff]

lemma rename_reduce (a : Term) (op : Op) (b : Term) :
    (reduce a op b).rename ρ = reduce (a.rename ρ) op (b.rename ρ) := by
  cases a with
  | value m =>
    cases b with
    | value n => cases h : m.apply op n <;> simp [reduce, evaluate, rename, h]
    | empty | pair | var | expr => rfl
  | empty | pair | var | expr => rfl

/-- What is computed does not depend on the names. -/
lemma rename_instantiate (f : Var → Term) (t : Term) :
    (t.instantiate f).rename ρ = t.instantiate fun x => (f x).rename ρ := by
  induction t with
  | empty | value v | var x => rfl
  | pair a b iha ihb => simp only [instantiate, rename, iha, ihb]
  | expr a op b iha ihb => simp only [instantiate, rename_reduce, iha, ihb]

lemma instantiate_rename (f : Var → Term) (t : Term) :
    (t.rename ρ).instantiate f = t.instantiate fun x => f (ρ x) := by
  induction t with
  | empty | value v | var x => rfl
  | pair a b iha ihb | expr a op b iha ihb => simp only [rename, instantiate, iha, ihb]

end Term

namespace Bindings

variable {s s' : Bindings} {ρ : Var → Var}

lemma normal_var {x : Var} (hx : s[x]? = none) : s.Normal (.var x) where
  free y hy := by rw [List.mem_singleton.1 hy, hx]
  reduced := trivial

lemma normal_value (s : Bindings) (v : Scalar) : s.Normal (.value v) :=
  ⟨by simp [Term.vars], trivial⟩

/-- What a binding of an unbound variable to a normal form does to walked terms. -/
lemma Acyclic.walk_extend_single (hs : s.Acyclic) {x : Var} {t : Term} (hx : s[x]? = none)
    (ht : s.Normal t) (hxt : x ∉ t.vars) (u : Term) :
    (s.extend (single x t)).walk u =
      (s.walk u).instantiate fun y => if y = x then t else .var y := by
  have hs' : (s.extend (single x t)).Acyclic := hs.extend_single hx ht.free hxt
  have hbound : (s.extend (single x t))[x]? = some t := by
    rw [getElem?_extend_single, if_pos rfl]
  have hfree : ∀ y, y ≠ x → s[y]? = none → (s.extend (single x t))[y]? = none := by
    intro y hyx hy
    rw [getElem?_extend_single, if_neg (Ne.symm hyx), hy]
  have hnormal : (s.extend (single x t)).Normal t := by
    refine ⟨fun y hy => hfree y ?_ (ht.free y hy), ht.reduced⟩
    rintro rfl
    exact hxt hy
  rw [← hs.walk_walk hs' (fresh_single hx t).within, walk_eq_instantiate]
  refine Term.instantiate_congr fun y hy => ?_
  split_ifs with hyx
  · rw [hyx, hs'.walk_var_of_some hbound, hnormal.walk_eq]
  · exact walk_var_of_none (hfree y hyx (hs.free_walk u y hy))

/-- Every term walks to the same under both, but for the names of the variables. -/
def Mirrors (ρ : Var → Var) (s s' : Bindings) : Prop := ∀ t, s'.walk t = (s.walk t).rename ρ

lemma mirrors_refl (s : Bindings) : Mirrors id s s := fun _ => (Term.rename_id _).symm

namespace Mirrors

lemma normal (h : Mirrors ρ s s') (hs' : s'.Acyclic) {t : Term} (ht : s.Normal t) :
    s'.Normal (t.rename ρ) := by
  have hwalk : s'.walk t = t.rename ρ := by rw [h t, ht.walk_eq]
  rw [← hwalk]
  exact hs'.normal_walk t

lemma getElem?_eq_none (h : Mirrors ρ s s') (hs' : s'.Acyclic) {x : Var} (hx : s[x]? = none) :
    s'[ρ x]? = none :=
  (h.normal hs' (normal_var hx)).free (ρ x) (.head _)

/-- A variable is bound under the one, and its image to the image under the other. -/
lemma single (h : Mirrors ρ s s') (hs : s.Acyclic) (hs' : s'.Acyclic) (hρ : Injective ρ)
    {x : Var} {t : Term} (hx : s[x]? = none) (ht : s.Normal t) (hxt : x ∉ t.vars) :
    Mirrors ρ (s.extend (.single x t)) (s'.extend (.single (ρ x) (t.rename ρ))) := by
  intro u
  rw [hs'.walk_extend_single (h.getElem?_eq_none hs' hx) (h.normal hs' ht)
    (mt (Term.mem_vars_rename_iff hρ).1 hxt), hs.walk_extend_single hx ht hxt, h u,
    Term.instantiate_rename, Term.rename_instantiate]
  refine Term.instantiate_congr fun y _ => ?_
  by_cases hyx : y = x <;> simp [hyx, hρ.eq_iff, Term.rename]

/-- One of two variables is bound to the other one, and their images the other way round. -/
lemma swap (h : Mirrors ρ s s') (hs : s.Acyclic) (hs' : s'.Acyclic) (hρ : Injective ρ)
    {x y : Var} (hx : s[x]? = none) (hy : s[y]? = none) (hxy : x ≠ y) :
    Mirrors (ρ ∘ Equiv.swap x y) (s.extend (.single x (.var y)))
      (s'.extend (.single (ρ y) (.var (ρ x)))) := by
  have hρx : s'.Normal (.var (ρ x)) := h.normal hs' (normal_var hx)
  intro u
  rw [hs'.walk_extend_single (h.getElem?_eq_none hs' hy) hρx
    (by simpa [Term.vars] using hρ.ne hxy.symm), hs.walk_extend_single hx (normal_var hy)
    (by simpa [Term.vars] using hxy), h u, Term.instantiate_rename, Term.rename_instantiate]
  refine Term.instantiate_congr fun z _ => ?_
  -- `x` and `y` go to the variable that is left of the two, which the renaming then exchanges
  by_cases hzx : z = x
  · simp [hzx, hρ.eq_iff, Term.rename]
  · by_cases hzy : z = y
    · simp [hzy, hxy.symm, Term.rename]
    · simp [hzx, hzy, hρ.eq_iff, Term.rename, Equiv.swap_apply_of_ne_of_ne hzx hzy]

end Mirrors

end Bindings

end Relational
