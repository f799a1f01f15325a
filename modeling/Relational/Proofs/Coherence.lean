import Relational.Proofs.Constraining
import Relational.Proofs.Guard

/-!
The walk as a plain recursion. Under bindings without circles the guarded walk does what the rules
for terms say that know no path and no chain of pairs: a bound variable is what its term comes to,
fields and operands come to their own, and what then has a value is computed. The walked term is a
normal form, and to walk it under further bindings is to walk the term itself under them.
-/

namespace Relational

namespace Bindings

/-- What a term comes to by recursion on it and on what its variables are bound to. -/
inductive Resolves (s : Bindings) : Term → Term → Prop where
  | empty : Resolves s .empty .empty
  | value (v : Scalar) : Resolves s (.value v) (.value v)
  | free {x : Var} (hx : s[x]? = none) : Resolves s (.var x) (.var x)
  | bound {x : Var} {t u : Term} (hx : s[x]? = some t) (ht : Resolves s t u) :
      Resolves s (.var x) u
  | pair {a b u v : Term} (ha : Resolves s a u) (hb : Resolves s b v) :
      Resolves s (.pair a b) (.pair u v)
  | computed {a b u v w : Term} {op : Op} (ha : Resolves s a u) (hb : Resolves s b v)
      (hw : evaluate u op v = some w) : Resolves s (.expr a op b) w
  | residual {a b u v : Term} {op : Op} (ha : Resolves s a u) (hb : Resolves s b v)
      (hw : evaluate u op v = none) : Resolves s (.expr a op b) (.expr u op v)

variable {s : Bindings} {t u : Term}

lemma Resolves.eq_walk (hs : s.Acyclic) (h : s.Resolves t u) : u = s.walk t := by
  induction h with
  | empty | value => rfl
  | free hx => exact (walk_var_of_none hx).symm
  | bound hx _ ih => rw [ih, hs.walk_var_of_some hx]
  | pair _ _ iha ihb => rw [iha, ihb, walk_pair]
  | computed _ _ hw iha ihb => rw [walk_expr, ← iha, ← ihb, Term.reduce, hw, Option.getD_some]
  | residual _ _ hw iha ihb => rw [walk_expr, ← iha, ← ihb, Term.reduce, hw, Option.getD_none]

lemma resolves_instantiate {f : Var → Term} (h : ∀ x ∈ t.vars, s.Resolves (.var x) (f x)) :
    s.Resolves t (t.instantiate f) := by
  induction t with
  | empty => exact .empty
  | value v => exact .value v
  | var x => exact h x (by simp [Term.vars])
  | pair a b iha ihb =>
    exact .pair (iha fun x hx => h x (by simp [Term.vars, hx]))
      (ihb fun x hx => h x (by simp [Term.vars, hx]))
  | expr a op b iha ihb =>
    have ha := iha fun x hx => h x (by simp [Term.vars, hx])
    have hb := ihb fun x hx => h x (by simp [Term.vars, hx])
    cases hw : evaluate (a.instantiate f) op (b.instantiate f) with
    | none =>
      rw [Term.instantiate, Term.reduce, hw]
      exact .residual ha hb hw
    | some w =>
      rw [Term.instantiate, Term.reduce, hw]
      exact .computed ha hb hw

/-- Without circles the recursion comes to an end. -/
lemma Acyclic.resolves_walk (hs : s.Acyclic) (t : Term) : s.Resolves t (s.walk t) := by
  have hvar : ∀ x, s.Resolves (.var x) (s.walk (.var x)) := by
    intro x
    induction x using hs.wellFounded.induction with
    | _ x ih =>
      cases hx : s[x]? with
      | none =>
        rw [walk_var_of_none hx]
        exact .free hx
      | some t =>
        rw [hs.walk_var_of_some hx]
        exact .bound hx (resolves_instantiate fun y hy => ih y ⟨t, hx, hy⟩)
  exact resolves_instantiate fun x _ => hvar x

lemma Acyclic.resolves_iff (hs : s.Acyclic) : s.Resolves t u ↔ u = s.walk t := by
  refine ⟨fun h => h.eq_walk hs, ?_⟩
  rintro rfl
  exact hs.resolves_walk t

end Bindings

namespace State

/-- **Coherence** of the walk: on a state without circles the walked term is normal, it is all
that the plain recursion comes to, with or without the guard, and walking it on a state with
further bindings is the same as walking the term there; with none, it stays as it is. -/
theorem walk_coherent (s : State) (hs : s.bindings.Acyclic) (t : Term) :
    ((∀ x ∈ (s.walk t).vars, s.lookup x = none) ∧ (s.walk t).Reduced) ∧
    (∀ u, s.bindings.Resolves t u ↔ u = s.walk t) ∧
    (∀ u, s.bindings.Resolves t u ↔ s.bindings.Runs [] (.term t) u []) ∧
    (∀ d : Bindings, s.bindings.Fresh d → (s.extend d).bindings.Acyclic →
      (s.extend d).walk (s.walk t) = (s.extend d).walk t) ∧
    s.walk (s.walk t) = s.walk t := by
  have hnormal := hs.normal_walk t
  refine ⟨⟨hnormal.free, hnormal.reduced⟩, fun u => hs.resolves_iff, fun u => ?_,
    fun d hd hs' => ?_, hnormal.walk_eq⟩
  · rw [hs.resolves_iff, (Bindings.trail_nil s.bindings).runs_iff, and_iff_left rfl]
    rfl
  · exact hs.walk_walk hs' hd.within t

/-- The state with `w` bound, too. -/
def settled : State := linked.extend (.single ⟨"w"⟩ (.int 2))

/-- The sum with `z` has no value before `w`, which `z` leads to, is bound. -/
theorem walk_coherent_linked :
    linked.bindings.Acyclic ∧ linked.bindings.Fresh (.single ⟨"w"⟩ (.int 2)) ∧
    settled.bindings.Acyclic ∧
    linked.walk (.pair (.var ⟨"x"⟩) (.expr (.var ⟨"z"⟩) .plus (.int 1))) =
      .pair (.pair (.var ⟨"y"⟩) (.var ⟨"w"⟩)) (.expr (.var ⟨"w"⟩) .plus (.int 1)) ∧
    settled.walk (.pair (.var ⟨"x"⟩) (.expr (.var ⟨"z"⟩) .plus (.int 1))) =
      .pair (.pair (.var ⟨"y"⟩) (.int 2)) (.int 3) ∧
    settled.walk (linked.walk (.pair (.var ⟨"x"⟩) (.expr (.var ⟨"z"⟩) .plus (.int 1)))) =
      settled.walk (.pair (.var ⟨"x"⟩) (.expr (.var ⟨"z"⟩) .plus (.int 1))) := by
  have hw : linked.bindings[(⟨"w"⟩ : Var)]? = none := by decide +kernel
  have hfresh : linked.bindings.Fresh (.single ⟨"w"⟩ (.int 2)) := Bindings.fresh_single hw _
  have hsettled : settled.bindings.Acyclic :=
    linked_acyclic.extend_single hw (by simp [Term.vars, Term.int]) (by simp [Term.vars, Term.int])
  obtain ⟨-, -, -, hwalk, -⟩ := walk_coherent linked linked_acyclic
    (.pair (.var ⟨"x"⟩) (.expr (.var ⟨"z"⟩) .plus (.int 1)))
  exact ⟨linked_acyclic, hfresh, hsettled, by decide +kernel, by decide +kernel,
    hwalk _ hfresh hsettled⟩

end State

end Relational
