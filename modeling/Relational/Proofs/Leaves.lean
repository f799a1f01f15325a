import Relational.Proofs.Ways

/-!
Matching two terms of which one is no pair, by their shapes. A variable is bound to the other
term, on whichever side it stands; an expression is solved for its unknown operand, which gives
nothing against another expression.
-/

namespace Relational

namespace Term

/-- What matching two terms adds of which one is no pair. -/
def leaves (l r : Term) : List Bindings := (l.matchLeaf r).search.toList

/-- What solving an expression for its unknown operand adds. -/
def solved (e result : Term) : List Bindings :=
  match e.unknown? with
  | some (x, values?) => ((values? result).getD []).map (.single x)
  | none => []

lemma toList_bindVar (x : Var) (t : Term) :
    (Matching.bindVar x t).search.toList = if x ∈ t.vars then [] else [.single x t] := by
  unfold Matching.bindVar
  simp only [occurs_iff]
  split_ifs <;> rfl

lemma toList_solveFor (e result : Term) (x : Var) (values? : Option (List Term)) :
    (e.solveFor result x values?).search.toList = (values?.getD []).map (.single x) := by
  cases values? with
  | none => rfl
  | some values => exact (Search.toList_notes ..).trans (Search.toList_ofList _)

lemma leaves_value (v w : Scalar) :
    (value v).leaves (value w) = if v.equal w then [∅] else [] := by
  change (if v.equal w then Matching.agree else .refuse).search.toList = _
  split_ifs <;> rfl

lemma leaves_var (x : Var) (t : Term) :
    (var x).leaves t =
      if t = var x then [∅] else if x ∈ t.vars then [] else [.single x t] := by
  rw [← toList_bindVar]
  change (if t = var x then Matching.agree else .bindVar x t).search.toList = _
  split_ifs <;> rfl

lemma leaves_var_right {t : Term} (ht : t.isVar = false) (x : Var) :
    t.leaves (var x) = if x ∈ t.vars then [] else [.single x t] := by
  rw [← toList_bindVar]
  cases t with
  | var y => simp [isVar, var?] at ht
  | empty | value | pair | expr => rfl

/-- No operand makes an expression equal to another one. -/
lemma solved_expr (e a : Term) (op : Op) (b : Term) : e.solved (expr a op b) = [] := by
  unfold solved
  split
  · next he =>
    rcases unknown?_eq_some he with ⟨op', known, -, rfl⟩ | ⟨op', known, -, rfl⟩ <;>
      cases known <;> rfl
  · rfl

lemma solved_of_none {e : Term} (h : e.unknown? = none) (result : Term) : e.solved result = [] := by
  rw [solved, h]

/-- With an expression on one side, the left term is solved for its unknown, or else the right. -/
lemma leaves_of_expr {l r : Term} (hl : l.isVar = false) (hr : r.isVar = false)
    (h : ∃ a op b, l = expr a op b ∨ r = expr a op b) :
    l.leaves r = if l.unknown? = none then r.solved l else l.solved r := by
  have hstep : ∀ left? right?, l.unknown? = left? → r.unknown? = right? →
      l.matchLeaf r = left?.elim (right?.elim .refuse fun p => r.solveFor l p.1 (p.2 l))
        fun p => l.solveFor r p.1 (p.2 r) := by
    intro left? right? hleft hright
    obtain ⟨a, op, b, rfl | rfl⟩ := h
    · cases r with
      | var => simp [isVar, var?] at hr
      | empty | value | pair | expr =>
        simp only [matchLeaf, Bindings.matchStep, hleft, hright]
        cases left? <;> cases right? <;> rfl
    · cases l with
      | var => simp [isVar, var?] at hl
      | empty | value | pair | expr =>
        simp only [matchLeaf, Bindings.matchStep, hleft, hright]
        cases left? <;> cases right? <;> rfl
  rw [leaves, hstep _ _ rfl rfl, solved, solved]
  cases hleft : l.unknown? with
  | some p => exact toList_solveFor ..
  | none =>
    cases hright : r.unknown? with
    | some p => exact toList_solveFor ..
    | none => rfl

lemma leaves_expr {r : Term} (hr : r.isVar = false) (a : Term) (op : Op) (b : Term) :
    (expr a op b).leaves r = (expr a op b).solved r := by
  rw [leaves_of_expr rfl hr ⟨a, op, b, .inl rfl⟩, solved_expr]
  split_ifs with h
  · exact (solved_of_none h r).symm
  · rfl

lemma leaves_expr_right {l : Term} (hl : l.isVar = false) (a : Term) (op : Op) (b : Term) :
    l.leaves (expr a op b) = (expr a op b).solved l := by
  rw [leaves_of_expr hl rfl ⟨a, op, b, .inr rfl⟩, solved_expr]
  split_ifs with h
  · rfl
  · -- what is left to the left term is solved for only in an expression
    cases l with
    | expr c p d => exact (solved_expr ..).symm
    | empty | value | pair | var => exact absurd rfl h

end Term

lemma Ways.of_leaf {s : Bindings} {l r : Term} {ds : List Bindings} (h : Ways s l r ds)
    (hp : ¬ Term.Pairs l r) : ds = l.leaves r := by
  cases h with
  | leaf => rfl
  | pair => exact absurd trivial hp

end Relational
