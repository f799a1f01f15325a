import Mathlib.Tactic.Lemma
import Relational.Term

/-!
Terms without floats. Among them equal terms are the same term.
-/

namespace Relational.Term

/-- No scalar in the term is a float. -/
def floatFree : Term → Bool
  | .empty | .var _ => true
  | .value (.float _) => false
  | .value _ => true
  | .pair a b | .expr a _ b => a.floatFree && b.floatFree

lemma floatFree_value {v : Scalar} : (value v).floatFree ↔ v.kind ≠ .float := by
  cases v <;> simp [floatFree, Scalar.kind]

lemma floatFree_pair {a b : Term} : (pair a b).floatFree ↔ a.floatFree ∧ b.floatFree := by
  simp [floatFree]

lemma floatFree_expr {a b : Term} {op : Op} :
    (expr a op b).floatFree ↔ a.floatFree ∧ b.floatFree := by
  simp [floatFree]

lemma equal_iff_eq {a b : Term} (ha : a.floatFree) (hb : b.floatFree) : a.equal b ↔ a = b := by
  induction a generalizing b with
  | empty | var x => cases b <;> simp [equal]
  | value v =>
    cases b with
    | value w => cases v <;> cases w <;> simp_all [floatFree, equal, Scalar.equal]
    | empty | pair | var | expr => simp [equal]
  | pair a₁ a₂ ih₁ ih₂ =>
    cases b with
    | pair b₁ b₂ =>
      rw [floatFree_pair] at ha hb
      simp [equal, ih₁ ha.1 hb.1, ih₂ ha.2 hb.2]
    | empty | value | var | expr => simp [equal]
  | expr a₁ op a₂ ih₁ ih₂ =>
    cases b with
    | expr b₁ op' b₂ =>
      rw [floatFree_expr] at ha hb
      simp [equal, ih₁ ha.1 hb.1, ih₂ ha.2 hb.2, and_assoc]
    | empty | value | pair | var => simp [equal]

end Relational.Term
