import Relational.Proofs.Floats
import Relational.Term

/-!
Equality of terms. A term is equal to itself unless a float in it is no number, and the sides may
change places. But what is equal to one term need not be equal to each other: an integer and a
float are compared as floats and two integers are not, so that different integers are equal to the
float that is the nearest one to both. Nothing else goes wrong, and between integers whose absolute
value is at most `2 ^ 53` nothing does.
-/

namespace Relational

/-! ### Scalars -/

namespace Scalar

variable {u v w : Scalar}

/-- A float scalar is a number, which may be infinite. -/
def nanFree : Scalar → Bool
  | float x => !x.isNaN
  | _ => true

lemma equal_self_iff : v.equal v ↔ v.nanFree := by
  cases v with
  | bool | int | text => simp [equal, nanFree]
  | float x =>
    rw [equal, nanFree, Bool.not_eq_true', ← Bool.not_eq_true]
    exact Unpacked.beq_self

lemma equal_comm (v w : Scalar) : v.equal w = w.equal v := by
  have hfloat (x y : Float) : (x == y) = (y == x) :=
    Bool.eq_iff_iff.2 ⟨Unpacked.beq_symm, Unpacked.beq_symm⟩
  cases v <;> cases w <;> simp only [equal, hfloat, Bool.beq_comm]

/-- Different integers that are one float. -/
def Collides (u w : Scalar) : Prop :=
  ∃ m n : Int64, u = int m ∧ w = int n ∧ m ≠ n ∧ Float.ofInt m.toInt == Float.ofInt n.toInt

lemma Collides.not_equal (h : Collides u w) : ¬ u.equal w := by
  obtain ⟨m, n, rfl, rfl, hne, -⟩ := h
  simpa [equal] using hne

/-- Two scalars that are equal to one are equal, unless they are integers and it is a float. -/
lemma equal_trans (huv : u.equal v) (hvw : v.equal w) : u.equal w ∨ Collides u w := by
  cases v with
  | bool b =>
    cases u <;> cases w <;> simp_all [equal]
  | text s =>
    cases u <;> cases w <;> simp_all [equal]
  | int n =>
    cases u with
    | bool | text => cases huv
    | int m =>
      obtain rfl := beq_iff_eq.1 huv
      exact .inl hvw
    | float x =>
      cases w with
      | bool | text => cases hvw
      | int k =>
        obtain rfl := beq_iff_eq.1 hvw
        exact .inl huv
      | float z => exact .inl (Unpacked.beq_trans huv hvw)
  | float y =>
    cases u with
    | bool | text => cases huv
    | float x =>
      cases w with
      | bool | text => cases hvw
      | int | float => exact .inl (Unpacked.beq_trans huv hvw)
    | int m =>
      cases w with
      | bool | text => cases hvw
      | float => exact .inl (Unpacked.beq_trans huv hvw)
      | int k =>
        by_cases hmk : m = k
        · exact .inl (beq_iff_eq.2 hmk)
        · exact .inr ⟨m, k, rfl, rfl, hmk, Unpacked.beq_trans huv hvw⟩

/-- An integer scalar is at most `2 ^ 53` in absolute value. -/
def small : Scalar → Bool
  | int n => n.toInt.natAbs ≤ 2 ^ 53
  | _ => true

lemma not_collides_of_small (hu : u.small) (hw : w.small) : ¬ Collides u w := by
  rintro ⟨m, n, rfl, rfl, hne, hfloat⟩
  have hm : m.toInt.natAbs ≤ 2 ^ 53 := of_decide_eq_true hu
  have hn : n.toInt.natAbs ≤ 2 ^ 53 := of_decide_eq_true hw
  exact hne (Int64.toInt_inj.1 (Unpacked.ofInt_beq_ofInt hm hn hfloat))

end Scalar

/-! ### Terms -/

namespace Term

variable {a b c d : Term} {op : Op} {p : Scalar → Bool}

/-- All scalars in the term satisfy the predicate. -/
def every (p : Scalar → Bool) : Term → Bool
  | .empty | .var _ => true
  | .value v => p v
  | .pair a b | .expr a _ b => a.every p && b.every p

lemma every_pair : (pair a b).every p ↔ a.every p ∧ b.every p := by
  simp [every]

lemma every_expr : (expr a op b).every p ↔ a.every p ∧ b.every p := by
  simp [every]

/-- Every float in the term is a number, which may be infinite. -/
def nanFree (t : Term) : Bool := t.every Scalar.nanFree

/-- Every integer in the term is at most `2 ^ 53` in absolute value. -/
def small (t : Term) : Bool := t.every Scalar.small

/-- The terms have one shape, with equal scalars at the same places. -/
inductive Alike : Term → Term → Prop where
  | empty : Alike .empty .empty
  | value {v w : Scalar} (h : v.equal w) : Alike (.value v) (.value w)
  | var {x : Var} : Alike (.var x) (.var x)
  | pair {a b c d : Term} (hac : Alike a c) (hbd : Alike b d) : Alike (.pair a b) (.pair c d)
  | expr {a b c d : Term} {op : Op} (hac : Alike a c) (hbd : Alike b d) :
      Alike (.expr a op b) (.expr c op d)

lemma equal_iff_alike : a.equal b ↔ a.Alike b := by
  constructor
  · intro h
    fun_induction equal a b with
    | case1 => exact .empty
    | case2 v w => exact .value h
    | case3 x y => exact of_decide_eq_true h ▸ .var
    | case4 a b c d iha ihb =>
      obtain ⟨hac, hbd⟩ := Bool.and_eq_true_iff.1 h
      exact .pair (iha hac) (ihb hbd)
    | case5 a op b c op' d iha ihb =>
      obtain ⟨hleft, hbd⟩ := Bool.and_eq_true_iff.1 h
      obtain ⟨hac, hop⟩ := Bool.and_eq_true_iff.1 hleft
      exact of_decide_eq_true hop ▸ .expr (iha hac) (ihb hbd)
    | case6 => cases h
  · intro h
    induction h with
    | empty => rfl
    | value h => exact h
    | var => exact decide_eq_true rfl
    | pair _ _ ihac ihbd => simp [equal, ihac, ihbd]
    | expr _ _ ihac ihbd => simp [equal, ihac, ihbd]

lemma alike_self_iff : a.Alike a ↔ a.nanFree := by
  induction a with
  | empty => exact iff_of_true .empty rfl
  | value v =>
    exact ⟨fun | .value h => Scalar.equal_self_iff.1 h, fun h => .value (Scalar.equal_self_iff.2 h)⟩
  | var x => exact iff_of_true .var rfl
  | pair a b iha ihb =>
    rw [nanFree, every_pair]
    exact ⟨fun | .pair ha hb => ⟨iha.1 ha, ihb.1 hb⟩, fun h => .pair (iha.2 h.1) (ihb.2 h.2)⟩
  | expr a op b iha ihb =>
    rw [nanFree, every_expr]
    exact ⟨fun | .expr ha hb => ⟨iha.1 ha, ihb.1 hb⟩, fun h => .expr (iha.2 h.1) (ihb.2 h.2)⟩

lemma Alike.symm (h : a.Alike b) : b.Alike a := by
  induction h with
  | empty => exact .empty
  | value h => exact .value ((Scalar.equal_comm _ _).trans h)
  | var => exact .var
  | pair _ _ ihac ihbd => exact .pair ihac ihbd
  | expr _ _ ihac ihbd => exact .expr ihac ihbd

/-- At one place the terms have different integers that are one float. -/
inductive Collides : Term → Term → Prop where
  | value {v w : Scalar} (h : v.Collides w) : Collides (.value v) (.value w)
  | first {a b c d : Term} (h : Collides a c) : Collides (.pair a b) (.pair c d)
  | second {a b c d : Term} (h : Collides b d) : Collides (.pair a b) (.pair c d)
  | left {a b c d : Term} {op : Op} (h : Collides a c) : Collides (.expr a op b) (.expr c op d)
  | right {a b c d : Term} {op : Op} (h : Collides b d) : Collides (.expr a op b) (.expr c op d)

lemma Collides.not_alike (h : a.Collides c) : ¬ a.Alike c := by
  induction h with
  | value h => exact fun | .value heq => h.not_equal heq
  | first _ ih => exact fun | .pair hac _ => ih hac
  | second _ ih => exact fun | .pair _ hbd => ih hbd
  | left _ ih => exact fun | .expr hac _ => ih hac
  | right _ ih => exact fun | .expr _ hbd => ih hbd

lemma Collides.not_small (h : a.Collides c) (ha : a.small) : ¬ c.small := by
  intro hc
  induction h with
  | value h => exact Scalar.not_collides_of_small ha hc h
  | first _ ih => exact ih (every_pair.1 ha).1 (every_pair.1 hc).1
  | second _ ih => exact ih (every_pair.1 ha).2 (every_pair.1 hc).2
  | left _ ih => exact ih (every_expr.1 ha).1 (every_expr.1 hc).1
  | right _ ih => exact ih (every_expr.1 ha).2 (every_expr.1 hc).2

/-- By induction on why the first term is like the second one: the third has its shape as well. -/
lemma Alike.trans (hab : a.Alike b) (hbc : b.Alike c) : a.Alike c ∨ a.Collides c := by
  induction hab generalizing c with
  | empty | var => exact .inl hbc
  | value huv =>
    cases hbc with
    | value hvw => exact (Scalar.equal_trans huv hvw).imp .value .value
  | pair _ _ ih₁ ih₂ =>
    cases hbc with
    | pair hbc₁ hbc₂ =>
      rcases ih₁ hbc₁ with h₁ | h₁
      · exact (ih₂ hbc₂).imp (.pair h₁) .second
      · exact .inr (.first h₁)
  | expr _ _ ih₁ ih₂ =>
    cases hbc with
    | expr hbc₁ hbc₂ =>
      rcases ih₁ hbc₁ with h₁ | h₁
      · exact (ih₂ hbc₂).imp (.expr h₁) .right
      · exact .inr (.left h₁)

/-- **The laws of equality.** It is reflexive exactly on the terms without a float that is no
number, and symmetric. What is equal to one term is equal to each other unless at one place it has
different integers that are one float, so that among terms with small integers equality is
transitive. -/
theorem equal_laws (a b c : Term) :
    (a.equal a ↔ a.nanFree) ∧
    (a.equal b ↔ b.equal a) ∧
    (a.equal b → b.equal c → (a.equal c ↔ ¬ a.Collides c)) ∧
    (a.equal b → b.equal c → a.small → c.small → a.equal c) := by
  simp only [equal_iff_alike]
  refine ⟨alike_self_iff, ⟨.symm, .symm⟩, fun hab hbc => ?_, fun hab hbc ha hc => ?_⟩
  · exact ⟨fun hac hcollides => hcollides.not_alike hac, (hab.trans hbc).resolve_right⟩
  · exact (hab.trans hbc).resolve_right fun hcollides => hcollides.not_small ha hc

/-- Pairs in which small integers and floats stand for each other, and a pair in which the nearest
float stands for two integers. -/
theorem equal_laws_mixed :
    (pair (float 2) (int 3)).equal (pair (float 2) (int 3)) ∧
    (pair (float 2) (int 3)).equal (pair (float 2) (float 3)) ∧
    (pair empty (int 9007199254740992)).equal (pair empty (float 9007199254740992)) ∧
    (pair empty (float 9007199254740992)).equal (pair empty (int 9007199254740993)) ∧
    ¬ (pair empty (int 9007199254740992)).equal (pair empty (int 9007199254740993)) := by
  have hsmall := equal_laws (pair (float 2) (int 3)) (pair (int 2) (float 3))
    (pair (float 2) (float 3))
  have hlarge := equal_laws (pair empty (int 9007199254740992))
    (pair empty (float 9007199254740992)) (pair empty (int 9007199254740993))
  have hab : (pair (float 2) (int 3)).equal (pair (int 2) (float 3)) := by decide +kernel
  have hbc : (pair (int 2) (float 3)).equal (pair (float 2) (float 3)) := by decide +kernel
  have hbelow : (pair empty (int 9007199254740992)).equal
      (pair empty (float 9007199254740992)) := by decide +kernel
  have habove : (pair empty (float 9007199254740992)).equal
      (pair empty (int 9007199254740993)) := by decide +kernel
  have hcollides : (pair empty (int 9007199254740992)).Collides
      (pair empty (int 9007199254740993)) :=
    .second (.value ⟨9007199254740992, 9007199254740993, rfl, rfl, by decide, by decide +kernel⟩)
  refine ⟨hsmall.1.2 ?_, hsmall.2.2.2 hab hbc ?_ ?_, hbelow, habove, fun h => ?_⟩
  · decide +kernel
  · decide +kernel
  · decide +kernel
  · exact (hlarge.2.2.1 hbelow habove).1 h hcollides

/-- Two integers next to each other, both equal to one float and not to each other. -/
theorem equal_not_transitive :
    (int 9007199254740992).nanFree ∧ (float 9007199254740992).nanFree ∧
    (int 9007199254740993).nanFree ∧
    (int 9007199254740992).equal (float 9007199254740992) ∧
    (float 9007199254740992).equal (int 9007199254740993) ∧
    ¬ (int 9007199254740992).equal (int 9007199254740993) := by
  decide +kernel

end Term

end Relational
