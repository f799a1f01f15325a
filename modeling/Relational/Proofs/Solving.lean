import Mathlib.Tactic.Lemma
import Mathlib.Tactic.SplitIfs
import Relational.Arith

/-!
Solving for an operand. Solutions are scalars, found only where the other operand and the result
are scalars. Between truth values and integers, addition, subtraction, conjunction and
disjunction are solved exactly: each solution gives the result. So it is with texts, but for
those that a difference is solved for.
-/

namespace Relational

namespace Word

lemma ofInt?_eq_some {n : Int} {m : Int64} : ofInt? n = some m ↔ m.toInt = n := by
  unfold ofInt?
  constructor
  · intro h
    split at h
    · next hn =>
      rw [Int64.toInt_minValue, Int64.toInt_maxValue] at hn
      rw [← Option.some.inj h]
      exact Int64.toInt_ofInt_of_le (by omega) (by omega)
    · simp at h
  · rintro rfl
    rw [if_pos ⟨m.minValue_le_toInt, m.toInt_le⟩, Int64.ofInt_toInt]

lemma ofInt?_eq_none {n : Int} :
    ofInt? n = none ↔ n < Int64.minValue.toInt ∨ Int64.maxValue.toInt < n := by
  rw [ofInt?, ite_eq_right_iff]
  simp only [reduceCtorEq, imp_false]
  omega

lemma add_eq_some {x y z : Int64} : add x y = some z ↔ z.toInt = x.toInt + y.toInt :=
  ofInt?_eq_some

lemma sub_eq_some {x y z : Int64} : sub x y = some z ↔ z.toInt = x.toInt - y.toInt :=
  ofInt?_eq_some

lemma mul_eq_some {x y z : Int64} : mul x y = some z ↔ z.toInt = x.toInt * y.toInt :=
  ofInt?_eq_some

end Word

/-! ### What solutions are -/

/-- The operand that arithmetic gives in `? op k = r`. -/
def leftOperand : Op → Scalar → Scalar → Option Scalar
  | .plus, k, r => r.apply .minus k
  | .minus, k, r => r.apply .plus k
  | .times, k, r => r.apply .div k
  | .div, k, r => r.apply .times k
  | .mod, _, _ | .and, _, _ | .or, _, _ => none

/-- The operand that arithmetic gives in `k op ? = r`. -/
def rightOperand : Op → Scalar → Scalar → Option Scalar
  | .plus, k, r => r.apply .minus k
  | .minus, k, r => k.apply .minus r
  | .times, k, r => r.apply .div k
  | .div, k, r => k.apply .div r
  | .mod, _, _ | .and, _, _ | .or, _, _ => none

/-- The solutions on either side: what logic gives, or the operand that arithmetic gives. -/
def solutions (op : Op) (k r : Scalar) (operand : Option Scalar) : Option (List Term) :=
  match op with
  | .and | .or => solveLogic? op k r
  | _ => operand.map fun w => [.value w]

lemma solveLeft_eq_some {known result : Term} {op : Op} {vs : List Term}
    (h : solveLeft known op result = some vs) :
    ∃ k r, known = .value k ∧ result = .value r ∧
      solutions op k r (leftOperand op k r) = some vs := by
  cases known <;> cases result <;> try simp [solveLeft] at h
  exact ⟨_, _, rfl, rfl, by cases op <;> exact h⟩

lemma solveRight_eq_some {known result : Term} {op : Op} {vs : List Term}
    (h : solveRight known op result = some vs) :
    ∃ k r, known = .value k ∧ result = .value r ∧
      solutions op k r (rightOperand op k r) = some vs := by
  cases known <;> cases result <;> try simp [solveRight] at h
  exact ⟨_, _, rfl, rfl, by cases op <;> exact h⟩

/-- `c` solves `c op a = b` for truth values. -/
def Logical (op : Op) (a b c : Bool) : Prop :=
  (op = .and ∧ (c && a) = b) ∨ (op = .or ∧ (c || a) = b)

/-- How `w` comes to be a solution. -/
inductive Solution (op : Op) (k r : Scalar) (operand : Option Scalar) (w : Scalar) : Prop where
  | arithmetic (h : operand = some w)
  | logical {a b c : Bool} (hk : k = .bool a) (hr : r = .bool b) (hw : w = .bool c)
      (h : Logical op a b c)

lemma mem_solveLogic {op : Op} (hop : op = .and ∨ op = .or) {a b : Bool} {vs : List Term}
    {v : Term} (h : solveLogic op a b = some vs) (hv : v ∈ vs) :
    ∃ c, v = .bool c ∧ Logical op a b c := by
  unfold solveLogic at h
  split_ifs at h <;> obtain rfl := Option.some.inj h
  · -- the known operand decides the result
    simp only [List.mem_cons, List.not_mem_nil, or_false] at hv
    rcases hv with rfl | rfl <;> refine ⟨_, rfl, ?_⟩ <;> rcases hop with rfl | rfl <;>
      simp_all [Logical]
  · refine ⟨b, List.mem_singleton.1 hv, ?_⟩
    rcases hop with rfl | rfl <;> cases a <;> simp_all [Logical]

lemma solveLogic?_eq_some {op : Op} {k r : Scalar} {vs : List Term}
    (h : solveLogic? op k r = some vs) :
    ∃ a b, k = .bool a ∧ r = .bool b ∧ solveLogic op a b = some vs := by
  unfold solveLogic? at h
  split at h
  · exact ⟨_, _, rfl, rfl, h⟩
  · simp at h

section

variable {op : Op} {k r : Scalar} {operand : Option Scalar} {vs : List Term} {v : Term}

lemma mem_solutions (h : solutions op k r operand = some vs) (hv : v ∈ vs) :
    ∃ w, v = .value w ∧ Solution op k r operand w := by
  cases op with
  | and | or =>
    obtain ⟨a, b, rfl, rfl, hlogic⟩ := solveLogic?_eq_some h
    obtain ⟨c, rfl, hc⟩ := mem_solveLogic (by simp) hlogic hv
    exact ⟨_, rfl, .logical rfl rfl rfl hc⟩
  | plus | minus | times | div | mod =>
    obtain ⟨w, hw, rfl⟩ := Option.map_eq_some_iff.1 h
    exact ⟨w, List.mem_singleton.1 hv, .arithmetic hw⟩

lemma solutions_ne_nil (h : solutions op k r operand = some vs) : vs ≠ [] := by
  cases op with
  | and | or =>
    obtain ⟨a, b, rfl, rfl, hlogic⟩ := solveLogic?_eq_some h
    unfold solveLogic at hlogic
    split_ifs at hlogic <;> obtain rfl := Option.some.inj hlogic <;> simp
  | plus | minus | times | div | mod =>
    obtain ⟨w, -, rfl⟩ := Option.map_eq_some_iff.1 h
    simp

variable {known result : Term}

lemma mem_solveLeft (h : solveLeft known op result = some vs) (hv : v ∈ vs) :
    ∃ k r w, known = .value k ∧ result = .value r ∧ v = .value w ∧
      Solution op k r (leftOperand op k r) w := by
  obtain ⟨k, r, rfl, rfl, hvs⟩ := solveLeft_eq_some h
  obtain ⟨w, rfl, hw⟩ := mem_solutions hvs hv
  exact ⟨k, r, w, rfl, rfl, rfl, hw⟩

lemma mem_solveRight (h : solveRight known op result = some vs) (hv : v ∈ vs) :
    ∃ k r w, known = .value k ∧ result = .value r ∧ v = .value w ∧
      Solution op k r (rightOperand op k r) w := by
  obtain ⟨k, r, rfl, rfl, hvs⟩ := solveRight_eq_some h
  obtain ⟨w, rfl, hw⟩ := mem_solutions hvs hv
  exact ⟨k, r, w, rfl, rfl, rfl, hw⟩

lemma solveLeft_ne_nil (h : solveLeft known op result = some vs) : vs ≠ [] := by
  obtain ⟨k, r, -, -, hvs⟩ := solveLeft_eq_some h
  exact solutions_ne_nil hvs

lemma solveRight_ne_nil (h : solveRight known op result = some vs) : vs ≠ [] := by
  obtain ⟨k, r, -, -, hvs⟩ := solveRight_eq_some h
  exact solutions_ne_nil hvs

end

/-! ### What solutions keep -/

/-- A property of scalars that truth values have and that arithmetic keeps. -/
structure Scalar.Closed (P : Scalar → Prop) : Prop where
  bool : ∀ b, P (.bool b)
  apply : ∀ {a b w : Scalar} {op : Op}, P a → P b → a.apply op b = some w → P w

/-- Arithmetic makes floats only from floats. -/
lemma Scalar.closed_kind : Closed (kind · ≠ .float) where
  bool _ := by simp [kind]
  apply {a b w op} ha hb h := by
    cases a <;> cases b <;> cases op <;> simp [apply, toFloat?, kind] at ha hb h <;>
      first | (subst h; simp [kind]) | (obtain ⟨_, -, rfl⟩ := h; simp [kind])

section

variable {P : Scalar → Prop} (hP : Scalar.Closed P) {op : Op} {k r w : Scalar}
include hP

lemma Solution.of_left (h : Solution op k r (leftOperand op k r) w) (hk : P k) (hr : P r) :
    P w := by
  cases h with
  | arithmetic h =>
    cases op with
    | plus | minus | times | div => exact hP.apply hr hk h
    | mod | and | or => simp [leftOperand] at h
  | logical _ _ hw => rw [hw]; exact hP.bool _

lemma Solution.of_right (h : Solution op k r (rightOperand op k r) w) (hk : P k) (hr : P r) :
    P w := by
  cases h with
  | arithmetic h =>
    cases op with
    | plus | times => exact hP.apply hr hk h
    | minus | div => exact hP.apply hk hr h
    | mod | and | or => simp [rightOperand] at h
  | logical _ _ hw => rw [hw]; exact hP.bool _

end

/-! ### Exact solving -/

/-- The operators that solve exactly between truth values and integers, and those that do not
solve at all. -/
def Op.exact : Op → Bool
  | .plus | .minus | .mod | .and | .or => true
  | .times | .div => false

/-- A truth value or an integer. -/
def Scalar.exact : Scalar → Bool
  | .bool _ | .int _ => true
  | .float _ | .text _ => false

namespace Scalar

lemma kind_ne_float {v : Scalar} (h : v.exact) : v.kind ≠ .float := by
  cases v <;> simp [exact, kind] at h ⊢

lemma apply_plus_eq_some {a b w : Scalar} (ha : a.kind ≠ .float) (hb : b.kind ≠ .float)
    (h : a.apply .plus b = some w) :
    (∃ m n p, a = .int m ∧ b = .int n ∧ w = .int p ∧ p.toInt = m.toInt + n.toInt) ∨
      ∃ s t, a = .text s ∧ b = .text t ∧ w = .text (s ++ t) := by
  cases a <;> cases b <;> simp [kind, apply, toFloat?] at ha hb h
  · obtain ⟨p, hp, rfl⟩ := h
    exact .inl ⟨_, _, p, rfl, rfl, rfl, Word.add_eq_some.1 hp⟩
  · exact .inr ⟨_, _, rfl, rfl, h.symm⟩

lemma apply_minus_eq_some {a b w : Scalar} (ha : a.kind ≠ .float) (hb : b.kind ≠ .float)
    (h : a.apply .minus b = some w) :
    ∃ m n p, a = .int m ∧ b = .int n ∧ w = .int p ∧ p.toInt = m.toInt - n.toInt := by
  cases a <;> cases b <;> simp [kind, apply, toFloat?] at ha hb h
  obtain ⟨p, hp, rfl⟩ := h
  exact ⟨_, _, p, rfl, rfl, rfl, Word.sub_eq_some.1 hp⟩

lemma int_plus_int {m n p : Int64} (h : p.toInt = m.toInt + n.toInt) :
    (int m).apply .plus (int n) = some (int p) := by
  simp [apply, Word.add_eq_some.2 h]

lemma int_minus_int {m n p : Int64} (h : p.toInt = m.toInt - n.toInt) :
    (int m).apply .minus (int n) = some (int p) := by
  simp [apply, Word.sub_eq_some.2 h]

lemma closed_exact : Closed (exact · = true) where
  bool _ := rfl
  apply {a b w op} ha hb h := by
    cases op with
    | plus | minus | times | div | mod =>
      cases a <;> cases b <;> simp [exact, apply, toFloat?] at ha hb h
      obtain ⟨_, -, rfl⟩ := h
      rfl
    | and | or =>
      cases a <;> cases b <;> simp [exact, apply, toFloat?] at ha hb h <;> rw [← h] <;> rfl

end Scalar

lemma Logical.apply_left {op : Op} {a b c : Bool} (h : Logical op a b c) :
    (Scalar.bool c).apply op (.bool a) = some (.bool b) := by
  rcases h with ⟨rfl, rfl⟩ | ⟨rfl, rfl⟩ <;> rfl

lemma Logical.apply_right {op : Op} {a b c : Bool} (h : Logical op a b c) :
    (Scalar.bool a).apply op (.bool c) = some (.bool b) := by
  rcases h with ⟨rfl, rfl⟩ | ⟨rfl, rfl⟩ <;> simp [Scalar.apply, Bool.and_comm, Bool.or_comm]

/-- The known operand of a difference and the result are texts. They have been joined. -/
def Joined (op : Op) (k r w : Scalar) : Prop :=
  op = .minus ∧ ∃ s t, k = .text s ∧ r = .text t ∧ w = .text (t ++ s)

lemma Joined.not_exact {op : Op} {k r w : Scalar} (h : Joined op k r w) : ¬ k.exact := by
  obtain ⟨-, s, t, rfl, -⟩ := h
  simp [Scalar.exact]

section

variable {op : Op} {k r w : Scalar}

/-- A left operand that was solved for gives the result, unless texts were joined. -/
lemma Solution.apply_left_or_joined (hk : k.kind ≠ .float) (hr : r.kind ≠ .float)
    (h : Solution op k r (leftOperand op k r) w) (hop : op.exact) :
    w.apply op k = some r ∨ Joined op k r w := by
  cases h with
  | arithmetic h =>
    cases op with
    | plus =>
      obtain ⟨m, n, p, rfl, rfl, rfl, hp⟩ := Scalar.apply_minus_eq_some hr hk h
      exact .inl (Scalar.int_plus_int (by omega))
    | minus =>
      rcases Scalar.apply_plus_eq_some hr hk h with
        ⟨m, n, p, rfl, rfl, rfl, hp⟩ | ⟨t, s, rfl, rfl, rfl⟩
      · exact .inl (Scalar.int_minus_int (by omega))
      · exact .inr ⟨rfl, s, t, rfl, rfl, rfl⟩
    | times | div => simp [Op.exact] at hop
    | mod | and | or => simp [leftOperand] at h
  | logical hk hr hw h => rw [hk, hr, hw]; exact .inl h.apply_left

/-- A right operand that was solved for gives the result. -/
lemma Solution.apply_right_of_kind (hk : k.kind ≠ .float) (hr : r.kind ≠ .float)
    (h : Solution op k r (rightOperand op k r) w) (hop : op.exact) : k.apply op w = some r := by
  cases h with
  | arithmetic h =>
    cases op with
    | plus =>
      obtain ⟨m, n, p, rfl, rfl, rfl, hp⟩ := Scalar.apply_minus_eq_some hr hk h
      exact Scalar.int_plus_int (by omega)
    | minus =>
      obtain ⟨m, n, p, rfl, rfl, rfl, hp⟩ := Scalar.apply_minus_eq_some hk hr h
      exact Scalar.int_minus_int (by omega)
    | times | div => simp [Op.exact] at hop
    | mod | and | or => simp [rightOperand] at h
  | logical hk hr hw h => rw [hk, hr, hw]; exact h.apply_right

variable (hk : k.exact) (hr : r.exact)
include hk hr

lemma Solution.apply_left (h : Solution op k r (leftOperand op k r) w) (hop : op.exact) :
    w.apply op k = some r :=
  (h.apply_left_or_joined (Scalar.kind_ne_float hk) (Scalar.kind_ne_float hr) hop).resolve_right
    fun hjoined => hjoined.not_exact hk

lemma Solution.apply_right (h : Solution op k r (rightOperand op k r) w) (hop : op.exact) :
    k.apply op w = some r :=
  h.apply_right_of_kind (Scalar.kind_ne_float hk) (Scalar.kind_ne_float hr) hop

end

end Relational
