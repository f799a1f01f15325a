import Mathlib.Tactic.Linarith
import Relational.Proofs.Constraining
import Relational.Proofs.Leaves
import Relational.Proofs.Operands

/-!
Quotients that were solved for an operand. The dividend that is found gives the quotient unless the
divisor is zero, when zero is found and there is no quotient. The divisor that is found is the
floor of the dividend by the quotient. If any divisor gives the quotient of a dividend that is not
negative, this one does; of a negative dividend it does only if nothing is left over.
-/

namespace Relational

/-! ### Floors -/

section

variable {m n x : Int}

lemma fdiv_eq_iff_of_pos (hx : 0 < x) : m.fdiv x = n ↔ n * x ≤ m ∧ m < n * x + x := by
  rw [Int.fdiv_eq_ediv_of_nonneg m hx.le]
  exact Int.ediv_eq_iff_of_pos hx

lemma fdiv_eq_iff_of_neg (hx : x < 0) : m.fdiv x = n ↔ m ≤ n * x ∧ n * x + x < m := by
  rw [← Int.neg_fdiv_neg, fdiv_eq_iff_of_pos (Int.neg_pos_of_neg hx), Int.mul_neg]
  omega

lemma ne_zero_of_fdiv_eq (hn : n ≠ 0) (h : m.fdiv x = n) : x ≠ 0 := by
  rintro rfl
  exact hn (h.symm.trans (Int.fdiv_zero m))

/-- The divisors that give a quotient lie next to one another. When the dividend is not negative,
the floor is the last of them. -/
lemma fdiv_fdiv_of_nonneg (hm : 0 ≤ m) (hn : n ≠ 0) (h : m.fdiv x = n) :
    m.fdiv (m.fdiv n) = n := by
  obtain ⟨q, hq⟩ : ∃ q, m.fdiv n = q := ⟨_, rfl⟩
  rw [hq]
  have hx := ne_zero_of_fdiv_eq hn h
  -- A divisor has the sign of the quotient, so that one more of the quotient is monotone in it.
  rcases Int.lt_or_gt_of_ne hn with hneg | hpos
  · have hxneg : x < 0 := by
      refine lt_of_le_of_ne (not_lt.1 fun hxpos => ?_) hx
      rw [fdiv_eq_iff_of_pos hxpos] at h
      nlinarith
    rw [fdiv_eq_iff_of_neg hneg, Int.mul_comm] at hq
    rw [fdiv_eq_iff_of_neg hxneg] at h
    have hle : x ≤ q := by nlinarith
    have hqneg : q < 0 := by nlinarith
    rw [fdiv_eq_iff_of_neg hqneg]
    refine ⟨hq.1, ?_⟩
    calc n * q + q ≤ n * x + x := by nlinarith
      _ < m := h.2
  · have hxpos : 0 < x := by
      refine lt_of_le_of_ne (not_lt.1 fun hxneg => ?_) hx.symm
      rw [fdiv_eq_iff_of_neg hxneg] at h
      nlinarith
    rw [fdiv_eq_iff_of_pos hpos, Int.mul_comm] at hq
    rw [fdiv_eq_iff_of_pos hxpos] at h
    have hle : x ≤ q := by nlinarith
    rw [fdiv_eq_iff_of_pos (hxpos.trans_le hle)]
    refine ⟨hq.1, ?_⟩
    calc m < n * x + x := h.2
      _ ≤ n * q + q := by nlinarith

/-- When the dividend is negative, the floor is less than every divisor that gives the quotient,
unless nothing is left over. -/
lemma fdiv_fdiv_of_neg (hm : m < 0) (hn : n ≠ 0) : m.fdiv (m.fdiv n) = n ↔ n ∣ m := by
  constructor
  · intro h
    obtain ⟨q, hq⟩ : ∃ q, m.fdiv n = q := ⟨_, rfl⟩
    rw [hq] at h
    have hq0 := ne_zero_of_fdiv_eq hn h
    -- The two floors bound the product of quotient and divisor from both sides.
    refine ⟨q, ?_⟩
    rcases Int.lt_or_gt_of_ne hn with hneg | hpos
    · rw [fdiv_eq_iff_of_neg hneg, Int.mul_comm] at hq
      have hqpos : 0 < q := lt_of_le_of_ne (by nlinarith) hq0.symm
      rw [fdiv_eq_iff_of_pos hqpos] at h
      exact le_antisymm hq.1 h.1
    · rw [fdiv_eq_iff_of_pos hpos, Int.mul_comm] at hq
      have hqneg : q < 0 := by nlinarith
      rw [fdiv_eq_iff_of_neg hqneg] at h
      exact le_antisymm h.1 hq.1
  · rintro ⟨q, rfl⟩
    have hq0 : q ≠ 0 := by
      rintro rfl
      simp at hm
    rw [Int.mul_fdiv_cancel_left q hn, Int.mul_fdiv_cancel n hq0]

end

/-! ### Operands of quotients -/

section

variable {k r x : Int64} {vs : List Term} {v : Term}

lemma evaluate_div :
    evaluate (.int x) .div (.int k) = some (.int r) ↔ k ≠ 0 ∧ x.toInt.fdiv k.toInt = r.toInt := by
  rw [evaluate_int fun _ _ => rfl]
  by_cases hk : k = 0
  · simp [hk, Word.floorDiv, Word.Divides]
  · rw [Word.floorDiv_eq_some hk, eq_comm]
    exact ⟨fun h => ⟨hk, h⟩, fun h => h.2⟩

lemma solveLeft_div :
    solveLeft (.int k) .div (.int r) = some vs ↔
      ∃ x : Int64, x.toInt = r.toInt * k.toInt ∧ vs = [.int x] :=
  candidate_eq_some.trans (exists_congr fun _ => and_congr_left fun _ => Word.mul_eq_some)

lemma solveRight_div :
    solveRight (.int k) .div (.int r) = some vs ↔
      r ≠ 0 ∧ ∃ q : Int64, k.toInt.fdiv r.toInt = q.toInt ∧ vs = [.int q] := by
  refine candidate_eq_some.trans ?_
  by_cases hr : r = 0
  · simp [hr, Word.floorDiv, Word.Divides]
  · simp only [Word.floorDiv_eq_some hr, hr, ne_eq, not_false_eq_true, true_and, eq_comm]

lemma solveRight_div_eq_none :
    solveRight (.int k) .div (.int r) = none ↔ ¬ Word.Divides k r := by
  simp only [solveRight, Term.int, Scalar.apply, Option.map_eq_none_iff, Word.floorDiv]
  split_ifs with h <;> simp [h]

lemma evaluate_of_mem_solveLeft_div (h : solveLeft (.int k) .div (.int r) = some vs)
    (hv : v ∈ vs) : evaluate v .div (.int k) = some (.int r) ↔ k ≠ 0 := by
  obtain ⟨x, hx, rfl⟩ := solveLeft_div.1 h
  obtain rfl := List.mem_singleton.1 hv
  rw [evaluate_div, and_iff_left_iff_imp]
  intro hk
  rw [hx, Int.mul_fdiv_cancel _ (Word.toInt_ne_zero hk)]

lemma evaluate_of_mem_solveRight_div (h : solveRight (.int k) .div (.int r) = some vs)
    (hv : v ∈ vs) :
    evaluate (.int k) .div v = some (.int r) ↔
      (∃ x : Int64, evaluate (.int k) .div (.int x) = some (.int r)) ∧
        (0 ≤ k ∨ r.toInt ∣ k.toInt) := by
  obtain ⟨hr, q, hq, rfl⟩ := solveRight_div.1 h
  obtain rfl := List.mem_singleton.1 hv
  have hr := Word.toInt_ne_zero hr
  have hsign : 0 ≤ k ↔ 0 ≤ k.toInt := Int64.le_iff_toInt_le
  have hback : evaluate (.int k) .div (.int q) = some (.int r) ↔
      k.toInt.fdiv (k.toInt.fdiv r.toInt) = r.toInt := by
    rw [evaluate_div, hq, and_iff_right_iff_imp]
    rintro h rfl
    exact ne_zero_of_fdiv_eq hr h rfl
  rw [hsign]
  constructor
  · intro h
    exact ⟨⟨q, h⟩, (Int.lt_or_le k.toInt 0).symm.imp_right fun hneg =>
      (fdiv_fdiv_of_neg hneg hr).1 (hback.1 h)⟩
  · rintro ⟨⟨x, hx⟩, hk⟩
    rw [hback]
    rcases Int.lt_or_le k.toInt 0 with hneg | hpos
    · exact (fdiv_fdiv_of_neg hneg hr).2 (hk.resolve_left (Int.not_le.2 hneg))
    · exact fdiv_fdiv_of_nonneg hpos hr (evaluate_div.1 hx).2

end

/-! ### States -/

namespace State

variable {s : State} {x : Var}

/-- An unknown left operand gets each of its candidates, in a state for each. -/
lemma toList_unify_left (hs : s.bindings.Acyclic) (hx : s.lookup x = none) (op : Op)
    (k r : Scalar) :
    (s.unify (.expr (.var x) op (.value k)) (.value r)).states.toList =
      ((solveLeft (.value k) op (.value r)).getD []).map fun v => s.extend (.single x v) := by
  have hwalk : s.walk (.expr (.var x) op (.value k)) = .expr (.var x) op (.value k) := by
    rw [walk, Bindings.walk_expr, Bindings.walk_var_of_none hx]
    rfl
  have hways : Ways s.bindings (s.walk (.expr (.var x) op (.value k))) (s.walk (.value r))
      ((Term.expr (.var x) op (.value k)).leaves (.value r)) := by
    rw [hwalk]
    exact .leaf id
  rw [(unify_of_ways hs hways).2, Term.leaves_expr rfl]
  exact List.map_map

lemma walk_single_value (hs : s.bindings.Acyclic) (hx : s.lookup x = none) (w : Scalar) :
    (s.extend (.single x (.value w))).walk (.var x) = .value w := by
  have hs' : (s.extend (.single x (.value w))).bindings.Acyclic :=
    hs.extend_single hx (by simp [Term.vars]) (by simp [Term.vars])
  have hw : (s.extend (.single x (.value w))).bindings[x]? = some (.value w) := by
    rw [extend, Bindings.getElem?_extend_single, if_pos rfl]
  exact hs'.walk_var_of_some hw

/-- The states that come of it have a candidate for the unknown. They make both sides equal exactly
if the candidate gives the result. -/
lemma exists_of_mem_unify_left (hs : s.bindings.Acyclic) (hx : s.lookup x = none) {op : Op}
    {k r : Scalar} {s' : State}
    (h : s' ∈ (s.unify (.expr (.var x) op (.value k)) (.value r)).states.toList) :
    ∃ vs, solveLeft (.value k) op (.value r) = some vs ∧ ∃ v ∈ vs,
      (s'.walk (.expr (.var x) op (.value k)) = s'.walk (.value r) ↔
        evaluate v op (.value k) = some (.value r)) := by
  rw [toList_unify_left hs hx] at h
  obtain ⟨v, hv, rfl⟩ := List.mem_map.1 h
  rcases hvs : solveLeft (.value k) op (.value r) with _ | vs
  · simp [hvs] at hv
  · rw [hvs, Option.getD_some] at hv
    obtain ⟨_, _, w, -, -, rfl, -⟩ := mem_solveLeft hvs hv
    refine ⟨vs, rfl, _, hv, ?_⟩
    have hwalk : (s.extend (.single x (.value w))).walk (.expr (.var x) op (.value k)) =
        .reduce (.value w) op (.value k) :=
      congrArg (Term.reduce · op (.value k)) (walk_single_value hs hx w)
    rw [hwalk, Term.reduce]
    cases evaluate (.value w) op (.value k) <;> simp [walk]

end State

/-! ### Dividends -/

/-- **Dividends**: solving a quotient for its dividend finds the product of quotient and divisor,
if that fits. It gives the quotient exactly when the divisor is not zero. So it is in every state in
which the dividend is unknown: what comes of the equation makes both sides equal, except that a
divisor of zero leaves the one state in which the dividend is zero and the quotient has no value. -/
theorem solve_dividend (k r : Int64) :
    (solveLeft (.int k) .div (.int r) = none ↔ ¬ ∃ x : Int64, x.toInt = r.toInt * k.toInt) ∧
    (∀ vs, solveLeft (.int k) .div (.int r) = some vs → ∀ v ∈ vs,
      (evaluate v .div (.int k) = some (.int r) ↔ k ≠ 0)) ∧
    ∀ (s : State) (x : Var), s.bindings.Acyclic → s.lookup x = none →
      (∀ s' ∈ (s.unify (.expr (.var x) .div (.int k)) (.int r)).states.toList,
        (s'.walk (.expr (.var x) .div (.int k)) = s'.walk (.int r) ↔ k ≠ 0)) ∧
      (k = 0 → (s.unify (.expr (.var x) .div (.int k)) (.int r)).states.toList =
        [s.extend (.single x (.int 0))]) := by
  refine ⟨eq_none_iff_of_eq_some_iff fun _ => solveLeft_div,
    fun vs hvs v hv => evaluate_of_mem_solveLeft_div hvs hv,
    fun s x hs hx => ⟨fun s' h => ?_, ?_⟩⟩
  · obtain ⟨vs, hvs, v, hv, hwalk⟩ := State.exists_of_mem_unify_left hs hx h
    exact hwalk.trans (evaluate_of_mem_solveLeft_div hvs hv)
  · rintro rfl
    have hzero : solveLeft (.int 0) .div (.int r) = some [.int 0] :=
      solveLeft_div.2 ⟨0, (Int.mul_zero _).symm, rfl⟩
    exact (State.toList_unify_left hs hx .div (.int 0) (.int r)).trans <|
      congrArg (fun vs => (vs.getD []).map fun v => s.extend (.single x v)) hzero

/-- Minus twelve divided by minus three, with the dividend unknown. -/
theorem solve_dividend_signs :
    solveLeft (.int (-3)) .div (.int 4) = some [.int (-12)] ∧
    evaluate (.int (-12)) .div (.int (-3)) = some (.int 4) ∧
    State.linked.bindings.Acyclic ∧ State.linked.lookup ⟨"q"⟩ = none ∧
    (State.linked.extend (.single ⟨"q"⟩ (.int (-12)))).walk
      (.expr (.var ⟨"q"⟩) .div (.int (-3))) = .int 4 := by
  have hfound : solveLeft (.int (-3)) .div (.int 4) = some [.int (-12)] := by decide +kernel
  have hfree : State.linked.lookup ⟨"q"⟩ = none := by decide +kernel
  obtain ⟨-, hsound, hstates⟩ := solve_dividend (-3) 4
  have hmem : State.linked.extend (.single ⟨"q"⟩ (.int (-12))) ∈
      (State.linked.unify (.expr (.var ⟨"q"⟩) .div (.int (-3))) (.int 4)).states.toList := .head _
  exact ⟨hfound, (hsound _ hfound _ (.head _)).2 (by decide), State.linked_acyclic, hfree,
    ((hstates State.linked ⟨"q"⟩ State.linked_acyclic hfree).1 _ hmem).2 (by decide)⟩

/-- Zero is found for what divided by zero is five, but the quotient has no value, and in the state
that comes of it the two sides are not equal. -/
theorem solve_zero_divisor :
    solveLeft (.int 0) .div (.int 5) = some [.int 0] ∧
    evaluate (.int 0) .div (.int 0) = none ∧
    ∃ s : State, ((State.root .global).unify (.expr (.var ⟨"x"⟩) .div (.int 0))
        (.int 5)).states.toList = [s] ∧
      s.walk (.expr (.var ⟨"x"⟩) .div (.int 0)) ≠ s.walk (.int 5) :=
  ⟨by decide, by decide, _, rfl, by decide +kernel⟩

/-! ### Divisors -/

/-- **Divisors**: solving a quotient for its divisor finds the floor of the dividend by the
quotient, wherever that division has a value. It gives the quotient exactly if some divisor does
and, besides, the dividend is not negative or is a multiple of the quotient. -/
theorem solve_divisor (k r : Int64) :
    (solveRight (.int k) .div (.int r) = none ↔ ¬ Word.Divides k r) ∧
    ∀ vs, solveRight (.int k) .div (.int r) = some vs → ∀ v ∈ vs,
      (evaluate (.int k) .div v = some (.int r) ↔
        (∃ x : Int64, evaluate (.int k) .div (.int x) = some (.int r)) ∧
          (0 ≤ k ∨ r.toInt ∣ k.toInt)) :=
  ⟨solveRight_div_eq_none, fun _ hvs _ hv => evaluate_of_mem_solveRight_div hvs hv⟩

/-- Seven divided by minus four, and minus eight divided by four, with the divisor unknown. -/
theorem solve_divisor_signs :
    solveRight (.int 7) .div (.int (-2)) = some [.int (-4)] ∧
    evaluate (.int 7) .div (.int (-4)) = some (.int (-2)) ∧
    solveRight (.int (-8)) .div (.int (-2)) = some [.int 4] ∧
    evaluate (.int (-8)) .div (.int 4) = some (.int (-2)) := by
  have hseven : solveRight (.int 7) .div (.int (-2)) = some [.int (-4)] := by decide +kernel
  have height : solveRight (.int (-8)) .div (.int (-2)) = some [.int 4] := by decide +kernel
  refine ⟨hseven, ((solve_divisor 7 (-2)).2 _ hseven _ (.head _)).2 ⟨⟨-5, ?_⟩, .inl ?_⟩,
    height, ((solve_divisor (-8) (-2)).2 _ height _ (.head _)).2 ⟨⟨5, ?_⟩, .inr ?_⟩⟩
  all_goals decide +kernel

/-- Two divides minus five with the quotient minus three, but one is found. -/
theorem solve_negative_dividend :
    evaluate (.int (-5)) .div (.int 2) = some (.int (-3)) ∧
    solveRight (.int (-5)) .div (.int (-3)) = some [.int 1] ∧
    evaluate (.int (-5)) .div (.int 1) = some (.int (-5)) ∧
    ∃ s : State, ((State.root .global).unify (.expr (.int (-5)) .div (.var ⟨"x"⟩))
        (.int (-3))).states.toList = [s] ∧
      s.walk (.expr (.int (-5)) .div (.var ⟨"x"⟩)) ≠ s.walk (.int (-3)) :=
  ⟨by decide +kernel, by decide +kernel, by decide +kernel, _, rfl, by decide +kernel⟩

end Relational
