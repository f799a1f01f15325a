import Relational.Proofs.Division
import Relational.State

/-!
Operands that were solved for, put back in their place. Without floats, and without products and
quotients, they give the result, unless a difference of texts was solved: its candidate joins
them, and texts have no difference. Between integers the operand that gave a sum, a difference or
a product is found from it; and where no integer gives the result none is found, but for products,
whose candidate is the floor of the quotient.
-/

namespace Relational

/-! ### Without floats -/

/-- **Soundness** of solving sums, differences, conjunctions and disjunctions without floats: each
candidate gives the result, except that a difference of texts is solved by joining them, and
there is no such difference. -/
theorem solve_sound (op : Op) (hop : op ∈ [Op.plus, .minus, .and, .or]) (k r : Scalar)
    (hk : k.kind ≠ .float) (hr : r.kind ≠ .float) :
    (∀ vs, solveLeft (.value k) op (.value r) = some vs → ∀ v ∈ vs,
      evaluate v op (.value k) = some (.value r) ∨
        op = .minus ∧ evaluate v op (.value k) = none ∧
          ∃ s t, k = .text s ∧ r = .text t ∧ v = .text (t ++ s)) ∧
    ∀ vs, solveRight (.value k) op (.value r) = some vs → ∀ v ∈ vs,
      evaluate (.value k) op v = some (.value r) := by
  have hexact : op.exact := by
    simp only [List.mem_cons, List.not_mem_nil, or_false] at hop
    rcases hop with rfl | rfl | rfl | rfl <;> rfl
  constructor
  · intro vs hvs v hv
    obtain ⟨_, _, w, hk', hr', rfl, hw⟩ := mem_solveLeft hvs hv
    cases hk'
    cases hr'
    rcases hw.apply_left_or_joined hk hr hexact with happly | ⟨rfl, s, t, rfl, rfl, rfl⟩
    · exact .inl (by rw [evaluate, happly, Option.map_some])
    · exact .inr ⟨rfl, rfl, s, t, rfl, rfl, rfl⟩
  · intro vs hvs v hv
    obtain ⟨_, _, w, hk', hr', rfl, hw⟩ := mem_solveRight hvs hv
    cases hk'
    cases hr'
    rw [evaluate, hw.apply_right_of_kind hk hr hexact, Option.map_some]

/-- A difference is solved up to the limit of the integers, and of a disjunction that is decided
both truth values are solutions. -/
theorem solve_sound_limit :
    Op.minus ∈ [Op.plus, .minus, .and, .or] ∧ Op.or ∈ [Op.plus, .minus, .and, .or] ∧
    (Scalar.int (-1)).kind ≠ .float ∧ (Scalar.bool true).kind ≠ .float ∧
    solveRight (.int (-1)) .minus (.int Int64.minValue) = some [.int Int64.maxValue] ∧
    evaluate (.int (-1)) .minus (.int Int64.maxValue) = some (.int Int64.minValue) ∧
    solveLeft (.bool true) .or (.bool true) = some [.bool false, .bool true] ∧
    evaluate (.bool false) .or (.bool true) = some (.bool true) := by
  have hint : solveRight (.int (-1)) .minus (.int Int64.minValue) =
      some [.int Int64.maxValue] := by decide +kernel
  have hbool : solveLeft (.bool true) .or (.bool true) = some [.bool false, .bool true] := rfl
  have hright := (solve_sound .minus (by decide) (.int (-1)) (.int Int64.minValue) (by decide)
    (by decide)).2 _ hint _ (.head _)
  have hleft := (solve_sound .or (by decide) (.bool true) (.bool true) (by decide)
    (by decide)).1 _ hbool _ (.head _)
  exact ⟨by decide, by decide, by decide, by decide, hint, hright, hbool,
    hleft.resolve_right (by simp)⟩

/-- To find what leaves `a` when `b` is taken from it, the two are joined, but `b` cannot be taken
from a text; so the state that comes of it does not make the terms equal. -/
theorem solve_joins_texts :
    solveLeft (.text "b") .minus (.text "a") = some [.text "ab"] ∧
    evaluate (.text "ab") .minus (.text "b") = none ∧
    ∃ s : State, ((State.root .global).unify (.expr (.var ⟨"x"⟩) .minus (.text "b"))
        (.text "a")).states.toList = [s] ∧
      s.walk (.expr (.var ⟨"x"⟩) .minus (.text "b")) ≠ s.walk (.text "a") :=
  ⟨by decide, rfl, _, rfl, by decide +kernel⟩

/-! ### Integers -/

section

variable {op : Op} {x y k r : Int64} {vs : List Term}

lemma evaluate_int {f : Int64 → Int64 → Option Int64}
    (h : ∀ m n, (Scalar.int m).apply op (.int n) = (f m n).map .int) :
    evaluate (.int x) op (.int y) = some (.int r) ↔ f x y = some r := by
  simp [evaluate, Term.int, h]

lemma evaluate_plus :
    evaluate (.int x) .plus (.int y) = some (.int r) ↔ r.toInt = x.toInt + y.toInt :=
  (evaluate_int fun _ _ => rfl).trans Word.add_eq_some

lemma evaluate_minus :
    evaluate (.int x) .minus (.int y) = some (.int r) ↔ r.toInt = x.toInt - y.toInt :=
  (evaluate_int fun _ _ => rfl).trans Word.sub_eq_some

lemma evaluate_times :
    evaluate (.int x) .times (.int y) = some (.int r) ↔ r.toInt = x.toInt * y.toInt :=
  (evaluate_int fun _ _ => rfl).trans Word.mul_eq_some

lemma candidate_eq_some {n? : Option Int64} :
    ((n?.map Scalar.int).map fun w => [Term.value w]) = some vs ↔
      ∃ x, n? = some x ∧ vs = [.int x] := by
  cases n? <;> simp [Term.int, eq_comm]

/-- A sum or a difference has exactly the candidate that gives it. -/
lemma solveLeft_eq_some_iff (hop : op = .plus ∨ op = .minus) :
    solveLeft (.int k) op (.int r) = some vs ↔
      ∃ x : Int64, evaluate (.int x) op (.int k) = some (.int r) ∧ vs = [.int x] := by
  rcases hop with rfl | rfl <;>
    refine candidate_eq_some.trans (exists_congr fun x => and_congr_left fun _ => ?_)
  · rw [Word.sub_eq_some, evaluate_plus]
    omega
  · rw [Word.add_eq_some, evaluate_minus]
    omega

lemma solveRight_eq_some_iff (hop : op = .plus ∨ op = .minus) :
    solveRight (.int k) op (.int r) = some vs ↔
      ∃ x : Int64, evaluate (.int k) op (.int x) = some (.int r) ∧ vs = [.int x] := by
  rcases hop with rfl | rfl <;>
    refine candidate_eq_some.trans (exists_congr fun x => and_congr_left fun _ => ?_)
  · rw [Word.sub_eq_some, evaluate_plus]
    omega
  · rw [Word.sub_eq_some, evaluate_minus]
    omega

/-- A product has the floor of the quotient as its candidate, on either side. -/
lemma solveLeft_times (hk : k ≠ 0) :
    solveLeft (.int k) .times (.int r) = some vs ↔
      ∃ q : Int64, q.toInt = r.toInt.fdiv k.toInt ∧ vs = [.int q] :=
  candidate_eq_some.trans
    (exists_congr fun _ => and_congr_left fun _ => Word.floorDiv_eq_some hk)

lemma solveRight_times : solveRight (.int k) .times (.int r) = solveLeft (.int k) .times (.int r) :=
  rfl

lemma evaluate_times_comm : evaluate (.int x) .times (.int y) = some (.int r) ↔
    evaluate (.int y) .times (.int x) = some (.int r) := by
  rw [evaluate_times, evaluate_times, Int.mul_comm]

lemma solveLeft_of_times (hk : k ≠ 0)
    (h : evaluate (.int x) .times (.int k) = some (.int r)) :
    solveLeft (.int k) .times (.int r) = some [.int x] := by
  refine (solveLeft_times hk).2 ⟨x, ?_, rfl⟩
  rw [evaluate_times.1 h, Int.mul_fdiv_cancel _ (Word.toInt_ne_zero hk)]

lemma evaluate_quotient {q : Int64} (hq : q.toInt = r.toInt.fdiv k.toInt) :
    evaluate (.int q) .times (.int k) = some (.int r) ↔ k.toInt ∣ r.toInt := by
  rw [evaluate_times, hq]
  exact ⟨fun h => ⟨_, h.trans (Int.mul_comm _ _)⟩, fun h => (Int.fdiv_mul_cancel h).symm⟩

lemma mem_solveLeft_times (hk : k ≠ 0) (h : solveLeft (.int k) .times (.int r) = some vs)
    {v : Term} (hv : v ∈ vs) :
    (evaluate v .times (.int k) = some (.int r) ↔ k.toInt ∣ r.toInt) ∧
      ∃ q : Int64, v = .int q ∧ q.toInt = r.toInt.fdiv k.toInt := by
  obtain ⟨q, hq, rfl⟩ := (solveLeft_times hk).1 h
  obtain rfl := List.mem_singleton.1 hv
  exact ⟨evaluate_quotient hq, q, rfl, hq⟩

/-- Nothing is found only if nothing has the property of what is found. -/
lemma eq_none_iff_of_eq_some_iff {P : Int64 → Prop} {found : Option (List Term)}
    (h : ∀ vs, found = some vs ↔ ∃ x, P x ∧ vs = [.int x]) : found = none ↔ ¬ ∃ x, P x := by
  rw [Option.eq_none_iff_forall_ne_some]
  constructor
  · rintro hnone ⟨x, hx⟩
    exact hnone [.int x] ((h _).2 ⟨x, hx, rfl⟩)
  · intro hnone vs hvs
    obtain ⟨x, hx, -⟩ := (h vs).1 hvs
    exact hnone ⟨x, hx⟩

end

/-- **Recovery** of integer operands: solving a sum, a difference, or a product with a factor that
is not zero, for the operand that gave the result finds just this operand. Sums and differences
have no candidate only if no integer solves them. A candidate for a product is the floor of the
quotient, and gives the result if and only if the division leaves nothing over. -/
theorem solve_recovers (x k r : Int64) :
    (∀ op, op = .plus ∨ op = .minus ∨ op = .times ∧ k ≠ 0 →
      (evaluate (.int x) op (.int k) = some (.int r) →
        solveLeft (.int k) op (.int r) = some [.int x]) ∧
      (evaluate (.int k) op (.int x) = some (.int r) →
        solveRight (.int k) op (.int r) = some [.int x])) ∧
    (∀ op, op = .plus ∨ op = .minus →
      (solveLeft (.int k) op (.int r) = none ↔
        ¬ ∃ y : Int64, evaluate (.int y) op (.int k) = some (.int r)) ∧
      (solveRight (.int k) op (.int r) = none ↔
        ¬ ∃ y : Int64, evaluate (.int k) op (.int y) = some (.int r))) ∧
    (k ≠ 0 →
      (∀ vs, solveLeft (.int k) .times (.int r) = some vs → ∀ v ∈ vs,
        (evaluate v .times (.int k) = some (.int r) ↔ k.toInt ∣ r.toInt) ∧
          ∃ q : Int64, v = .int q ∧ q.toInt = r.toInt.fdiv k.toInt) ∧
      ∀ vs, solveRight (.int k) .times (.int r) = some vs → ∀ v ∈ vs,
        (evaluate (.int k) .times v = some (.int r) ↔ k.toInt ∣ r.toInt) ∧
          ∃ q : Int64, v = .int q ∧ q.toInt = r.toInt.fdiv k.toInt) := by
  refine ⟨fun op hop => ?recover, fun op hop => ?none, fun hk => ?times⟩
  case recover =>
    rcases or_assoc.2 hop with hop | ⟨rfl, hk⟩
    · exact ⟨fun h => (solveLeft_eq_some_iff hop).2 ⟨x, h, rfl⟩,
        fun h => (solveRight_eq_some_iff hop).2 ⟨x, h, rfl⟩⟩
    · refine ⟨solveLeft_of_times hk, fun h => ?_⟩
      rw [solveRight_times]
      exact solveLeft_of_times hk (evaluate_times_comm.1 h)
  case none =>
    exact ⟨eq_none_iff_of_eq_some_iff fun vs => solveLeft_eq_some_iff hop,
      eq_none_iff_of_eq_some_iff fun vs => solveRight_eq_some_iff hop⟩
  case times =>
    refine ⟨fun vs hvs v hv => mem_solveLeft_times hk hvs hv, fun vs hvs v hv => ?_⟩
    rw [solveRight_times] at hvs
    obtain ⟨hv', q, rfl, hq⟩ := mem_solveLeft_times hk hvs hv
    exact ⟨evaluate_times_comm.trans hv', q, rfl, hq⟩

/-- The greatest integer is found from its negative. The least integer is no sum with one, and minus
nine is no product with two, although there is a candidate for it. -/
theorem solve_recovers_limits :
    (-1 : Int64) ≠ 0 ∧ (2 : Int64) ≠ 0 ∧
    evaluate (.int Int64.maxValue) .times (.int (-1)) = some (.int (-Int64.maxValue)) ∧
    solveLeft (.int (-1)) .times (.int (-Int64.maxValue)) = some [.int Int64.maxValue] ∧
    solveLeft (.int 1) .plus (.int Int64.minValue) = none ∧
    (¬ ∃ y : Int64, evaluate (.int y) .plus (.int 1) = some (.int Int64.minValue)) ∧
    solveRight (.int 2) .times (.int (-9)) = some [.int (-5)] ∧
    evaluate (.int 2) .times (.int (-5)) ≠ some (.int (-9)) := by
  have hmax : evaluate (.int Int64.maxValue) .times (.int (-1)) =
      some (.int (-Int64.maxValue)) := by decide +kernel
  have hnone : solveLeft (.int 1) .plus (.int Int64.minValue) = none := by decide +kernel
  have hfloor : solveRight (.int 2) .times (.int (-9)) = some [.int (-5)] := by decide +kernel
  obtain ⟨hrecover, -, -⟩ := solve_recovers Int64.maxValue (-1) (-Int64.maxValue)
  obtain ⟨-, hsums, -⟩ := solve_recovers 0 1 Int64.minValue
  obtain ⟨-, -, hproducts⟩ := solve_recovers 0 2 (-9)
  have hrest := ((hproducts (by decide)).2 _ hfloor _ (.head _)).1
  exact ⟨by decide, by decide, hmax, (hrecover .times (.inr (.inr ⟨rfl, by decide⟩))).1 hmax,
    hnone, (hsums .plus (.inl rfl)).1.1 hnone, hfloor, fun h => absurd (hrest.1 h) (by decide)⟩

end Relational
