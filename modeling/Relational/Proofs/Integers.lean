import Mathlib.Data.Rat.Floor
import Relational.Proofs.Quotients

/-!
Arithmetic between integers. It gives the exact result wherever that fits, except that the least
integer has no remainder by minus one: this is zero, but the quotient that goes with it does not
fit. Every step that is taken without a check stays within the words and divides by no zero.
-/

namespace Relational

namespace Op

/-- The operators that compute with numbers. -/
def arithmetic : List Op := [.plus, .minus, .times, .div, .mod]

/-- What arithmetic gives between integers without limits, where it is defined. Quotients are
rounded toward negative infinity, and the remainder is what is left over then. -/
def onInts? : Op → Int → Int → Option Int
  | .plus, m, n => some (m + n)
  | .minus, m, n => some (m - n)
  | .times, m, n => some (m * n)
  | .div, m, n => if n = 0 then none else some ⌊(m / n : ℚ)⌋
  | .mod, m, n => if n = 0 then none else some (m - n * ⌊(m / n : ℚ)⌋)
  | .and, _, _ | .or, _, _ => none

/-- What an operator gives between words. -/
def onWords : Op → Int64 → Int64 → Option Int64
  | .plus => Word.add
  | .minus => Word.sub
  | .times => Word.mul
  | .div => Word.floorDiv
  | .mod => Word.floorMod
  | .and => fun x y => some (x &&& y)
  | .or => fun x y => some (x ||| y)

end Op

section

variable {op : Op} {x y r : Int64} {n : Int}

lemma apply_ints : (Scalar.int x).apply op (.int y) = (op.onWords x y).map .int := by
  cases op <;> rfl

lemma evaluate_ints : evaluate (.int x) op (.int y) = (op.onWords x y).map .int := by
  change ((Scalar.int x).apply op (.int y)).map Term.value = _
  rw [apply_ints, Option.map_map]
  rfl

lemma evaluate_int_eq_some :
    evaluate (.int x) op (.int y) = some (.int r) ↔ op.onWords x y = some r :=
  evaluate_int fun _ _ => apply_ints

/-! ### Exact results -/

lemma floor_div (m n : Int) : ⌊(m / n : ℚ)⌋ = m.fdiv n := by
  rcases Int.lt_trichotomy n 0 with hneg | rfl | hpos
  · have hn : (n : ℚ) < 0 := Int.cast_lt_zero.2 hneg
    obtain ⟨hle, hlt⟩ := (fdiv_eq_iff_of_neg hneg).1 (rfl : m.fdiv n = _)
    rw [Int.floor_eq_iff, le_div_iff_of_neg hn, div_lt_iff_of_neg hn, add_mul, one_mul]
    exact ⟨mod_cast hle, mod_cast hlt⟩
  · simp
  · have hn : (0 : ℚ) < n := Int.cast_pos.2 hpos
    obtain ⟨hle, hlt⟩ := (fdiv_eq_iff_of_pos hpos).1 (rfl : m.fdiv n = _)
    rw [Int.floor_eq_iff, le_div_iff₀ hn, div_lt_iff₀ hn, add_mul, one_mul]
    exact ⟨mod_cast hle, mod_cast hlt⟩

lemma onInts?_div :
    Op.onInts? .div x.toInt y.toInt = some n ↔ y ≠ 0 ∧ x.toInt.fdiv y.toInt = n := by
  simp [Op.onInts?, floor_div, Word.toInt_eq_zero]

lemma onInts?_mod :
    Op.onInts? .mod x.toInt y.toInt = some n ↔ y ≠ 0 ∧ x.toInt.fmod y.toInt = n := by
  simp [Op.onInts?, floor_div, Word.toInt_eq_zero, Int.fmod_def]

lemma onWords_eq_some (hop : op ∈ Op.arithmetic) :
    op.onWords x y = some r ↔
      op.onInts? x.toInt y.toInt = some r.toInt ∧
        ¬ (op = .mod ∧ x = Int64.minValue ∧ y = -1) := by
  cases op with
  | plus => simpa [Op.onWords, Op.onInts?] using Word.add_eq_some.trans eq_comm
  | minus => simpa [Op.onWords, Op.onInts?] using Word.sub_eq_some.trans eq_comm
  | times => simpa [Op.onWords, Op.onInts?] using Word.mul_eq_some.trans eq_comm
  | div =>
    rw [onInts?_div, ← evaluate_int_eq_some, evaluate_div]
    simp
  | mod =>
    rw [onInts?_mod, Op.onWords, Word.floorMod_eq_some, Word.Divides, @eq_comm _ r.toInt]
    simp [and_right_comm]
  | and | or => simp [Op.arithmetic] at hop

end

/-- **Completeness** of integer arithmetic: it has a value exactly if the exact result is defined
and fits, except that the least integer has no remainder by minus one. -/
theorem evaluate_isSome_iff (op : Op) (hop : op ∈ Op.arithmetic) (x y : Int64) :
    (evaluate (.int x) op (.int y)).isSome ↔
      (∃ n, op.onInts? x.toInt y.toInt = some n ∧
        Int64.minValue.toInt ≤ n ∧ n ≤ Int64.maxValue.toInt) ∧
      ¬ (op = .mod ∧ x = Int64.minValue ∧ y = -1) := by
  rw [evaluate_ints, Option.isSome_map, Option.isSome_iff_exists]
  simp only [onWords_eq_some hop]
  constructor
  · rintro ⟨r, hr, hmiss⟩
    exact ⟨⟨r.toInt, hr, r.minValue_le_toInt, r.toInt_le⟩, hmiss⟩
  · rintro ⟨⟨n, hn, hfits⟩, hmiss⟩
    have hword : Word.ofInt? n = some (.ofInt n) := if_pos hfits
    exact ⟨.ofInt n, by rw [hn, Word.ofInt?_eq_some.1 hword], hmiss⟩

/-- The least integer has a quotient by one and none by minus one, and a remainder by two. -/
theorem evaluate_isSome_limits :
    Op.div ∈ Op.arithmetic ∧ Op.mod ∈ Op.arithmetic ∧
    (evaluate (.int Int64.minValue) .div (.int 1)).isSome ∧
    ¬ (evaluate (.int Int64.minValue) .div (.int (-1))).isSome ∧
    (evaluate (.int Int64.minValue) .mod (.int 2)).isSome := by
  have hdiv : Op.div ∈ Op.arithmetic := by decide
  have hmod : Op.mod ∈ Op.arithmetic := by decide
  have hone := evaluate_isSome_iff .div hdiv Int64.minValue 1
  have hminus := evaluate_isSome_iff .div hdiv Int64.minValue (-1)
  have htwo := evaluate_isSome_iff .mod hmod Int64.minValue 2
  have hexact : Op.onInts? .div Int64.minValue.toInt (-1 : Int64).toInt =
      some 9223372036854775808 := by decide +kernel
  refine ⟨hdiv, hmod, hone.2 ⟨⟨Int64.minValue.toInt, ?_⟩, ?_⟩, fun h => ?_, htwo.2 ⟨⟨0, ?_⟩, ?_⟩⟩
  · decide +kernel
  · decide
  · obtain ⟨⟨n, hn, -, hle⟩, -⟩ := hminus.1 h
    cases hexact.symm.trans hn
    exact absurd hle (by decide)
  · decide +kernel
  · decide

/-- The least integer leaves zero over when it is divided by minus one, but it has no remainder. -/
theorem evaluate_least_remainder :
    Op.onInts? .mod Int64.minValue.toInt (-1 : Int64).toInt = some 0 ∧
    evaluate (.int Int64.minValue) .mod (.int (-1)) = none :=
  ⟨by decide +kernel, by decide⟩

/-! ### Steps without a check -/

namespace Word

/-- What a step that is taken without a check can run into. -/
inductive Trap where
  | overflow | zeroDivisor
deriving DecidableEq

namespace Watched

/-- The word of a result that has to fit. -/
def fit (n : Int) : Except Trap Int64 :=
  match ofInt? n with
  | some w => .ok w
  | none => .error .overflow

/-- The remainder of rounding toward zero. It comes from a division, whose quotient has to fit. -/
def rem (x y : Int64) : Except Trap Int64 :=
  if y = 0 then .error .zeroDivisor
  else (fit (x.toInt.tdiv y.toInt)).bind fun _ => fit (x.toInt.tmod y.toInt)

/-- `Word.floorDiv` with every step watched that it takes without a check. -/
def floorDiv (x y : Int64) : Except Trap (Option Int64) :=
  if Divides x y then do
    let r ← rem x y
    if r ≠ 0 ∧ (decide (x < 0) ≠ decide (y < 0)) then some <$> fit ((x / y).toInt - 1)
    else return some (x / y)
  else return none

/-- `Word.floorMod` with every step watched that it takes without a check. -/
def floorMod (x y : Int64) : Except Trap (Option Int64) :=
  if Divides x y then
    if x % y ≠ 0 ∧ (decide (x % y < 0) ≠ decide (y < 0)) then
      some <$> fit ((x % y).toInt + y.toInt)
    else return some (x % y)
  else return none

variable {x y : Int64}

lemma fit_toInt (w : Int64) : fit w.toInt = .ok w := by
  rw [fit, ofInt?_eq_some.2 rfl]

lemma rem_eq (h : Divides x y) : rem x y = .ok (x % y) := by
  rw [rem, if_neg h.1, ← h.toInt_div, ← Int64.toInt_mod, fit_toInt, fit_toInt]
  rfl

lemma floorDiv_eq (x y : Int64) : floorDiv x y = .ok (Word.floorDiv x y) := by
  by_cases h : Divides x y
  · rw [floorDiv, Word.floorDiv, if_pos h, if_pos h, rem_eq h]
    by_cases hup : RoundsUp x.toInt y.toInt
    · have hsigns := roundsUp_iff.2 hup
      rw [if_pos hsigns, h.toInt_div, ← h.toInt_div_sub_one hup]
      change ite _ _ _ = _
      rw [if_pos hsigns, fit_toInt]
      rfl
    · have hsigns := mt roundsUp_iff.1 hup
      rw [if_neg hsigns]
      exact if_neg hsigns
  · rw [floorDiv, Word.floorDiv, if_neg h, if_neg h]
    rfl

lemma floorMod_eq (x y : Int64) : floorMod x y = .ok (Word.floorMod x y) := by
  by_cases h : Divides x y
  · rw [floorMod, Word.floorMod, if_pos h, if_pos h]
    by_cases hup : RoundsUp x.toInt y.toInt
    · have hsigns := remainder_roundsUp_iff.2 hup
      rw [if_pos hsigns, if_pos hsigns, Int64.toInt_mod, ← toInt_mod_add h.1 hup, fit_toInt]
      rfl
    · have hsigns := mt remainder_roundsUp_iff.1 hup
      rw [if_neg hsigns, if_neg hsigns]
      rfl
  · rw [floorMod, Word.floorMod, if_neg h, if_neg h]
    rfl

end Watched

end Word

/-- `Op.onWords` with every step watched that it takes without a check. Sums, differences and
products are checked, and the words that are joined bit by bit cannot overflow. -/
def Op.watched : Op → Int64 → Int64 → Except Word.Trap (Option Int64)
  | .div => Word.Watched.floorDiv
  | .mod => Word.Watched.floorMod
  | op => fun x y => .ok (op.onWords x y)

lemma Op.watched_eq (op : Op) (x y : Int64) : op.watched x y = .ok (op.onWords x y) := by
  cases op with
  | div => exact Word.Watched.floorDiv_eq x y
  | mod => exact Word.Watched.floorMod_eq x y
  | plus | minus | times | and | or => rfl

lemma fmod_bounds_of_neg {m n : Int} (hn : n < 0) : n < m.fmod n ∧ m.fmod n ≤ 0 := by
  have hnonneg := Int.fmod_nonneg_of_pos (-m) (Int.neg_pos_of_neg hn)
  have hlt := Int.fmod_lt_of_pos (-m) (Int.neg_pos_of_neg hn)
  rw [Int.neg_fmod_neg] at hnonneg hlt
  omega

/-- What rounding down leaves over is zero or has the sign of the divisor, and it is smaller. -/
lemma sign_fmod {m n : Int} (hn : n ≠ 0) :
    (m.fmod n = 0 ∨ (m.fmod n).sign = n.sign) ∧ (m.fmod n).natAbs < n.natAbs := by
  rcases Int.lt_or_gt_of_ne hn with hneg | hpos
  · obtain ⟨hlt, hle⟩ := fmod_bounds_of_neg (m := m) hneg
    refine ⟨(Int.lt_or_eq_of_le hle).symm.imp_right fun hsign => ?_, by omega⟩
    rw [Int.sign_eq_neg_one_of_neg hsign, Int.sign_eq_neg_one_of_neg hneg]
  · have hle := Int.fmod_nonneg_of_pos m hpos
    have hlt := Int.fmod_lt_of_pos m hpos
    refine ⟨(Int.lt_or_eq_of_le hle).symm.imp Eq.symm fun hsign => ?_, by omega⟩
    rw [Int.sign_eq_one_of_pos hsign, Int.sign_eq_one_of_pos hpos]

/-- **Exactness** of integer arithmetic: what it gives is the exact result, and a remainder has the
sign of the divisor, unless it is zero, and is smaller. None of the steps that are taken without a
check overflows or divides by zero, whatever the operands. -/
theorem evaluate_exact (op : Op) (hop : op ∈ Op.arithmetic) (x y : Int64) :
    (∀ t, evaluate (.int x) op (.int y) = some t →
      ∃ r : Int64, t = .int r ∧ op.onInts? x.toInt y.toInt = some r.toInt ∧
        (op = .mod →
          (r = 0 ∨ r.toInt.sign = y.toInt.sign) ∧ r.toInt.natAbs < y.toInt.natAbs)) ∧
    (op.watched x y).map (Option.map Term.int) = .ok (evaluate (.int x) op (.int y)) := by
  constructor
  · intro t ht
    rw [evaluate_ints] at ht
    obtain ⟨r, hr, rfl⟩ := Option.map_eq_some_iff.1 ht
    have hexact := ((onWords_eq_some hop).1 hr).1
    refine ⟨r, rfl, hexact, ?_⟩
    rintro rfl
    obtain ⟨hy, hmod⟩ := onInts?_mod.1 hexact
    have hsign := sign_fmod (m := x.toInt) (Word.toInt_ne_zero hy)
    rwa [hmod, ← Int64.toInt_zero, Int64.toInt_inj] at hsign
  · rw [Op.watched_eq, evaluate_ints]
    rfl

/-- Both signs of a quotient that is rounded, and of what is left over. -/
theorem evaluate_exact_signs :
    Op.div ∈ Op.arithmetic ∧ Op.mod ∈ Op.arithmetic ∧
    evaluate (.int 7) .div (.int (-2)) = some (.int (-4)) ∧
    Op.onInts? .div (7 : Int64).toInt (-2 : Int64).toInt = some (-4 : Int64).toInt ∧
    evaluate (.int (-7)) .mod (.int 3) = some (.int 2) ∧
    Op.onInts? .mod (-7 : Int64).toInt (3 : Int64).toInt = some (2 : Int64).toInt := by
  have hdiv : Op.div ∈ Op.arithmetic := by decide
  have hmod : Op.mod ∈ Op.arithmetic := by decide
  have hquotient : evaluate (.int 7) .div (.int (-2)) = some (.int (-4)) := by decide +kernel
  have hrest : evaluate (.int (-7)) .mod (.int 3) = some (.int 2) := by decide +kernel
  obtain ⟨_, hq, hexact, -⟩ := (evaluate_exact .div hdiv 7 (-2)).1 _ hquotient
  obtain ⟨_, hr, hleft, -⟩ := (evaluate_exact .mod hmod (-7) 3).1 _ hrest
  cases hq
  cases hr
  exact ⟨hdiv, hmod, hquotient, hexact, hrest, hleft⟩

end Relational
