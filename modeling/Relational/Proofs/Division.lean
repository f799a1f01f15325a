import Relational.Proofs.Solving

/-!
Division of words. The quotient rounded toward zero, less one when that was up, is the quotient
rounded down; and a division by what is not zero fails only when this quotient does not fit. The
remainder of it takes the sign of the divisor, and it fails in the same cases, although every
remainder fits.
-/

namespace Relational.Word

variable {x y : Int64}

lemma toInt_eq_zero : y.toInt = 0 ↔ y = 0 := by
  rw [← Int64.toInt_inj, Int64.toInt_zero]

lemma toInt_ne_zero (h : y ≠ 0) : y.toInt ≠ 0 := mt toInt_eq_zero.1 h

/-- Rounding the quotient toward zero is rounding it up. -/
def RoundsUp (m n : Int) : Prop := m.tmod n ≠ 0 ∧ ¬(m < 0 ↔ n < 0)

instance (m n : Int) : Decidable (RoundsUp m n) := inferInstanceAs (Decidable (_ ∧ _))

lemma roundsUp_iff :
    (x % y ≠ 0 ∧ decide (x < 0) ≠ decide (y < 0)) ↔ RoundsUp x.toInt y.toInt := by
  have hmod : x % y = 0 ↔ x.toInt.tmod y.toInt = 0 := by
    rw [← Int64.toInt_mod, toInt_eq_zero]
  simp [RoundsUp, hmod, Int64.lt_iff_toInt_lt]

lemma fdiv_eq {m n : Int} (hn : n ≠ 0) :
    m.fdiv n = m.tdiv n - if RoundsUp m n then 1 else 0 := by
  have hdvd : n ∣ m ↔ m.tmod n = 0 := Int.dvd_iff_tmod_eq_zero
  rw [Int.fdiv_eq_tdiv]
  unfold RoundsUp
  rcases Int.lt_or_gt_of_ne hn with hneg | hpos
  · rw [Int.sign_eq_neg_one_of_neg hneg]
    split_ifs <;> omega
  · rw [Int.sign_eq_one_of_pos hpos]
    split_ifs <;> omega

lemma Divides.toInt_div (h : Divides x y) : (x / y).toInt = x.toInt.tdiv y.toInt := by
  by_cases hx : x = Int64.minValue
  · exact Int64.toInt_div_of_ne_right x y fun hy => h.2 ⟨hx, hy⟩
  · exact Int64.toInt_div_of_ne_left x y hx

/-- A quotient that was rounded up is far from the limits, because the divisor is no unit. -/
lemma Divides.toInt_div_sub_one (h : Divides x y) (hup : RoundsUp x.toInt y.toInt) :
    (x / y - 1).toInt = x.toInt.tdiv y.toInt - 1 := by
  have hunit : 2 ≤ y.toInt.natAbs := by
    refine Nat.lt_of_not_le fun hle => hup.1 ?_
    have hne := toInt_ne_zero h.1
    have hone : y.toInt = 1 ∨ y.toInt = -1 := by omega
    rcases hone with he | he <;> rw [he]
    · exact Int.tmod_one _
    · rw [Int.tmod_neg, Int.tmod_one]
  have hhalf : (x.toInt.tdiv y.toInt).natAbs ≤ x.toInt.natAbs / 2 := by
    rw [Int.natAbs_tdiv]
    exact Nat.div_le_div_left hunit (by decide)
  have hmin := x.minValue_le_toInt
  have hmax := x.toInt_le
  rw [Int64.toInt_minValue] at hmin
  rw [Int64.toInt_maxValue] at hmax
  rw [Int64.toInt_sub, h.toInt_div, Int64.toInt_one]
  exact Int.bmod_eq_of_le (by omega) (by omega)

/-- **Rounding down**: dividing by what is not zero gives the floor of the quotient, if it fits. -/
lemma floorDiv_eq_ofInt? (hy : y ≠ 0) : floorDiv x y = ofInt? (x.toInt.fdiv y.toInt) := by
  by_cases h : Divides x y
  · rw [floorDiv, if_pos h, fdiv_eq (toInt_ne_zero hy)]
    by_cases hup : RoundsUp x.toInt y.toInt
    · rw [if_pos hup, if_pos (roundsUp_iff.2 hup)]
      exact (ofInt?_eq_some.2 (h.toInt_div_sub_one hup)).symm
    · rw [if_neg hup, if_neg fun hsigns => hup (roundsUp_iff.1 hsigns), Int.sub_zero]
      exact (ofInt?_eq_some.2 h.toInt_div).symm
  · -- only this quotient does not fit
    obtain ⟨rfl, rfl⟩ : x = Int64.minValue ∧ y = -1 := Decidable.not_not.1 fun hne => h ⟨hy, hne⟩
    decide

lemma floorDiv_eq_some (hy : y ≠ 0) {q : Int64} :
    floorDiv x y = some q ↔ q.toInt = x.toInt.fdiv y.toInt := by
  rw [floorDiv_eq_ofInt? hy, ofInt?_eq_some]

/-! ### Remainders -/

lemma natAbs_tmod_lt {m n : Int} (hn : n ≠ 0) : (m.tmod n).natAbs < n.natAbs := by
  rw [Int.natAbs_tmod]
  exact Nat.mod_lt _ (by omega)

/-- A remainder that is not zero has the sign of the dividend. -/
lemma tmod_neg_iff {m n : Int} (h : m.tmod n ≠ 0) : m.tmod n < 0 ↔ m < 0 := by
  constructor
  · intro hneg
    exact Int.not_le.1 fun hm => Int.not_le.2 hneg (Int.tmod_nonneg n hm)
  · intro hm
    have hopposite := Int.tmod_nonneg n (show 0 ≤ -m by omega)
    rw [Int.neg_tmod] at hopposite
    omega

lemma remainder_roundsUp_iff :
    (x % y ≠ 0 ∧ decide (x % y < 0) ≠ decide (y < 0)) ↔ RoundsUp x.toInt y.toInt := by
  rw [← roundsUp_iff]
  refine and_congr_right fun hne => ?_
  have hmod : x.toInt.tmod y.toInt ≠ 0 := Int64.toInt_mod x y ▸ toInt_ne_zero hne
  have hsign : x % y < 0 ↔ x < 0 := by
    simpa only [Int64.lt_iff_toInt_lt, Int64.toInt_mod, Int64.toInt_zero] using tmod_neg_iff hmod
  rw [decide_eq_decide.2 hsign]

lemma fmod_eq {m n : Int} (hn : n ≠ 0) :
    m.fmod n = m.tmod n + if RoundsUp m n then n else 0 := by
  rw [Int.fmod_def, Int.tmod_def, fdiv_eq hn]
  split_ifs
  · rw [Int.mul_sub]
    omega
  · rw [Int.sub_zero, Int.add_zero]

/-- A remainder that is moved to the sign of the divisor lies between it and zero. -/
lemma toInt_mod_add (hy : y ≠ 0) (hup : RoundsUp x.toInt y.toInt) :
    (x % y + y).toInt = x.toInt.tmod y.toInt + y.toInt := by
  have hlt := natAbs_tmod_lt (m := x.toInt) (toInt_ne_zero hy)
  have hsign := tmod_neg_iff hup.1
  have hopposite := hup.2
  have hmin := y.minValue_le_toInt
  have hmax := y.toInt_le
  rw [Int64.toInt_minValue] at hmin
  rw [Int64.toInt_maxValue] at hmax
  rw [Int64.toInt_add, Int64.toInt_mod]
  exact Int.bmod_eq_of_le (by omega) (by omega)

/-- The remainder of rounding down, for words that can be divided. -/
lemma floorMod_eq_some {r : Int64} :
    floorMod x y = some r ↔ Divides x y ∧ r.toInt = x.toInt.fmod y.toInt := by
  by_cases h : Divides x y
  · rw [floorMod, if_pos h, fmod_eq (toInt_ne_zero h.1), and_iff_right h]
    by_cases hup : RoundsUp x.toInt y.toInt
    · rw [if_pos hup, if_pos (remainder_roundsUp_iff.2 hup), Option.some_inj,
        ← toInt_mod_add h.1 hup, Int64.toInt_inj, eq_comm]
    · rw [if_neg hup, if_neg fun hsigns => hup (remainder_roundsUp_iff.1 hsigns), Option.some_inj,
        Int.add_zero, ← Int64.toInt_mod, Int64.toInt_inj, eq_comm]
  · simp [floorMod, h]

end Relational.Word
