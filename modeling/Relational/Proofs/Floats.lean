import Mathlib.Algebra.Order.Ring.Int
import Mathlib.Algebra.Order.Ring.Nat
import Mathlib.Order.Defs.LinearOrder
import Mathlib.Tactic.Lemma

/-!
Floats as signs, mantissas and exponents. Two floats compare as equal when they are the same
number, and the two zeros are one number here. An integer whose absolute value is at most `2 ^ 53`
is the float of the same value, so that no two such integers are one float.
-/

namespace Relational.Unpacked

open Float.Model Float.Model.UnpackedFloat

/-! ### Comparison -/

/-- The two zeros compare as equal, and this is the first of them for both. -/
def unsignedZero : UnpackedFloat → UnpackedFloat
  | .zero _ => .zero .positive
  | u => u

lemma then_compare_eq_eq {d e : Int} {m n : Nat} :
    (compare d e).then (compare m n) = .eq ↔ d = e ∧ m = n := by
  rw [Ordering.then_eq_eq, Std.compare_eq_iff_eq, Std.compare_eq_iff_eq]

lemma finite_inj {s : Sign} {m n : Nat} {d e : Int} {hm : 0 < m} {hn : 0 < n} :
    UnpackedFloat.finite s m d hm = .finite s n e hn ↔ d = e ∧ m = n := by
  constructor
  · intro h
    cases h
    exact ⟨rfl, rfl⟩
  · rintro ⟨rfl, rfl⟩
    rfl

lemma compare_eq_eq {u v : UnpackedFloat} :
    u.compare v = some .eq ↔ u ≠ .notANumber ∧ unsignedZero u = unsignedZero v := by
  cases u with
  | notANumber => exact iff_of_false nofun fun h => h.1 rfl
  | infinity s =>
    cases v with
    | infinity t =>
      cases s <;> cases t
      · exact iff_of_true rfl ⟨nofun, rfl⟩
      · exact iff_of_false nofun nofun
      · exact iff_of_false nofun nofun
      · exact iff_of_true rfl ⟨nofun, rfl⟩
    | notANumber | zero | finite => cases s <;> exact iff_of_false nofun nofun
  | zero s =>
    cases v with
    | infinity t | finite t => cases t <;> exact iff_of_false nofun nofun
    | notANumber => exact iff_of_false nofun nofun
    | zero => exact iff_of_true rfl ⟨nofun, rfl⟩
  | finite s m d hm =>
    cases v with
    | infinity t => cases s <;> cases t <;> exact iff_of_false nofun nofun
    | notANumber | zero => cases s <;> exact iff_of_false nofun nofun
    | finite t n e hn =>
      -- numbers of one sign are compared by their exponents and then by their mantissas
      have hparts (s : Sign) : (UnpackedFloat.finite s m d hm ≠ .notANumber ∧
          unsignedZero (.finite s m d hm) = unsignedZero (.finite s n e hn)) ↔ d = e ∧ m = n :=
        (and_iff_right nofun).trans finite_inj
      cases s <;> cases t
      · rw [hparts]
        exact Option.some_inj.trans (Ordering.swap_eq_eq.trans then_compare_eq_eq)
      · exact iff_of_false nofun nofun
      · exact iff_of_false nofun nofun
      · rw [hparts]
        exact Option.some_inj.trans then_compare_eq_eq

lemma isNaN_iff {u : UnpackedFloat} : u.isNaN ↔ u = .notANumber := by
  cases u with
  | notANumber => exact iff_of_true rfl rfl
  | zero | finite | infinity => exact iff_of_false nofun nofun

/-- Floats are equal when both are numbers and they differ in nothing but the sign of a zero. -/
lemma beq_iff {x y : Float} :
    x == y ↔ ¬ x.isNaN ∧ unsignedZero x.toModel.unpack = unsignedZero y.toModel.unpack := by
  have hnan : x.isNaN ↔ x.toModel.unpack = .notANumber := isNaN_iff
  rw [hnan, ← ne_eq, ← compare_eq_eq]
  change (x.toModel.unpack.compare y.toModel.unpack == some .eq) = true ↔ _
  exact beq_iff_eq

lemma isNaN_unsignedZero (u : UnpackedFloat) : (unsignedZero u).isNaN = u.isNaN := by
  cases u <;> rfl

lemma beq_self {x : Float} : x == x ↔ ¬ x.isNaN :=
  beq_iff.trans (and_iff_left rfl)

lemma beq_symm {x y : Float} (h : x == y) : y == x := by
  obtain ⟨hx, hsame⟩ := beq_iff.1 h
  refine beq_iff.2 ⟨fun hy => hx ?_, hsame.symm⟩
  have hnan := congrArg UnpackedFloat.isNaN hsame
  rw [isNaN_unsignedZero, isNaN_unsignedZero] at hnan
  exact hnan.trans hy

lemma beq_trans {x y z : Float} (hxy : x == y) (hyz : y == z) : x == z := by
  rw [beq_iff] at hxy hyz ⊢
  exact ⟨hxy.1, hxy.2.trans hyz.2⟩

/-! ### Bits -/

variable {s : Sign} {m k : Nat} {e : Int}

lemma unpack_of_normal {b : BitVec Format.binary64.numBits}
    (hzero : unpackExponent b ≠ BitVec.ofNat Format.binary64.exponentBits 0)
    (hones : unpackExponent b ≠ -BitVec.ofNat Format.binary64.exponentBits 1) :
    ∃ h, UnpackedFloat.unpack .binary64 b = .finite (Sign.ofBitVec (unpackSign b))
      (BitVec.ofNat 1 1 ++ unpackMantissa b).toNat ((unpackExponent b).toNat - 1075) h := by
  delta UnpackedFloat.unpack
  dsimp only
  rw [if_neg hones, if_neg hzero]
  exact ⟨_, rfl⟩

lemma finite_congr {s t : Sign} {m n : Nat} {d e : Int} {hm : 0 < m} {hn : 0 < n} (hs : s = t)
    (hmantissa : m = n) (hexponent : d = e) :
    UnpackedFloat.finite s m d hm = .finite t n e hn := by
  subst hs hmantissa hexponent
  rfl

lemma unpackSign_packComponents (s : Sign) (x : BitVec Format.binary64.exponentBits)
    (f : BitVec Format.binary64.mantissaBitsWithoutImplicit) :
    unpackSign (packComponents .binary64 s x f) = s.toBitVec := by
  change (s.toBitVec ++ x ++ f).extractLsb' 63 1 = s.toBitVec
  rw [BitVec.extractLsb'_append_eq_of_le (by decide), BitVec.extractLsb'_append_eq_of_le (by decide)]
  cases s <;> rfl

lemma toNat_implicit (f : BitVec Format.binary64.mantissaBitsWithoutImplicit) :
    (BitVec.ofNat 1 1 ++ f).toNat = 2 ^ 52 + f.toNat := by
  rw [BitVec.toNat_append, BitVec.toNat_ofNat, Nat.shiftLeft_eq]
  exact (Nat.two_pow_add_eq_or_of_lt f.isLt 1).symm

/-! ### Rounding -/

/-- The mantissa takes all of its bits, as it does unless the number is very small. -/
def Full (m : Nat) : Prop := 2 ^ 52 ≤ m ∧ m < 2 ^ 53

lemma Full.pos (h : Full m) : 0 < m := by
  unfold Full at h
  omega

/-- Zeros at the end are shifted out without a loss. -/
lemma shiftRight_mul_two_pow (m k : Nat) :
    ExtendedMantissa.ofMantissaAndAccuracy (m * 2 ^ k) .exact >>> k = ⟨m, false, false⟩ := by
  induction k generalizing m with
  | zero => rw [pow_zero, mul_one]; rfl
  | succ k ih =>
    change ExtendedMantissa.shiftRightOne
      (ExtendedMantissa.ofMantissaAndAccuracy (m * 2 ^ (k + 1)) .exact >>> k) = _
    rw [pow_succ', ← mul_assoc, ih]
    change ExtendedMantissa.mk (m * 2 / 2) (m * 2 % 2 != 0) (false || false) = _
    rw [Nat.mul_div_cancel _ Nat.two_pos, Nat.mul_mod_left]
    rfl

lemma Full.log2_mul (h : Full m) (k : Nat) : (m * 2 ^ k).log2 = 52 + k := by
  rw [Nat.log2_eq_iff (Nat.mul_pos h.pos (Nat.two_pow_pos k)).ne', pow_add,
    Nat.add_right_comm, pow_add]
  exact ⟨Nat.mul_le_mul_right _ h.1, Nat.mul_lt_mul_of_pos_right h.2 (Nat.two_pow_pos k)⟩

lemma Full.shift (h : Full m) (he : -1074 ≤ e) (k : Nat) :
    shiftToTargetExponent .binary64 (m * 2 ^ k) (e - k) .exact = (⟨m, false, false⟩, e) := by
  have htarget : Format.binary64.targetExponent (totalExponent (m * 2 ^ k) (e - k)) = e := by
    change max (((m * 2 ^ k).log2 : Int) + 1 + (e - k) - 53) (-1074) = e
    rw [h.log2_mul]
    omega
  have hk : (e - (e - k)).toNat = k := by omega
  change shiftToExponent _ _ _ (Format.binary64.targetExponent (totalExponent _ _)) = _
  rw [htarget]
  change (ExtendedMantissa.ofMantissaAndAccuracy (m * 2 ^ k) .exact >>> (e - (e - k)).toNat,
    e - k + ((e - (e - k)).toNat : Int)) = _
  rw [hk, shiftRight_mul_two_pow, sub_add_cancel]

/-- A number whose mantissa has no more bits than fit, but for zeros at the end, is not rounded. -/
lemma Full.round (h : Full m) (he : -1074 ≤ e) (s : Sign) (k : Nat) :
    roundWithAccuracy .binary64 s (m * 2 ^ k) (e - k) .exact = .finite s m e h.pos := by
  have hagain : shiftToTargetExponent .binary64 m e .exact = (⟨m, false, false⟩, e) := by
    simpa using h.shift he 0
  have hrounded : (⟨m, false, false⟩ : ExtendedMantissa).roundedMantissa = m := rfl
  delta roundWithAccuracy
  rw [h.shift he k]
  dsimp only
  rw [hrounded, hagain]
  exact dif_neg h.pos.ne'

lemma Full.pack_eq (h : Full m) (he' : e ≤ 971) (s : Sign) :
    UnpackedFloat.pack .binary64 (.finite s m e h.pos) =
      packComponents .binary64 s (BitVec.ofNat Format.binary64.exponentBits (e + 1075).toNat)
        (BitVec.ofNat Format.binary64.mantissaBitsWithoutImplicit m) := by
  have hbias : e + Format.binary64.exponentBias + Format.binary64.mantissaBitsWithoutImplicit =
      e + 1075 := Int.add_assoc e 1023 52
  have hlt : ¬ 2 ^ Format.binary64.exponentBits ≤ (e + 1075).toNat + 1 := by
    change ¬ 2048 ≤ _
    omega
  have hlog : m.log2 = 52 := by simpa using h.log2_mul 0
  delta UnpackedFloat.pack
  dsimp only
  rw [hbias, if_neg hlt, hlog]
  exact if_pos rfl

/-- A number with all bits of the mantissa is read back from its bits as it was. -/
lemma Full.unpack_pack (h : Full m) (he : -1074 ≤ e) (he' : e ≤ 971) (s : Sign) :
    (Float.Model.pack (.finite s m e h.pos)).unpack = .finite s m e h.pos := by
  obtain ⟨b, hb⟩ : ∃ b, b = UnpackedFloat.pack .binary64 (.finite s m e h.pos) := ⟨_, rfl⟩
  rw [h.pack_eq he'] at hb
  have hexponent : (unpackExponent b).toNat = (e + 1075).toNat := by
    rw [hb, unpackExponent_packComponents, BitVec.toNat_ofNat]
    exact Nat.mod_eq_of_lt (show (e + 1075).toNat < 2048 by omega)
  have hmantissa : (BitVec.ofNat 1 1 ++ unpackMantissa b).toNat = m := by
    rw [toNat_implicit, hb, unpackMantissa_packComponents, BitVec.toNat_ofNat]
    change 2 ^ 52 + m % 2 ^ 52 = m
    have := h.1
    have := h.2
    omega
  have hsign : Sign.ofBitVec (unpackSign b) = s := by
    rw [hb, unpackSign_packComponents]
    cases s <;> rfl
  have hzero : unpackExponent b ≠ BitVec.ofNat Format.binary64.exponentBits 0 := by
    intro heq
    rw [heq] at hexponent
    change 0 = _ at hexponent
    omega
  have hones : unpackExponent b ≠ -BitVec.ofNat Format.binary64.exponentBits 1 := by
    intro heq
    rw [heq] at hexponent
    change 2047 = _ at hexponent
    omega
  obtain ⟨hpos, hunpack⟩ := unpack_of_normal hzero hones
  change UnpackedFloat.unpack .binary64 (UnpackedFloat.pack .binary64 _) = _
  rw [h.pack_eq he', ← hb, hunpack]
  exact finite_congr hsign hmantissa (by omega)

/-! ### Floats of integers -/

lemma log2_le {n : Nat} (hn : n ≠ 0) (h : n < 2 ^ 53) : n.log2 ≤ 52 :=
  Nat.lt_succ_iff.1 ((Nat.log2_lt hn).2 h)

/-- The digits of a number, moved up to the first bit of a mantissa. -/
def fill (n : Nat) : Nat := n * 2 ^ (52 - n.log2)

lemma full_fill {n : Nat} (hn : n ≠ 0) (h : n < 2 ^ 53) : Full (fill n) := by
  have hlog := log2_le hn h
  have hlow := Nat.mul_le_mul_right (2 ^ (52 - n.log2)) (Nat.log2_self_le hn)
  have hhigh := Nat.mul_lt_mul_of_pos_right (Nat.lt_log2_self (n := n)) (Nat.two_pow_pos (52 - n.log2))
  rw [← pow_add] at hlow hhigh
  rw [Nat.add_sub_cancel' hlog] at hlow
  rw [Nat.add_right_comm, Nat.add_sub_cancel' hlog] at hhigh
  exact ⟨hlow, hhigh⟩

lemma ofNat_eq {n : Nat} (hn : n ≠ 0) (h : n < 2 ^ 53) :
    UnpackedFloat.ofNat .binary64 n =
      .finite .positive (fill n) (n.log2 - 52) (full_fill hn h).pos := by
  have hlog := log2_le hn h
  have htarget : Format.binary64.targetExponent (totalExponent n 0) = (n.log2 : Int) - 52 := by
    change max ((n.log2 : Int) + 1 + 0 - 53) (-1074) = _
    omega
  have hdecrease : decreaseExponent n 0 (n.log2 - 52) = (fill n, (n.log2 : Int) - 52) := by
    change (n <<< (0 - ((n.log2 : Int) - 52)).toNat,
      (0 : Int) - ((0 - ((n.log2 : Int) - 52)).toNat : Int)) = _
    have hshift : (0 - ((n.log2 : Int) - 52)).toNat = 52 - n.log2 := by omega
    rw [hshift, Nat.shiftLeft_eq, fill]
    congr 1
    omega
  have hround : UnpackedFloat.round .binary64 .positive n 0 =
      roundWithAccuracy .binary64 .positive (fill n) (n.log2 - 52) .exact := by
    delta UnpackedFloat.round
    dsimp only
    rw [htarget, hdecrease]
  have hcompare : compare (n : Int) 0 = .gt := Int.compare_eq_gt.2 (by omega)
  delta UnpackedFloat.ofNat UnpackedFloat.ofInt UnpackedFloat.normalize
  rw [hcompare, Int.toNat_natCast, hround]
  have hfull := (full_fill hn h).round (e := (n.log2 : Int) - 52) (by omega) .positive 0
  rw [pow_zero, mul_one, Nat.cast_zero, sub_zero] at hfull
  exact hfull

lemma unpack_ofUInt64 {n : Nat} (hn : n ≠ 0) (h : n < 2 ^ 53) :
    (Float.Model.ofUInt64 n.toUInt64).unpack =
      .finite .positive (fill n) (n.log2 - 52) (full_fill hn h).pos := by
  have hlog := log2_le hn h
  have hnat : n.toUInt64.toNat = n := Nat.mod_eq_of_lt (show n < 18446744073709551616 by omega)
  change (Float.Model.pack (UnpackedFloat.ofNat .binary64 n.toUInt64.toNat)).unpack = _
  rw [hnat, ofNat_eq hn h]
  exact (full_fill hn h).unpack_pack (by omega) (by omega) .positive

/-- An integer with no more bits than a mantissa is the float of the same value. -/
lemma unpack_ofNat {n : Nat} (hn : n ≠ 0) (h : n < 2 ^ 53) :
    (Float.ofNat n).toModel.unpack =
      .finite .positive (fill n) (n.log2 - 52) (full_fill hn h).pos := by
  have hlog := log2_le hn h
  have hone : (Float.exactlyRepresentablePowersOfTen[0]).toModel.unpack =
      .finite .positive (2 ^ 52) (-52) (by decide) := rfl
  have hproduct : Float.ofNat n =
      n.toUInt64.toFloat * Float.exactlyRepresentablePowersOfTen[0] :=
    dif_pos ⟨h, by decide⟩
  rw [hproduct]
  change (Float.Model.pack (UnpackedFloat.mul .binary64 (Float.Model.ofUInt64 n.toUInt64).unpack
    (Float.exactlyRepresentablePowersOfTen[0]).toModel.unpack)).unpack = _
  rw [unpack_ofUInt64 hn h, hone]
  change (Float.Model.pack (roundWithAccuracy .binary64 .positive (fill n * 2 ^ 52)
    ((n.log2 : Int) - 52 + -52) .exact)).unpack = _
  have hexponent : (n.log2 : Int) - 52 + -52 = n.log2 - 52 - (52 : Nat) := by omega
  rw [hexponent, (full_fill hn h).round (by omega)]
  exact (full_fill hn h).unpack_pack (by omega) (by omega) .positive

/-- A finite number with all bits of its mantissa, of the sign and with the absolute value. -/
inductive Exactly (s : Sign) (n : Nat) : UnpackedFloat → Prop where
  | mk {m : Nat} {e : Int} (h : Full m) (he : -1074 ≤ e) (he' : e ≤ 971)
      (hvalue : n * 2 ^ 52 = m * 2 ^ (e + 52).toNat) : Exactly s n (.finite s m e h.pos)

lemma exactly_ofNat {n : Nat} (hn : n ≠ 0) (h : n ≤ 2 ^ 53) :
    Exactly .positive n (Float.ofNat n).toModel.unpack := by
  rcases Nat.lt_or_eq_of_le h with hlt | rfl
  · have hlog := log2_le hn hlt
    rw [unpack_ofNat hn hlt]
    refine .mk (full_fill hn hlt) (by omega) (by omega) ?_
    rw [fill, Int.sub_add_cancel, Int.toNat_natCast, mul_assoc, ← pow_add,
      Nat.sub_add_cancel hlog]
  · have hunpack : (Float.ofNat (2 ^ 53)).toModel.unpack =
        .finite .positive (2 ^ 52) 1 (by decide) := rfl
    rw [hunpack]
    exact .mk ⟨le_rfl, by decide⟩ (by decide) (by decide) (by decide)

lemma Exactly.neg {n : Nat} {u : UnpackedFloat} (h : Exactly s n u) :
    Exactly (-s) n (Float.Model.pack u.neg).unpack := by
  obtain ⟨h, he, he', hvalue⟩ := h
  change Exactly (-s) n (Float.Model.pack (.finite (-s) _ _ h.pos)).unpack
  rw [h.unpack_pack he he']
  exact .mk h he he' hvalue

lemma Exactly.unique {t : Sign} {n k : Nat} {u v : UnpackedFloat} (hu : Exactly s n u)
    (hv : Exactly t k v) (h : unsignedZero u = unsignedZero v) : s = t ∧ n = k := by
  obtain ⟨hu, -, -, hn⟩ := hu
  obtain ⟨hv, -, -, hk⟩ := hv
  cases h
  exact ⟨rfl, Nat.eq_of_mul_eq_mul_right (Nat.two_pow_pos 52) (hn.trans hk.symm)⟩

/-- The sign of an integer; zero counts as positive. -/
def signOf (i : Int) : Sign := if i < 0 then .negative else .positive

lemma exactly_ofInt {i : Int} (hi : i ≠ 0) (h : i.natAbs ≤ 2 ^ 53) :
    Exactly (signOf i) i.natAbs (Float.ofInt i).toModel.unpack := by
  cases i with
  | ofNat n => exact exactly_ofNat (fun hn => hi (congrArg Int.ofNat hn)) h
  | negSucc n =>
    have hsign : signOf (.negSucc n) = -.positive := if_pos (Int.negSucc_lt_zero n)
    rw [hsign]
    exact (exactly_ofNat n.succ_ne_zero h).neg

lemma Exactly.ne_zero {n : Nat} {u : UnpackedFloat} (h : Exactly s n u) :
    unsignedZero u ≠ .zero .positive := by
  obtain ⟨h, -, -, -⟩ := h
  exact nofun

/-- Integers of this size are equal as floats only if they are the same. -/
lemma ofInt_beq_ofInt {i j : Int} (hi : i.natAbs ≤ 2 ^ 53) (hj : j.natAbs ≤ 2 ^ 53)
    (h : Float.ofInt i == Float.ofInt j) : i = j := by
  have hzero : unsignedZero (Float.ofInt 0).toModel.unpack = .zero .positive := rfl
  have hsame := (beq_iff.1 h).2
  by_cases hi0 : i = 0
  · rw [hi0, hzero] at hsame
    by_cases hj0 : j = 0
    · rw [hi0, hj0]
    · exact absurd hsame.symm (exactly_ofInt hj0 hj).ne_zero
  · by_cases hj0 : j = 0
    · rw [hj0, hzero] at hsame
      exact absurd hsame (exactly_ofInt hi0 hi).ne_zero
    · obtain ⟨hsign, habs⟩ := (exactly_ofInt hi0 hi).unique (exactly_ofInt hj0 hj) hsame
      unfold signOf at hsign
      split_ifs at hsign <;> omega

end Relational.Unpacked
