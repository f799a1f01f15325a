import Relational.Proofs.Construction
import Relational.Proofs.Keeping
import Relational.Proofs.Parsing.Language

/-!
Finite floats. Reading checks the value of every numeral and the negative of a finite float is
finite; construction checks every float; and arithmetic has no result that is not finite. So
no float becomes infinite, or no number at all, by walking or constraining either.
-/

namespace Relational

/-! ### Floats -/

namespace Unpacked

open Float.Model Float.Model.UnpackedFloat

variable {b : BitVec Format.binary64.numBits} {u : UnpackedFloat}

/-- Zero, or a number with an exponent below that of infinity. -/
def Bounded : UnpackedFloat → Prop
  | .zero _ => True
  | .finite _ _ e _ => e + 1075 < 2047
  | .infinity _ | .notANumber => False

lemma Bounded.isFinite (h : Bounded u) : u.isFinite := by
  cases u with
  | zero | finite => rfl
  | infinity | notANumber => exact h.elim

lemma Bounded.neg (h : Bounded u) : Bounded u.neg := by
  cases u <;> exact h

/-- Only infinities and what is no number have all bits of the exponent set. -/
lemma unpackExponent_ne (h : (UnpackedFloat.unpack Format.binary64 b).isFinite) :
    unpackExponent b ≠ -BitVec.ofNat Format.binary64.exponentBits 1 := by
  intro hones
  delta UnpackedFloat.unpack at h
  rw [if_pos hones] at h
  by_cases hzero : unpackMantissa b = BitVec.ofNat Format.binary64.mantissaBitsWithoutImplicit 0
  · rw [if_pos hzero] at h
    cases h
  · rw [if_neg hzero] at h
    cases h

lemma bounded_unpack (h : unpackExponent b ≠ -BitVec.ofNat Format.binary64.exponentBits 1) :
    Bounded (UnpackedFloat.unpack Format.binary64 b) := by
  have hlt : (unpackExponent b).toNat < 2048 := (unpackExponent b).isLt
  have hne : (unpackExponent b).toNat ≠ 2047 := fun he => h (BitVec.eq_of_toNat_eq he)
  delta UnpackedFloat.unpack
  rw [if_neg h]
  by_cases hexponent : unpackExponent b = BitVec.ofNat Format.binary64.exponentBits 0
  · rw [if_pos hexponent]
    by_cases hzero : unpackMantissa b = BitVec.ofNat Format.binary64.mantissaBitsWithoutImplicit 0
    · rw [dif_pos hzero]
      trivial
    · rw [dif_neg hzero]
      change ((unpackExponent b).toNat : Int) - (1023 + 52) + 1 + 1075 < 2047
      rw [hexponent]
      decide
  · rw [if_neg hexponent]
    change ((unpackExponent b).toNat : Int) - (1023 + 52) + 1075 < 2047
    omega

lemma isFinite_pack (h : Bounded u) : (Float.Model.pack u).isFinite := by
  cases u with
  | infinity | notANumber => exact h.elim
  | zero s => cases s <;> rfl
  | finite s m e hm =>
    refine (bounded_unpack ?_).isFinite
    have hbias : e + Format.binary64.exponentBias + Format.binary64.mantissaBitsWithoutImplicit =
        e + 1075 := Int.add_assoc e 1023 52
    have hbound : e + 1075 < 2047 := h
    have hlt : ¬ 2 ^ Format.binary64.exponentBits ≤ (e + 1075).toNat + 1 := by
      change ¬ 2048 ≤ _
      omega
    change unpackExponent (UnpackedFloat.pack Format.binary64 (.finite s m e hm)) ≠ _
    delta UnpackedFloat.pack
    dsimp only
    rw [hbias, if_neg hlt]
    split_ifs
    · rw [unpackExponent_packComponents]
      intro he
      have hvalue := congrArg BitVec.toNat he
      simp at hvalue
      omega
    · rw [unpackExponent_packComponents]
      decide

/-- The other sign leaves the exponent as it is. -/
lemma isFinite_neg {x : Float} (h : x.isFinite) : (-x).isFinite :=
  isFinite_pack (bounded_unpack (unpackExponent_ne h)).neg

end Unpacked

namespace Term

lemma finite_pair {a b : Term} : (pair a b).finite ↔ a.finite ∧ b.finite := by
  simp [finite]

lemma finite_expr {a b : Term} {op : Op} : (expr a op b).finite ↔ a.finite ∧ b.finite := by
  simp [finite]

end Term

/-! ### Reading -/

lemma Decimal.isFinite_of_toFloat? {d : Decimal} {x : Float} (h : d.toFloat? = some x) :
    x.isFinite := by
  unfold toFloat? at h
  split_ifs at h
  · cases h
    decide +kernel
  · exact (Option.filter_eq_some_iff.1 h).2

namespace Text

lemma Token.finite {w : List Char} {t : Term} (h : Token w t) : t.finite := by
  cases h with
  | @float s m e ds negative fs n x hs hm he hp hx =>
    have hfinite := Decimal.isFinite_of_toFloat? hx
    cases negative with
    | false => exact hfinite
    | true => exact Unpacked.isFinite_neg hfinite
  | int | negative | text => rfl
  | name hc hs =>
    unfold named
    split_ifs <;> rfl

lemma compositional_finite : Term.Compositional (Term.finite · = true) where
  empty := rfl
  pair ha hb := Term.finite_pair.2 ⟨ha, hb⟩
  expr ha hb := Term.finite_expr.2 ⟨ha, hb⟩

end Text

/-! ### Construction -/

/-- The term is one of those among the value. -/
inductive Native.Embeds (u : Term) : Native → Prop where
  | term : Embeds u (.term u)
  | tuple {v : Native} {items : List Native} (hv : v ∈ items) (h : Embeds u v) :
      Embeds u (.tuple items)
  | list {v : Native} {items : List Native} (hv : v ∈ items) (h : Embeds u v) :
      Embeds u (.list items)

lemma Native.Denotes.finite {v : Native} {t : Term} (h : v.Denotes t)
    (hembeds : ∀ u, v.Embeds u → u.finite) : t.finite := by
  induction h with
  | none | bool | int | text | nil => rfl
  | float h => exact h
  | pair _ _ ihv ihw =>
    exact Term.finite_pair.2 ⟨ihv fun u hu => hembeds u (.tuple (.head _) hu),
      ihw fun u hu => hembeds u (.tuple (.tail _ (.head _)) hu)⟩
  | cons _ _ ihv ihvs =>
    refine Term.finite_pair.2 ⟨ihv fun u hu => hembeds u (.list (.head _) hu),
      ihvs fun u hu => ?_⟩
    cases hu with
    | list hw hu => exact hembeds u (.list (.tail _ hw) hu)
  | term t => exact hembeds t .term

/-- There are no terms among the value of a document. -/
lemma Document.Denotes.not_embeds {d : Document} {v : Native} (h : d.Denotes v) (u : Term) :
    ¬ v.Embeds u := by
  induction h with
  | null | bool | int | wide | float | text => intro hu; cases hu
  | nil =>
    intro hu
    cases hu with
    | list hw _ => simp at hw
  | cons _ _ ihd ihds =>
    intro hu
    cases hu with
    | list hw hu =>
      rcases List.mem_cons.1 hw with rfl | hw
      · exact ihd hu
      · exact ihds (.list hw hu)

/-! ### Arithmetic -/

namespace Scalar

lemma isFinite_of_floats {op : Op} {x y z : Float} (h : floats op x y = some z) : z.isFinite :=
  (Option.filter_eq_some_iff.1 h).2

/-- What arithmetic gives is finite, whatever it is given. -/
lemma finite_of_apply {a b w : Scalar} {op : Op} (h : a.apply op b = some w) : w.finite := by
  unfold apply at h
  split at h
  case h_11 =>
    -- numbers that are not both integers
    split at h
    · obtain ⟨z, hz, rfl⟩ := Option.map_eq_some_iff.1 h
      exact isFinite_of_floats hz
    · simp at h
  all_goals first
    | (obtain ⟨n, -, rfl⟩ := Option.map_eq_some_iff.1 h; rfl)
    | (cases h; rfl)

lemma closed_finite : Closed (finite · = true) where
  bool _ := rfl
  apply _ _ h := finite_of_apply h

end Scalar

lemma Term.closed_finite : Closed (finite · = true) :=
  closed_of_parts (fun _ => rfl) finite_pair finite_expr.1 (fun _ ha hb => finite_expr.2 ⟨ha, hb⟩)
    Scalar.closed_finite

/-- **Finite floats**: no float in a term that was read, or constructed from finite terms, or from
a document, is infinite or no number. And of finite terms no other ones come: not by evaluating or
solving an expression, not by walking, and not in any state, with circles or without, where
two terms are made equal. -/
theorem floats_finite :
    (∀ (text : String) (t : Term), Term.parse text = .ok t → t.finite) ∧
    (∀ (text : String) (q : Query), Query.parse text = .ok q → q.left.finite ∧ q.right.finite) ∧
    (∀ (v : Native) (t : Term), v.toTerm = .ok t → (∀ u, v.Embeds u → u.finite) → t.finite) ∧
    (∀ (d : Document) (t : Term), d.toTerm = .ok t → t.finite) ∧
    (∀ (a b : Term) (op : Op), a.finite → b.finite →
      (∀ t, evaluate a op b = some t → t.finite) ∧
      (∀ ts, solveLeft a op b = some ts → ∀ t ∈ ts, t.finite) ∧
      ∀ ts, solveRight a op b = some ts → ∀ t ∈ ts, t.finite) ∧
    ∀ s : State, s.bindings.All (·.finite) → ∀ a b : Term, a.finite → b.finite →
      (s.walk a).finite ∧ ∀ s' ∈ (s.unify a b).states.toList,
        s'.bindings.All (·.finite) ∧ ∀ t : Term, t.finite → (s'.walk t).finite := by
  have hwalk {s : State} {t : Term} (hs : s.bindings.All (·.finite)) (ht : t.finite) :
      (s.walk t).finite := hs.walk Term.closed_finite.toHereditary ht
  refine ⟨fun text t h => ?_, fun text q h => ?_, fun v t h hembeds => ?_, fun d t h => ?_,
    fun a b op ha hb => ⟨fun t h => ?_, fun ts h t ht => ?_, fun ts h t ht => ?_⟩,
    fun s hs a b ha hb => ⟨hwalk hs ha, fun s' h => ?_⟩⟩
  · exact Text.of_parse Text.compositional_finite (fun _ _ => Text.Token.finite) h
  · exact Text.of_parseQuery Text.compositional_finite (fun _ _ => Text.Token.finite) h
  · exact (Native.toTerm_eq_ok_iff.1 h).finite hembeds
  · obtain ⟨v, hv, ht⟩ := Document.toTerm_eq_ok_iff.1 h
    exact ht.finite fun u hu => absurd hu (hv.not_embeds u)
  · obtain ⟨m, n, w, rfl, rfl, hw, rfl⟩ := Term.evaluate_eq_some h
    exact Scalar.finite_of_apply hw
  · obtain ⟨k, r, w, rfl, rfl, rfl, hw⟩ := mem_solveLeft h ht
    exact hw.of_left Scalar.closed_finite ha hb
  · obtain ⟨k, r, w, rfl, rfl, rfl, hw⟩ := mem_solveRight h ht
    exact hw.of_right Scalar.closed_finite ha hb
  · have hs' := State.all_of_unify Term.closed_finite hs ha hb h
    exact ⟨hs', fun t ht => hwalk hs' ht⟩

/-- Here a negative numeral is read, a large integer becomes a float, a product gets a value, and a
float is solved for through a binding. -/
theorem floats_finite_solved :
    (∃ t : Term, Term.parse "-.5e1 | [1e308]" = .ok t ∧ t.finite) ∧
    (∃ q : Query, Query.parse "x * 1e308 != 10.0" = .ok q ∧ q.left.finite ∧ q.right.finite) ∧
    (∃ t : Term, Native.toTerm (.list [.float 0.5, .term (.float 2)]) = .ok t ∧ t.finite) ∧
    (∃ t : Term, Document.toTerm (.array [.int 9223372036854775808]) = .ok t ∧ t.finite) ∧
    (∃ t : Term, evaluate (.float 0.5) .times (.int 10) = some t ∧ t.finite) ∧
    ∃ s : State, s.bindings.All (·.finite) ∧
      ∃ s' ∈ (s.unify (.var ⟨"y"⟩) (.float 2)).states.toList, s'.bindings.All (·.finite) := by
  obtain ⟨hparse, hquery, hvalue, hdocument, harithmetic, hstate⟩ := floats_finite
  refine ⟨?_, ?_, ?_, ?_, ?_, ?_⟩
  · have hread : Term.parse "-.5e1 | [1e308]" =
        .ok (.expr (.float (-5)) .or (.pair (.float 1e308) .empty)) := by decide +kernel
    exact ⟨_, hread, hparse _ _ hread⟩
  · have hread : Query.parse "x * 1e308 != 10.0" =
        .ok ⟨.expr (.var ⟨"x"⟩) .times (.float 1e308), .differ, .float 10⟩ := by decide +kernel
    exact ⟨_, hread, hquery _ _ hread⟩
  · have hterm : Native.toTerm (.list [.float 0.5, .term (.float 2)]) =
        .ok (.ofList [.float 0.5, .float 2]) := by decide +kernel
    refine ⟨_, hterm, hvalue _ _ hterm fun u hu => ?_⟩
    cases hu with
    | list hv hu =>
      simp only [List.mem_cons, List.not_mem_nil, or_false] at hv
      rcases hv with rfl | rfl <;> cases hu
      decide +kernel
  · have hterm : Document.toTerm (.array [.int 9223372036854775808]) =
        .ok (.ofList [.float (.ofInt 9223372036854775808)]) := by decide +kernel
    exact ⟨_, hterm, hdocument _ _ hterm⟩
  · have hvalue : evaluate (.float 0.5) .times (.int 10) = some (.float 5) := by decide +kernel
    have hhalf : (Term.float 0.5).finite := by decide +kernel
    exact ⟨_, hvalue, (harithmetic (.float 0.5) (.int 10) .times hhalf rfl).1 _ hvalue⟩
  · let s := (State.root .global).extend (.single ⟨"y"⟩ (.expr (.var ⟨"x"⟩) .plus (.float 0.5)))
    have hs : s.bindings.All (·.finite) :=
      (Bindings.all_empty _).extend (Bindings.all_single (by decide +kernel))
    have hlength : (s.unify (.var ⟨"y"⟩) (.float 2)).states.toList.length = 1 := by decide +kernel
    obtain ⟨s', hs'⟩ := List.length_eq_one_iff.1 hlength
    have hmem : s' ∈ (s.unify (.var ⟨"y"⟩) (.float 2)).states.toList := by
      rw [hs']
      exact .head _
    exact ⟨s, hs, s', hmem, ((hstate s hs _ _ rfl (by decide +kernel)).2 s' hmem).1⟩

end Relational
