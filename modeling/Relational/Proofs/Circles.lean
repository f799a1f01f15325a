import Relational.Proofs.Constraining
import Relational.Proofs.Locality

/-!
Bindings with circles. No run comes to them, but a state may be given such bindings. Constraining
it ends as long as the terms lead to no circle. On a circle the walk stops, and yet matching need
not end: the guard of the walk knows the variables of one walk only, and every field of a pair is
walked anew.
-/

namespace Relational

namespace Bindings

variable {V : Var → Prop} {s : Bindings}

/-! ### Away from the circles -/

open Classical in
/-- The bindings of these variables only. -/
noncomputable def restrict (s : Bindings) (V : Var → Prop) : Bindings :=
  s.filter fun x _ => decide (V x)

lemma restrict_eq_some {x : Var} {t : Term} :
    (s.restrict V)[x]? = some t ↔ V x ∧ s[x]? = some t := by
  simp only [restrict, Std.ExtTreeMap.getElem?_filter', Option.filter_eq_some_iff,
    decide_eq_true_eq, and_comm]

lemma agree_restrict (hV : ∀ x y, V x → s.Refers x y → V y) : Agree V s (s.restrict V) where
  same x hx := Option.ext fun t => by simp [restrict_eq_some, hx]
  closed x t hx ht y hy := hV x y hx ⟨t, ht, hy⟩

lemma acyclic_restrict (h : ∀ x, V x → ¬ s.Reaches x x) : (s.restrict V).Acyclic := by
  intro x hx
  have hrefers : ∀ y z, (s.restrict V).Refers y z → V y ∧ s.Refers y z := by
    rintro y z ⟨t, ht, hz⟩
    obtain ⟨hy, ht⟩ := restrict_eq_some.1 ht
    exact ⟨hy, t, ht, hz⟩
  obtain ⟨y, hxy, -⟩ := Relation.TransGen.head'_iff.1 hx
  exact h x (hrefers x y hxy).1
    (Relation.TransGen.mono (fun y z hyz => (hrefers y z hyz).2) x x hx)

/-- The term leads to no variable that reaches itself. -/
def OffCircles (s : Bindings) (t : Term) : Prop :=
  ∀ x ∈ t.vars, ∀ y, Relation.ReflTransGen s.Refers x y → ¬ s.Reaches y y

lemma OffCircles.normal_walk {t : Term} (h : s.OffCircles t) : s.Normal (s.walk t) := by
  -- the walk sees the bindings of the variables that the term leads to, which have no circle
  let V : Var → Prop := fun y => ∃ x ∈ t.vars, Relation.ReflTransGen s.Refers x y
  have hagree : Agree V s (s.restrict V) :=
    agree_restrict fun y z ⟨x, hx, hxy⟩ hyz => ⟨x, hx, hxy.tail hyz⟩
  have hacyclic : (s.restrict V).Acyclic := acyclic_restrict fun y ⟨x, hx, hxy⟩ => h x hx y hxy
  have hover : Over V t := fun x hx => ⟨x, hx, .refl⟩
  refine ⟨fun y hy => ?_, reduced_walk s t⟩
  rw [hagree.same y (hagree.over_walk hover y hy)]
  rw [hagree.walk_eq hover] at hy
  exact hacyclic.free_walk t y hy

lemma not_reaches_of_none {x y : Var} (hx : s[x]? = none) : ¬ s.Reaches x y := by
  intro h
  obtain ⟨z, ⟨t, ht, -⟩, -⟩ := Relation.TransGen.head'_iff.1 h
  simp [hx] at ht

lemma offCircles_of_none {t : Term} (h : ∀ x ∈ t.vars, s[x]? = none) : s.OffCircles t := by
  intro x hx y hxy
  rcases Relation.reflTransGen_iff_eq_or_transGen.1 hxy with rfl | hreach
  · exact not_reaches_of_none (h y hx)
  · exact absurd hreach (not_reaches_of_none (h x hx))

/-! ### On a circle -/

variable {x : Var} {v : Scalar}

lemma walk_of_circle (hx : s[x]? = some (.pair (.value v) (.var x))) :
    s.walk (.var x) = .pair (.value v) (.var x) := by
  obtain ⟨m, -, he⟩ := (trail_nil s).resolve_of_some (x := x) (by simp) hx
  change s.resolve s.size [] x = _
  rw [he, Term.instantiate, Term.instantiate, Term.instantiate, resolve_of_mem (.head _)]

/-- A value agrees with itself, unless the limits are used up before. -/
lemma matchIn_self (s : Bindings) (hv : v.equal v) (rounds depth : ℕ) :
    matchIn (matchRounds rounds) depth s (.value v) (.value v) = ([], some .cut) ∨
      matchIn (matchRounds rounds) depth s (.value v) (.value v) = .agree := by
  have hstep : ∀ again, matchStep again s (.value v) (.value v) = .agree := fun again =>
    if_pos hv
  cases depth with
  | succ depth => exact .inr (hstep (matchIn (matchRounds rounds) depth))
  | zero =>
    cases rounds with
    | zero => exact .inl rfl
    | succ rounds => exact .inr (hstep (matchIn (matchRounds rounds) 1))

/-- Matching the term of `x` comes back to matching it. -/
lemma matchStep_of_circle (hx : s[x]? = some (.pair (.value v) (.var x))) {again : Matcher}
    (hvalue : again s (.value v) (.value v) = ([], some .cut) ∨
      again s (.value v) (.value v) = .agree)
    (hpair : again s (.pair (.value v) (.var x)) (.pair (.value v) (.var x)) =
      ([], some .cut)) :
    matchStep again s (.pair (.value v) (.var x)) (.pair (.value v) (.var x)) =
      ([], some .cut) := by
  change ((again s (.value v) (.value v)).search.bind fun d =>
    fieldSearch again (s.extend d) d [(.var x, .var x)]).opening = _
  rcases hvalue with hcut | hagree
  · rw [hcut]
    rfl
  · have hfields : fieldSearch again s ∅ [(.var x, .var x)] = .cut := by
      simp [fieldSearch, walk_of_circle hx, hpair, Term.faults, Matching.search, Search.notes,
        Search.bind]
    rw [hagree]
    simp [Matching.agree, Matching.search, Search.notes, Search.single, Search.bind,
      extend_empty, hfields, Search.append, Search.opening]

/-- **Endlessness**: no number of rounds and no depth is enough to match `x` with itself when it
is bound to a value followed by itself. -/
theorem matchIn_of_circle (hx : s[x]? = some (.pair (.value v) (.var x))) (hv : v.equal v)
    (rounds depth : ℕ) :
    matchIn (matchRounds rounds) depth s (s.walk (.var x)) (s.walk (.var x)) =
      ([], some .cut) := by
  rw [walk_of_circle hx]
  induction rounds generalizing depth with
  | zero =>
    induction depth with
    | zero => rfl
    | succ depth ih => exact matchStep_of_circle hx (matchIn_self s hv 0 depth) ih
  | succ rounds ih =>
    induction depth with
    | zero => exact ih _
    | succ depth ih' => exact matchStep_of_circle hx (matchIn_self s hv (rounds + 1) depth) ih'

end Bindings

namespace State

open Bindings (OffCircles)

/-- **Totality off the circles**: whatever is bound, constraining a state ends when its terms
lead to no circle, and what comes of it is what the walked terms need under no bindings. -/
theorem constrain_offCircles (s : State) (a b : Term) (ha : s.bindings.OffCircles a)
    (hb : s.bindings.OffCircles b) :
    (s.unify a b).states.Complete ∧ (s.disunify a b).states.Complete ∧
    ∃ ds, Ways ∅ (s.walk a) (s.walk b) ds ∧
      (s.unify a b).states.toList = ds.map s.extend ∧
      (s.disunify a b).states.toList = if ds = [] then [s] else [] := by
  have hready : Ready ∅ (s.walk a) (s.walk b) :=
    ⟨Bindings.acyclic_empty, ⟨fun x _ => by simp, ha.normal_walk.reduced⟩,
      ⟨fun x _ => by simp, hb.normal_walk.reduced⟩⟩
  obtain ⟨ds, hds⟩ := exists_ways hready
  have hfinds : (s.bindings.matchTerms (s.walk a) (s.walk b)).Finds ds := by
    have hlocal := matchTerms_eq_of_normal ha.normal_walk hb.normal_walk
    simp only [walk] at hds hready ⊢
    rw [hlocal]
    exact meets_matchTerms hready ds hds
  obtain ⟨hu, hut⟩ := unify_of_finds hfinds
  obtain ⟨hd, hdt⟩ := disunify_of_finds hfinds
  exact ⟨hu, hd, ds, hds, hut, hdt⟩

/-- A state in which `x` is a list of ones without end. -/
def circling : State := (root .global).extend (.single ⟨"x"⟩ (.pair (.int 1) (.var ⟨"x"⟩)))

lemma circling_self :
    circling.bindings[(⟨"x"⟩ : Var)]? = some (.pair (.int 1) (.var ⟨"x"⟩)) := by
  simp [circling, extend, Bindings.getElem?_extend_single]

lemma circling_of_ne {y : Var} (h : y ≠ ⟨"x"⟩) : circling.bindings[y]? = none := by
  have hfresh : (root .global).bindings[y]? = none := by simp [root]
  simp [circling, extend, Bindings.getElem?_extend_single, h.symm, hfresh]

/-- Beside the circle all is as ever. -/
theorem constrain_offCircles_circling :
    circling.bindings.Reaches ⟨"x"⟩ ⟨"x"⟩ ∧
    circling.bindings.OffCircles (.pair (.var ⟨"y"⟩) (.var ⟨"z"⟩)) ∧
    circling.bindings.OffCircles (.pair (.int 1) (.expr (.var ⟨"y"⟩) .plus (.int 1))) ∧
    (circling.unify (.pair (.var ⟨"y"⟩) (.var ⟨"z"⟩))
      (.pair (.int 1) (.expr (.var ⟨"y"⟩) .plus (.int 1)))).states.Complete := by
  have hleft : circling.bindings.OffCircles (.pair (.var ⟨"y"⟩) (.var ⟨"z"⟩)) :=
    Bindings.offCircles_of_none fun y hy => circling_of_ne (by rintro rfl; simp [Term.vars] at hy)
  have hright : circling.bindings.OffCircles
      (.pair (.int 1) (.expr (.var ⟨"y"⟩) .plus (.int 1))) :=
    Bindings.offCircles_of_none fun y hy =>
      circling_of_ne (by rintro rfl; simp [Term.vars, Term.int] at hy)
  exact ⟨.single ⟨_, circling_self, by simp [Term.vars]⟩, hleft, hright,
    (constrain_offCircles circling _ _ hleft hright).1⟩

/-- On the circle neither constraint ends: the first answer and the failure stay out at every
depth. -/
theorem circling_endless :
    (∀ rounds depth : ℕ,
      Bindings.matchIn (Bindings.matchRounds rounds) depth circling.bindings
        (circling.walk (.var ⟨"x"⟩)) (circling.walk (.var ⟨"x"⟩)) = ([], some .cut)) ∧
    ¬ (circling.unify (.var ⟨"x"⟩) (.var ⟨"x"⟩)).states.Complete ∧
    (circling.unify (.var ⟨"x"⟩) (.var ⟨"x"⟩)).states.toList = [] ∧
    ¬ (circling.disunify (.var ⟨"x"⟩) (.var ⟨"x"⟩)).states.Complete ∧
    (circling.disunify (.var ⟨"x"⟩) (.var ⟨"x"⟩)).states.toList = [] := by
  have hcut := Bindings.matchIn_of_circle circling_self (by decide)
  have hterms : circling.bindings.matchTerms (circling.bindings.walk (.var ⟨"x"⟩))
      (circling.bindings.walk (.var ⟨"x"⟩)) = ([], some .cut) := hcut _ 0
  refine ⟨hcut, ?_⟩
  simp [unify, disunify, walk, hterms, Search.bind, Search.Complete, Search.toList]

end State

end Relational
