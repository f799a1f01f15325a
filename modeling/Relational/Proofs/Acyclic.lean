import Mathlib.Data.Finset.Card
import Mathlib.Logic.Relation
import Relational.Bindings

/-!
Bindings without circles. A variable refers to the variables of the term that it is bound to.
When none reaches itself in this way, every variable has a rank above those that it refers to,
and binding an unbound variable to a term of other unbound variables keeps it so.
-/

namespace Relational.Bindings

/-- `y` stands in the term that `x` is bound to. -/
def Refers (s : Bindings) (x y : Var) : Prop := ∃ t, s[x]? = some t ∧ y ∈ t.vars

/-- One or more references lead from a variable to another one. -/
def Reaches (s : Bindings) : Var → Var → Prop := Relation.TransGen s.Refers

/-- No variable reaches itself. -/
def Acyclic (s : Bindings) : Prop := ∀ x, ¬ s.Reaches x x

/-! ### Extending -/

lemma extend_empty (s : Bindings) : s.extend ∅ = s := by
  refine Std.ExtTreeMap.ext_getElem? fun x => ?_
  simp [getElem?_extend]

lemma empty_extend (s : Bindings) : extend ∅ s = s := by
  refine Std.ExtTreeMap.ext_getElem? fun x => ?_
  simp [getElem?_extend]

lemma extend_assoc (s d e : Bindings) : (s.extend d).extend e = s.extend (d.extend e) := by
  refine Std.ExtTreeMap.ext_getElem? fun x => ?_
  simp [getElem?_extend, Option.or_assoc]

/-- Every binding of the first is one of the second. -/
def Within (s s' : Bindings) : Prop := ∀ (x : Var) (t : Term), s[x]? = some t → s'[x]? = some t

/-- The variables that `d` binds are not bound in `s`. -/
def Fresh (s d : Bindings) : Prop := ∀ (x : Var) (t : Term), d[x]? = some t → s[x]? = none

lemma Fresh.within {s d : Bindings} (h : Fresh s d) : s.Within (s.extend d) := by
  intro x t hx
  rw [getElem?_extend]
  cases hd : d[x]? with
  | none => simpa using hx
  | some u => simp [h x u hd] at hx

lemma extend_eq_some {s d : Bindings} {x : Var} {t : Term}
    (h : (s.extend d)[x]? = some t) : d[x]? = some t ∨ s[x]? = some t := by
  rw [getElem?_extend] at h
  cases hd : d[x]? with
  | none => simp [hd] at h; exact .inr h
  | some u => simp [hd] at h; exact .inl (by rw [h])

lemma extend_eq_none {s d : Bindings} {x : Var} :
    (s.extend d)[x]? = none ↔ d[x]? = none ∧ s[x]? = none := by
  simp [getElem?_extend]

lemma single_eq_some {x y : Var} {t u : Term} (h : (single x t)[y]? = some u) :
    x = y ∧ t = u := by
  rw [getElem?_single] at h
  split at h
  · next hxy => exact ⟨hxy, Option.some.inj h⟩
  · simp at h

lemma getElem?_extend_single (s : Bindings) (x y : Var) (t : Term) :
    (s.extend (single x t))[y]? = if x = y then some t else s[y]? := by
  rw [getElem?_extend, getElem?_single]
  split_ifs <;> rfl

lemma fresh_single {s : Bindings} {x : Var} (hx : s[x]? = none) (t : Term) :
    s.Fresh (single x t) := by
  intro y u hy
  obtain ⟨rfl, -⟩ := single_eq_some hy
  exact hx

/-- All bound terms have the property. -/
def All (P : Term → Prop) (s : Bindings) : Prop := ∀ (x : Var) (t : Term), s[x]? = some t → P t

lemma all_empty (P : Term → Prop) : All P ∅ := fun x t hx => by simp at hx

lemma all_single {P : Term → Prop} {x : Var} {t : Term} (ht : P t) : (single x t).All P := by
  intro y u hy
  obtain ⟨-, rfl⟩ := single_eq_some hy
  exact ht

lemma All.extend {P : Term → Prop} {s d : Bindings} (hs : s.All P) (hd : d.All P) :
    (s.extend d).All P := by
  intro x t hx
  rcases extend_eq_some hx with h | h
  · exact hd x t h
  · exact hs x t h

/-! ### Ranks -/

lemma acyclic_of_rank {s : Bindings} (rank : Var → ℕ)
    (h : ∀ x y, s.Refers x y → rank y < rank x) : s.Acyclic := by
  have hlt : ∀ x y, s.Reaches x y → rank y < rank x := by
    intro x y hxy
    induction hxy with
    | single hr => exact h _ _ hr
    | tail _ hr ih => exact lt_trans (h _ _ hr) ih
  exact fun x hx => lt_irrefl _ (hlt x x hx)

/-- The variables that are bound. -/
def bound (s : Bindings) : Finset Var := s.keys.toFinset

lemma mem_bound {s : Bindings} {x : Var} : x ∈ s.bound ↔ s[x]? ≠ none := by
  rw [bound, List.mem_toFinset, Std.ExtTreeMap.mem_keys, ← Std.ExtTreeMap.isSome_getElem?_iff_mem,
    Option.isSome_iff_ne_none]

lemma card_bound (s : Bindings) : s.bound.card = s.size := by
  rw [bound, List.toFinset_card_of_nodup Std.ExtTreeMap.nodup_keys, Std.ExtTreeMap.length_keys]

/-- The rank of a variable counts the bound variables that following it meets, itself
included. -/
lemma Acyclic.exists_rank {s : Bindings} (hs : s.Acyclic) :
    ∃ rank : Var → ℕ, ∀ x y, s.Refers x y → rank y < rank x := by
  classical
  refine ⟨fun x => (s.bound.filter (Relation.ReflTransGen s.Refers x)).card, fun x y hxy => ?_⟩
  refine Finset.card_lt_card ⟨fun z hz => ?_, fun hsub => ?_⟩
  · rw [Finset.mem_filter] at hz ⊢
    exact ⟨hz.1, hz.2.head hxy⟩
  · have hx : x ∈ s.bound := by
      obtain ⟨t, ht, -⟩ := hxy
      simp [mem_bound, ht]
    have hyx := (Finset.mem_filter.mp (hsub (Finset.mem_filter.mpr ⟨hx, .refl⟩))).2
    exact hs x (Relation.TransGen.head' hxy hyx)

/-- Going from a variable to those it refers to ends. -/
lemma Acyclic.wellFounded {s : Bindings} (hs : s.Acyclic) :
    WellFounded fun y x => s.Refers x y := by
  obtain ⟨rank, hrank⟩ := hs.exists_rank
  exact Subrelation.wf (fun {y x} h => hrank x y h) (InvImage.wf rank Nat.lt_wfRel.wf)

lemma acyclic_empty : Acyclic ∅ :=
  acyclic_of_rank (fun _ => 0) fun x y ⟨t, ht, _⟩ => by simp at ht

/-- Binding an unbound variable to a term of other unbound variables makes no circle. -/
lemma Acyclic.extend_single {s : Bindings} (hs : s.Acyclic) {x : Var} {t : Term}
    (hx : s[x]? = none) (ht : ∀ y ∈ t.vars, s[y]? = none) (hxt : x ∉ t.vars) :
    (s.extend (single x t)).Acyclic := by
  obtain ⟨rank, hrank⟩ := hs.exists_rank
  -- the new variable goes below all that were bound before, and above all unbound ones
  refine acyclic_of_rank (fun z => if s[z]? = none then (if z = x then 1 else 0) else rank z + 2) ?_
  rintro z w ⟨u, hu, hw⟩
  rcases extend_eq_some hu with h | h
  · obtain ⟨rfl, rfl⟩ := single_eq_some h
    have hne : w ≠ x := by rintro rfl; exact hxt hw
    simp [hx, ht w hw, hne]
  · have hlt := hrank z w ⟨u, h, hw⟩
    have hz : s[z]? ≠ none := by simp [h]
    simp only [hz, if_false]
    split_ifs <;> omega

end Relational.Bindings
