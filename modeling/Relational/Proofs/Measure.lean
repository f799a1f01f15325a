import Mathlib.Data.Prod.Lex
import Relational.Proofs.Ways

/-!
Smaller problems. The problem of the first fields of two pairs has fewer nodes than the pairs;
that of the second fields has fewer nodes, too, or else fewer variables, when something was
bound. So there always are ways to match, finitely many.
-/

namespace Relational

open Term (Pairs)

namespace Term

lemma size_pos (t : Term) : 0 < t.size := by
  cases t <;> simp [size]

lemma length_vars_le_size (t : Term) : t.vars.length ≤ t.size := by
  induction t with
  | empty | value v | var x => simp [vars, size]
  | pair a b iha ihb | expr a op b iha ihb => simp only [vars, size, List.length_append]; omega

/-- The number of variables of two terms. -/
def width (l r : Term) : ℕ := (l.vars ++ r.vars).toFinset.card

lemma width_le_size (l r : Term) : width l r ≤ l.size + r.size := by
  have hl := length_vars_le_size l
  have hr := length_vars_le_size r
  calc width l r ≤ (l.vars ++ r.vars).length := List.toFinset_card_le _
    _ = l.vars.length + r.vars.length := List.length_append
    _ ≤ l.size + r.size := by omega

lemma width_mono {l' r' l r : Term} (h : l'.vars ++ r'.vars ⊆ l.vars ++ r.vars) :
    width l' r' ≤ width l r :=
  Finset.card_le_card fun _ hx => List.mem_toFinset.2 (h (List.mem_toFinset.1 hx))

lemma width_lt {l' r' l r : Term} (h : l'.vars ++ r'.vars ⊆ l.vars ++ r.vars) {x : Var}
    (hx : x ∈ l.vars ++ r.vars) (hx' : x ∉ l'.vars ++ r'.vars) : width l' r' < width l r := by
  refine Finset.card_lt_card ⟨fun _ hy => List.mem_toFinset.2 (h (List.mem_toFinset.1 hy)), ?_⟩
  exact fun hsub => hx' (List.mem_toFinset.1 (hsub (List.mem_toFinset.2 hx)))

/-- Fewer variables, or no more of them and fewer nodes. -/
def Below (l' r' l r : Term) : Prop :=
  width l' r' < width l r ∨ (width l' r' ≤ width l r ∧ l'.size + r'.size < l.size + r.size)

lemma Below.trans {l'' r'' l' r' l r : Term} (h : Below l'' r'' l' r') (h' : Below l' r' l r) :
    Below l'' r'' l r := by
  unfold Below at *
  omega

lemma below_wellFounded : WellFounded fun p q : Term × Term => Below p.1 p.2 q.1 q.2 := by
  refine Subrelation.wf (r := InvImage (Prod.Lex (· < ·) (· < ·)) fun p : Term × Term =>
    (width p.1 p.2, p.1.size + p.2.size)) (fun {p q} h => ?_)
    (InvImage.wf _ (WellFounded.prod_lex Nat.lt_wfRel.wf Nat.lt_wfRel.wf))
  refine Prod.lex_iff.2 ?_
  unfold Below at h
  simp only
  omega

lemma below_induct {P : Term → Term → Prop}
    (h : ∀ l r, (∀ l' r', Below l' r' l r → P l' r') → P l r) (l r : Term) : P l r :=
  below_wellFounded.induction (C := fun p => P p.1 p.2) (l, r) fun p ih =>
    h p.1 p.2 fun l' r' hb => ih (l', r') hb

lemma below_first (a b a' b' : Term) : Below a a' (.pair a b) (.pair a' b') := by
  refine .inr ⟨width_mono (vars_fst_subset a b a' b'), ?_⟩
  simp only [size]
  omega

end Term

open Term (Below width)

variable {s : Bindings} {l r a b a' b' : Term}

lemma Addition.below_second {d : Bindings} (h : Addition s a a' d)
    (hp : Ready s (.pair a b) (.pair a' b')) :
    Below ((s.extend d).walk b) ((s.extend d).walk b') (.pair a b) (.pair a' b') := by
  have hsub := h.vars_second hp
  by_cases hd : ∃ (x : Var) (t : Term), d[x]? = some t
  · -- a variable that was bound is gone
    obtain ⟨x, t, hx⟩ := hd
    refine .inl (Term.width_lt hsub (x := x) ?_ fun hmem => ?_)
    · exact Term.vars_fst_subset _ _ _ _ (h.domain x t hx)
    · have hnone := h.second.free x hmem
      rw [Bindings.extend_eq_none, hx] at hnone
      simp at hnone
  · have he : d = ∅ := by
      refine Std.ExtTreeMap.ext_getElem? fun x => ?_
      cases hx : d[x]? with
      | none => simp
      | some t => exact absurd ⟨x, t, hx⟩ hd
    rw [he, Bindings.extend_empty, hp.left.of_pair.2.walk_eq, hp.right.of_pair.2.walk_eq]
    refine .inr ⟨Term.width_mono (Term.vars_snd_subset a b a' b'), ?_⟩
    simp only [Term.size]
    omega

/-- The second fields may be walked before the first ones are matched, or after. -/
lemma Addition.below_fields {d : Bindings} (hs : s.Acyclic)
    (h : Addition s (s.walk a) (s.walk a') d) (b b' : Term) :
    Below ((s.extend d).walk b) ((s.extend d).walk b') (s.walk (.pair a b))
      (s.walk (.pair a' b')) := by
  have hpair : Ready s (.pair (s.walk a) (s.walk b)) (.pair (s.walk a') (s.walk b')) :=
    hs.ready (.pair a b) (.pair a' b')
  rw [Bindings.walk_pair, Bindings.walk_pair, ← h.walk_walk hs b, ← h.walk_walk hs b']
  exact h.below_second hpair

/-- **Termination**: there are ways to match two walked terms, finitely many. -/
theorem exists_ways (h : Ready s l r) : ∃ ds, Ways s l r ds := by
  induction l, r using Term.below_induct generalizing s with
  | _ l r ih =>
    by_cases hpairs : Pairs l r
    · obtain ⟨a, b, a', b', rfl, rfl⟩ := hpairs.exists_eq
      obtain ⟨ds, hds⟩ := ih a a' (Term.below_first ..) h.first
      have hsecond : ∀ d ∈ ds, ∃ es, Ways (s.extend d) ((s.extend d).walk b)
          ((s.extend d).walk b') es := fun d hd =>
        have hadd := (hds.way hd).addition h.first
        ih _ _ (hadd.below_second h) hadd.second
      choose! f hf using hsecond
      exact ⟨_, .pair hds hf⟩
    · exact ⟨_, .leaf hpairs⟩

end Relational
