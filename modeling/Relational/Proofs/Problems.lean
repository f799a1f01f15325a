import Relational.Proofs.Constraining

/-!
The problems that matching comes to. For two pairs they are the problem of the first fields and,
after a choice among the ways for some of the fields, the problem of the next ones under what the
choice binds; and each of these leads to more in the same manner. All of them are problems of
walked terms under bindings without circles, and nothing is bound twice on the way to them.
-/

namespace Relational

namespace Bindings

lemma within_refl (s : Bindings) : s.Within s := fun _ _ hx => hx

lemma Within.trans {s s' s'' : Bindings} (h : s.Within s') (h' : s'.Within s'') : s.Within s'' :=
  fun x t hx => h' x t (h x t hx)

lemma within_extend (s d : Bindings) : d.Within (s.extend d) := fun x t hx => by
  simp [getElem?_extend, hx]

/-- What is not bound in the larger bindings is not bound in the smaller ones. -/
lemma Within.fresh {s s' d : Bindings} (h : s.Within s') (hd : s'.Fresh d) : s.Fresh d := by
  intro x t hx
  cases hs : s[x]? with
  | none => rfl
  | some u =>
    have hnone := hd x t hx
    rw [h x u hs] at hnone
    simp at hnone

end Bindings

/-- Two terms to be matched, and the bindings under which. -/
structure Problem where
  bindings : Bindings
  left : Term
  right : Term

namespace Problem

def matching (p : Problem) : Matching := p.bindings.matchTerms p.left p.right

/-- What matching adds, in each of the ways that it finds. -/
def ways (p : Problem) : List Bindings := p.matching.search.toList

/-- The terms are walked, and the bindings have no circles. -/
def Ready (p : Problem) : Prop := Relational.Ready p.bindings p.left p.right

/-- Down the fields of two chains under `s`: with `ds` taken for the first ones, each under those
before it, the problem of the next field is `p`. -/
inductive Along : Bindings → List (Term × Term) → List Bindings → Problem → Prop where
  | here {s : Bindings} {left right : Term} {fields : List (Term × Term)} :
      Along s ((left, right) :: fields) [] ⟨s, s.walk left, s.walk right⟩
  | there {s : Bindings} {left right : Term} {fields : List (Term × Term)} {d : Bindings}
      {ds : List Bindings} {p : Problem} (hd : d ∈ ways ⟨s, s.walk left, s.walk right⟩)
      (next : Along (s.extend d) fields ds p) : Along s ((left, right) :: fields) (d :: ds) p

/-- A field of two pairs: with `ds` taken for those before it, its problem is the last one. The
first field is taken as it is. -/
inductive Field : Problem → List Bindings → Problem → Prop where
  | first {s : Bindings} {a b a' b' : Term} : Field ⟨s, .pair a b, .pair a' b'⟩ [] ⟨s, a, a'⟩
  | later {s : Bindings} {a b a' b' : Term} {d : Bindings} {ds : List Bindings} {p : Problem}
      (hd : d ∈ ways ⟨s, a, a'⟩) (next : Along (s.extend d) (Term.fields b b') ds p) :
      Field ⟨s, .pair a b, .pair a' b'⟩ (d :: ds) p

/-- Matching the first problem comes to the second one, at some depth. -/
def Leads : Problem → Problem → Prop := Relation.ReflTransGen fun p q => ∃ ds, Field p ds q

variable {p q : Problem}

/-! ### One problem -/

lemma Ready.ways (hp : p.Ready) : Ways p.bindings p.left p.right p.ways := by
  obtain ⟨ds, hds⟩ := exists_ways hp
  have ht : p.ways = ds := (meets_matchTerms hp ds hds).toList
  rwa [ht]

lemma Ready.addition (hp : p.Ready) {d : Bindings} (hd : d ∈ p.ways) :
    Addition p.bindings p.left p.right d :=
  (hp.ways.way hd).addition hp

/-- Matching that does not refuse has a way to show. -/
lemma Ready.ne_nil (hp : p.Ready) {w : Search Bindings} (h : p.matching.2 = some w) :
    w.toList ≠ [] := by
  have hn := (meets_matchTerms hp p.ways hp.ways).none_iff
  have hw : p.ways = w.toList := by
    unfold Problem.ways
    rcases hm : p.matching with ⟨log, _ | v⟩ <;> rw [hm] at h
    · simp at h
    · rw [Matching.search, Search.toList_notes, Option.some.inj h]
  intro hnil
  have hnone : p.matching.2 = none := hn.2 (hw.trans hnil)
  rw [h] at hnone
  simp at hnone

/-- A way for two pairs is one for the first fields and then one for the second ones. -/
lemma Ready.exists_of_pair {s : Bindings} {a b a' b' : Term}
    (hp : Ready ⟨s, .pair a b, .pair a' b'⟩) {d : Bindings}
    (hd : d ∈ Problem.ways ⟨s, .pair a b, .pair a' b'⟩) :
    ∃ d₁ ∈ Problem.ways ⟨s, a, a'⟩,
      ∃ d₂ ∈ Problem.ways ⟨s.extend d₁, (s.extend d₁).walk b, (s.extend d₁).walk b'⟩,
        d = d₁.extend d₂ := by
  have hfirst : Ready ⟨s, a, a'⟩ := Relational.Ready.first hp
  obtain ⟨es, f, heq, first, second⟩ := hp.ways.of_pair
  obtain rfl := first.unique hfirst.ways
  rw [heq] at hd
  obtain ⟨d₁, hd₁, hd⟩ := List.mem_flatMap.1 hd
  obtain ⟨d₂, hd₂, rfl⟩ := List.mem_map.1 hd
  have hsecond : Ready ⟨s.extend d₁, (s.extend d₁).walk b, (s.extend d₁).walk b'⟩ :=
    (hfirst.addition hd₁).second
  exact ⟨d₁, hd₁, d₂, (second d₁ hd₁).unique hsecond.ways ▸ hd₂, rfl⟩

/-! ### From field to field -/

/-- What holds where the search stands, with `ds` taken since `s`: these and `s` are all in the
bindings there, and no two of them bind the same variable. -/
structure Stands (s : Bindings) (ds : List Bindings) (p : Problem) : Prop where
  ready : p.Ready
  within : ∀ d ∈ s :: ds, d.Within p.bindings
  apart : (s :: ds).Pairwise Bindings.Fresh

lemma Along.stands {s : Bindings} {fields : List (Term × Term)} {ds : List Bindings}
    (h : Along s fields ds p) (hs : s.Acyclic) : Stands s ds p := by
  induction h with
  | here => exact ⟨hs.ready _ _, by simp [Bindings.within_refl], List.pairwise_singleton _ _⟩
  | @there s left right fields d ds p hd next ih =>
    have hadd := Ready.addition (p := ⟨s, s.walk left, s.walk right⟩) (hs.ready left right) hd
    obtain ⟨hready, hwithin, hapart⟩ := ih hadd.acyclic
    have hsd : s.Within (s.extend d) := hadd.fresh.within
    have hdd : d.Within (s.extend d) := Bindings.within_extend s d
    rw [List.forall_mem_cons] at hwithin
    rw [List.pairwise_cons] at hapart
    -- What is bound so far stays bound further down, so that nothing there binds it again.
    refine ⟨hready, ?_, ?_⟩
    · rw [List.forall_mem_cons, List.forall_mem_cons]
      exact ⟨hsd.trans hwithin.1, hdd.trans hwithin.1, hwithin.2⟩
    · rw [List.pairwise_cons, List.forall_mem_cons, List.pairwise_cons]
      exact ⟨⟨hadd.fresh, fun e he => hsd.fresh (hapart.1 e he)⟩,
        fun e he => hdd.fresh (hapart.1 e he), hapart.2⟩

/-- The first field needs no walk, so that the search may as well walk all of them. -/
lemma Field.along {ds : List Bindings} (h : Field p ds q) (hp : p.Ready) :
    Along p.bindings (Term.fields p.left p.right) ds q := by
  cases h with
  | @first s a b a' b' =>
    have hhere := @Along.here s a a' (Term.fields b b')
    rwa [(Relational.Ready.first hp).left.walk_eq,
      (Relational.Ready.first hp).right.walk_eq] at hhere
  | @later s a b a' b' d ds _ hd next =>
    refine .there ?_ next
    rwa [(Relational.Ready.first hp).left.walk_eq, (Relational.Ready.first hp).right.walk_eq]

lemma Field.stands {ds : List Bindings} (h : Field p ds q) (hp : p.Ready) :
    Stands p.bindings ds q :=
  (h.along hp).stands hp.acyclic

/-- What is taken next binds nothing that is bound already. -/
lemma Stands.apart_concat {s : Bindings} {ds : List Bindings} (h : Stands s ds p) {d : Bindings}
    (hd : d ∈ p.ways) : (s :: ds ++ [d]).Pairwise Bindings.Fresh := by
  rw [List.pairwise_append]
  refine ⟨h.apart, List.pairwise_singleton _ _, fun e he d' hd' => ?_⟩
  rw [List.mem_singleton.1 hd']
  exact (h.within e he).fresh (h.ready.addition hd).fresh

/-- Every way down the fields is put together of one for each field. -/
lemma exists_along {s : Bindings} (hs : s.Acyclic) (b b' : Term) {d : Bindings}
    (hd : d ∈ ways ⟨s, s.walk b, s.walk b'⟩) :
    ∃ ds q, ∃ e ∈ ways q, Along s (Term.fields b b') ds q ∧
      d = (ds ++ [e]).foldr Bindings.extend ∅ := by
  induction b, b' using Term.fields.induct generalizing s d with
  | case1 a as a' as' ih =>
    have hp : Ready ⟨s, .pair (s.walk a) (s.walk as), .pair (s.walk a') (s.walk as')⟩ :=
      hs.ready (.pair a as) (.pair a' as')
    obtain ⟨d₁, hd₁, d₂, hd₂, rfl⟩ := hp.exists_of_pair hd
    have hadd : Addition s (s.walk a) (s.walk a') d₁ :=
      Ready.addition (p := ⟨s, s.walk a, s.walk a'⟩) (hs.ready a a') hd₁
    rw [hadd.walk_walk hs, hadd.walk_walk hs] at hd₂
    obtain ⟨ds, q, e, he, halong, rfl⟩ := ih hadd.acyclic hd₂
    exact ⟨d₁ :: ds, q, e, he, .there hd₁ halong, rfl⟩
  | case2 b b' hne =>
    rw [Term.fields.eq_2 b b' hne]
    exact ⟨[], _, d, hd, .here, (Bindings.extend_empty d).symm⟩

lemma Ready.exists_field (hp : p.Ready) (hpairs : Term.Pairs p.left p.right) {d : Bindings}
    (hd : d ∈ p.ways) :
    ∃ ds q, ∃ e ∈ Problem.ways q, Field p ds q ∧ d = (ds ++ [e]).foldr Bindings.extend ∅ := by
  obtain ⟨s, left, right⟩ := p
  obtain ⟨a, b, a', b', rfl, rfl⟩ := hpairs.exists_eq
  obtain ⟨d₁, hd₁, d₂, hd₂, rfl⟩ := hp.exists_of_pair hd
  have hfirst : Ready ⟨s, a, a'⟩ := Relational.Ready.first hp
  obtain ⟨ds, q, e, he, halong, rfl⟩ := exists_along (hfirst.addition hd₁).acyclic b b' hd₂
  exact ⟨d₁ :: ds, q, e, he, .later hd₁ halong, rfl⟩

/-- What holds where the search comes, it holds at every depth. -/
lemma Leads.ready (h : Leads p q) (hp : p.Ready) : q.Ready := by
  induction h with
  | refl => exact hp
  | tail _ hstep ih =>
    obtain ⟨ds, hfield⟩ := hstep
    exact (hfield.stands ih).ready

end Problem

end Relational
