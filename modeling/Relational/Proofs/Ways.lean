import Relational.Matching
import Relational.Proofs.NormalForm
import Relational.Proofs.Solving

/-!
Matching as a relation. `Ways s l r ds` says that `ds` are the ways to make `l` and `r` equal
under `s`, in order: those of two pairs are the ways for their first fields, each followed by the
ways for their second fields under what it binds. `Way s l r d` says that `d` is one of them. No
chain of fields is flattened here, nothing is peeked at, and no depth is counted.
-/

namespace Relational

/-! ### Terms that are not both pairs -/

namespace Term

/-- Both terms are pairs. -/
def Pairs : Term → Term → Prop
  | .pair _ _, .pair _ _ => True
  | _, _ => False

lemma Pairs.exists_eq {l r : Term} (h : Pairs l r) :
    ∃ a b a' b', l = .pair a b ∧ r = .pair a' b' := by
  cases l <;> cases r <;> first | exact ⟨_, _, _, _, rfl, rfl⟩ | exact h.elim

lemma vars_fst_subset (a b a' b' : Term) :
    a.vars ++ a'.vars ⊆ (pair a b).vars ++ (pair a' b').vars := by
  intro x hx
  simp only [vars, List.mem_append] at hx ⊢
  tauto

lemma vars_snd_subset (a b a' b' : Term) :
    b.vars ++ b'.vars ⊆ (pair a b).vars ++ (pair a' b').vars := by
  intro x hx
  simp only [vars, List.mem_append] at hx ⊢
  tauto

/-- Matches two terms of which one is no pair. -/
def matchLeaf (l r : Term) : Matching := Bindings.matchStep (fun _ _ _ => .refuse) ∅ l r

lemma matchStep_eq_matchLeaf {l r : Term} (h : ¬ Pairs l r) (again : Matcher) (s : Bindings) :
    Bindings.matchStep again s l r = l.matchLeaf r := by
  cases l <;> cases r <;> first | rfl | exact absurd trivial h

/-- How one way makes two terms equal of which one is no pair. -/
inductive Leaf : Term → Term → Bindings → Prop where
  | empty : Leaf .empty .empty ∅
  | value {a b : Scalar} (h : a.equal b) : Leaf (.value a) (.value b) ∅
  | same (x : Var) : Leaf (.var x) (.var x) ∅
  | bind {x : Var} {t : Term} (h : x ∉ t.vars) : Leaf (.var x) t (.single x t)
  | solveLeft {x : Var} {op : Op} {known result v : Term} {vs : List Term}
      (h : Relational.solveLeft known op result = some vs) (hv : v ∈ vs) :
      Leaf (.expr (.var x) op known) result (.single x v)
  | solveRight {x : Var} {op : Op} {known result v : Term} {vs : List Term}
      (h : Relational.solveRight known op result = some vs) (hv : v ∈ vs) :
      Leaf (.expr known op (.var x)) result (.single x v)
  | symm {l r : Term} {d : Bindings} (h : Leaf l r d) : Leaf r l d

lemma unknown?_eq_some {e : Term} {x : Var} {values? : Term → Option (List Term)}
    (h : e.unknown? = some (x, values?)) :
    (∃ op known, e = .expr (.var x) op known ∧ values? = Relational.solveLeft known op) ∨
    (∃ op known, e = .expr known op (.var x) ∧ values? = Relational.solveRight known op) := by
  unfold unknown? at h
  split at h
  · simp at h
  · cases h; exact .inl ⟨_, _, rfl, rfl⟩
  · cases h; exact .inr ⟨_, _, rfl, rfl⟩
  · simp at h

lemma leaf_of_solveFor {e r : Term} {x : Var} {values? : Term → Option (List Term)} {d : Bindings}
    (he : e.unknown? = some (x, values?))
    (h : d ∈ (e.solveFor r x (values? r)).search.toList) : Leaf e r d := by
  cases hv : values? r with
  | none => simp [hv, solveFor, Matching.search, Search.toList_notes, Search.toList] at h
  | some vs =>
    rw [hv, solveFor, Matching.ofValues, Matching.search, Search.toList_notes,
      Search.toList_ofList] at h
    obtain ⟨v, hmem, rfl⟩ := List.mem_map.1 h
    rcases unknown?_eq_some he with ⟨op, known, rfl, rfl⟩ | ⟨op, known, rfl, rfl⟩
    · exact .solveLeft hv hmem
    · exact .solveRight hv hmem

lemma leaf_of_bindVar {x : Var} {t : Term} {d : Bindings}
    (h : d ∈ (Matching.bindVar x t).search.toList) : Leaf (.var x) t d := by
  unfold Matching.bindVar at h
  split at h
  · simp [Matching.search, Search.toList_notes, Search.toList] at h
  · next ho =>
    simp only [Matching.search, Search.toList_notes, Search.toList_single,
      List.mem_singleton] at h
    rw [h]
    exact .bind fun hx => ho (occurs_iff.2 hx)

lemma mem_agree {d : Bindings} (h : d ∈ Matching.agree.search.toList) : d = ∅ := by
  simpa [Matching.agree, Matching.search, Search.toList_notes, Search.toList_single] using h

lemma not_mem_refuse {d : Bindings} (h : d ∈ Matching.refuse.search.toList) : False := by
  simp [Matching.refuse, Matching.search, Search.toList_notes, Search.toList] at h

lemma leaf_of_mem {l r : Term} {d : Bindings} (hp : ¬ Pairs l r)
    (h : d ∈ (l.matchLeaf r).search.toList) : Leaf l r d := by
  unfold matchLeaf Bindings.matchStep at h
  split at h
  · rw [mem_agree h]; exact .empty
  · split at h
    · next heq => rw [mem_agree h]; exact .value heq
    · exact (not_mem_refuse h).elim
  · exact absurd trivial hp
  · split at h
    · next heq => rw [mem_agree h, heq]; exact .same _
    · exact leaf_of_bindVar h
  · exact .symm (leaf_of_bindVar h)
  · split at h
    · next he => exact leaf_of_solveFor he h
    · next he => exact .symm (leaf_of_solveFor he h)
    · exact (not_mem_refuse h).elim

end Term

/-! ### The relations -/

open Term (Leaf Pairs)

inductive Way : Bindings → Term → Term → Bindings → Prop where
  | leaf {s : Bindings} {l r : Term} {d : Bindings} (h : Leaf l r d) : Way s l r d
  | pair {s : Bindings} {a b a' b' : Term} {d e : Bindings} (first : Way s a a' d)
      (second : Way (s.extend d) ((s.extend d).walk b) ((s.extend d).walk b') e) :
      Way s (.pair a b) (.pair a' b') (d.extend e)

inductive Ways : Bindings → Term → Term → List Bindings → Prop where
  | leaf {s : Bindings} {l r : Term} (h : ¬ Pairs l r) : Ways s l r (l.matchLeaf r).search.toList
  | pair {s : Bindings} {a b a' b' : Term} {ds : List Bindings} {f : Bindings → List Bindings}
      (first : Ways s a a' ds)
      (second : ∀ d ∈ ds, Ways (s.extend d) ((s.extend d).walk b) ((s.extend d).walk b') (f d)) :
      Ways s (.pair a b) (.pair a' b') (ds.flatMap fun d => (f d).map d.extend)

lemma Ways.way {s d : Bindings} {l r : Term} {ds : List Bindings} (h : Ways s l r ds)
    (hd : d ∈ ds) : Way s l r d := by
  induction h generalizing d with
  | leaf hp => exact .leaf (Term.leaf_of_mem hp hd)
  | pair _ _ ih1 ih2 =>
    obtain ⟨d1, hd1, hd⟩ := List.mem_flatMap.1 hd
    obtain ⟨d2, hd2, rfl⟩ := List.mem_map.1 hd
    exact .pair (ih1 hd1) (ih2 d1 hd1 hd2)

lemma Ways.of_pair {s : Bindings} {a b a' b' : Term} {ds : List Bindings}
    (h : Ways s (.pair a b) (.pair a' b') ds) :
    ∃ (es : List Bindings) (f : Bindings → List Bindings),
      ds = (es.flatMap fun d => (f d).map d.extend) ∧ Ways s a a' es ∧
      ∀ d ∈ es, Ways (s.extend d) ((s.extend d).walk b) ((s.extend d).walk b') (f d) := by
  cases h with
  | leaf hp => exact absurd trivial hp
  | pair first second => exact ⟨_, _, rfl, first, second⟩

lemma Ways.unique {s : Bindings} {l r : Term} {ds ds' : List Bindings} (h : Ways s l r ds)
    (h' : Ways s l r ds') : ds = ds' := by
  induction h generalizing ds' with
  | leaf hp =>
    cases h' with
    | leaf => rfl
    | pair => exact absurd trivial hp
  | pair _ _ ih1 ih2 =>
    cases h' with
    | leaf hp => exact absurd trivial hp
    | pair first second =>
      obtain rfl := ih1 first
      refine List.flatMap_congr fun d hd => ?_
      rw [ih2 d hd (second d hd)]

/-! ### What a way binds -/

/-- Two walked terms, and the bindings without circles that they were walked under. -/
structure Ready (s : Bindings) (l r : Term) : Prop where
  acyclic : s.Acyclic
  left : s.Normal l
  right : s.Normal r

/-- What is added binds unbound variables of the two terms, to terms over variables of the two,
and makes no circle. -/
structure Addition (s : Bindings) (l r : Term) (d : Bindings) : Prop where
  fresh : s.Fresh d
  acyclic : (s.extend d).Acyclic
  domain : ∀ (x : Var) t, d[x]? = some t → x ∈ l.vars ++ r.vars
  range : ∀ (x : Var) t, d[x]? = some t → ∀ y ∈ t.vars, y ∈ l.vars ++ r.vars

lemma Bindings.Acyclic.ready {s : Bindings} (hs : s.Acyclic) (a b : Term) :
    Ready s (s.walk a) (s.walk b) :=
  ⟨hs, hs.normal_walk a, hs.normal_walk b⟩

namespace Ready

variable {s : Bindings} {l r a b a' b' : Term}

lemma symm (h : Ready s l r) : Ready s r l := ⟨h.acyclic, h.right, h.left⟩

lemma first (h : Ready s (.pair a b) (.pair a' b')) : Ready s a a' :=
  ⟨h.acyclic, h.left.of_pair.1, h.right.of_pair.1⟩

lemma free (h : Ready s l r) : ∀ x ∈ l.vars ++ r.vars, s[x]? = none := by
  intro x hx
  rcases List.mem_append.1 hx with hx | hx
  · exact h.left.free x hx
  · exact h.right.free x hx

end Ready

namespace Addition

variable {s d e : Bindings} {l r a b a' b' : Term}

lemma symm (h : Addition s l r d) : Addition s r l d where
  fresh := h.fresh
  acyclic := h.acyclic
  domain x t hx := by simpa [or_comm] using h.domain x t hx
  range x t hx y hy := by simpa [or_comm] using h.range x t hx y hy

lemma empty (hs : s.Acyclic) : Addition s l r ∅ where
  fresh x t hx := by simp at hx
  acyclic := by rwa [Bindings.extend_empty]
  domain x t hx := by simp at hx
  range x t hx := by simp at hx

lemma single {x : Var} {t : Term} (h : Ready s l r) (hx : x ∈ l.vars ++ r.vars)
    (ht : ∀ y ∈ t.vars, y ∈ l.vars ++ r.vars) (hxt : x ∉ t.vars) :
    Addition s l r (.single x t) where
  fresh := Bindings.fresh_single (h.free x hx) t
  acyclic := h.acyclic.extend_single (h.free x hx) (fun y hy => h.free y (ht y hy)) hxt
  domain y u hy := by
    obtain ⟨rfl, -⟩ := Bindings.single_eq_some hy
    exact hx
  range y u hy := by
    obtain ⟨-, rfl⟩ := Bindings.single_eq_some hy
    exact ht

/-- The second fields, walked under what the first ones added, have no other variables. -/
lemma vars_second (h : Addition s a a' d) (hp : Ready s (.pair a b) (.pair a' b')) :
    ((s.extend d).walk b).vars ++ ((s.extend d).walk b').vars ⊆
      (Term.pair a b).vars ++ (Term.pair a' b').vars := by
  have hclosed : ∀ x t, x ∈ (Term.pair a b).vars ++ (Term.pair a' b').vars →
      (s.extend d)[x]? = some t → ∀ y ∈ t.vars,
        y ∈ (Term.pair a b).vars ++ (Term.pair a' b').vars := by
    intro x t hx ht y hy
    rcases Bindings.extend_eq_some ht with hd | hs
    · exact Term.vars_fst_subset _ _ _ _ (h.range x t hd y hy)
    · rw [hp.free x hx] at hs
      simp at hs
  refine List.append_subset.2 ⟨?_, ?_⟩ <;>
    exact Bindings.vars_walk_of_closed (fun x hx => by simp [Term.vars, hx]) hclosed

lemma second (h : Addition s a a' d) : Ready (s.extend d) ((s.extend d).walk b)
    ((s.extend d).walk b') :=
  h.acyclic.ready b b'

lemma walk_walk (h : Addition s l r d) (hs : s.Acyclic) (t : Term) :
    (s.extend d).walk (s.walk t) = (s.extend d).walk t :=
  hs.walk_walk h.acyclic h.fresh.within t

lemma pair (hp : Ready s (.pair a b) (.pair a' b')) (h : Addition s a a' d)
    (h' : Addition (s.extend d) ((s.extend d).walk b) ((s.extend d).walk b') e) :
    Addition s (.pair a b) (.pair a' b') (d.extend e) := by
  have hfst := Term.vars_fst_subset a b a' b'
  have hsnd := h.vars_second hp
  refine ⟨fun x t hx => ?_, ?_, fun x t hx => ?_, fun x t hx y hy => ?_⟩
  · rcases Bindings.extend_eq_some hx with he | hd
    · exact (Bindings.extend_eq_none.1 (h'.fresh x t he)).2
    · exact h.fresh x t hd
  · rw [← Bindings.extend_assoc]; exact h'.acyclic
  · rcases Bindings.extend_eq_some hx with he | hd
    · exact hsnd (h'.domain x t he)
    · exact hfst (h.domain x t hd)
  · rcases Bindings.extend_eq_some hx with he | hd
    · exact hsnd (h'.range x t he y hy)
    · exact hfst (h.range x t hd y hy)

end Addition

lemma Term.Leaf.addition {s d : Bindings} {l r : Term} (h : Leaf l r d) (hp : Ready s l r) :
    Addition s l r d := by
  induction h with
  | empty | value | same => exact .empty hp.acyclic
  | bind h => exact .single hp (by simp [vars]) (fun y hy => by simp [hy]) h
  | solveLeft h hv =>
    obtain ⟨k, r, w, rfl, rfl, rfl, -⟩ := mem_solveLeft h hv
    exact .single hp (by simp [vars]) (by simp [vars]) (by simp [vars])
  | solveRight h hv =>
    obtain ⟨k, r, w, rfl, rfl, rfl, -⟩ := mem_solveRight h hv
    exact .single hp (by simp [vars]) (by simp [vars]) (by simp [vars])
  | symm _ ih => exact (ih hp.symm).symm

lemma Way.addition {s d : Bindings} {l r : Term} (h : Way s l r d) (hp : Ready s l r) :
    Addition s l r d := by
  induction h with
  | leaf h => exact h.addition hp
  | pair _ _ ih1 ih2 => exact .pair hp (ih1 hp.first) (ih2 (ih1 hp.first).second)

/-! ### What bound terms keep -/

/-- A property of terms that operands inherit too, and that computing keeps. -/
structure Term.Closed (P : Term → Prop) : Prop extends Hereditary P where
  expr : ∀ {a op b}, P (.expr a op b) → P a ∧ P b
  scalar : Scalar.Closed fun v => P (.value v)

/-- It is enough that an expression with the property has it with other operands too. -/
lemma Term.closed_of_parts {P : Term → Prop} (var : ∀ x, P (.var x))
    (pair : ∀ {a b}, P (.pair a b) ↔ P a ∧ P b) (expr : ∀ {a op b}, P (.expr a op b) → P a ∧ P b)
    (operands : ∀ {a op b c d}, P (.expr a op b) → P c → P d → P (.expr c op d))
    (scalar : Scalar.Closed fun v => P (.value v)) : Closed P where
  var := var
  pair := pair.1
  expr := expr
  scalar := scalar
  instantiate {t f} ht hf := by
    induction t with
    | empty | value v => exact ht
    | var x => exact hf x
    | pair a b iha ihb => exact pair.2 ⟨iha (pair.1 ht).1, ihb (pair.1 ht).2⟩
    | expr a op b iha ihb =>
      have ha := iha (expr ht).1
      have hb := ihb (expr ht).2
      rw [instantiate]
      rcases reduce_cases (a.instantiate f) op (b.instantiate f) with
        ⟨-, h⟩ | ⟨m, n, w, hm, hn, hw, h⟩
      · rw [h]
        exact operands ht ha hb
      · rw [hm] at ha
        rw [hn] at hb
        rw [h]
        exact scalar.apply ha hb hw

lemma Term.Leaf.all {P : Term → Prop} (hP : Closed P) {l r : Term} {d : Bindings}
    (h : Leaf l r d) (hl : P l) (hr : P r) : d.All P := by
  induction h with
  | empty | value | same => exact Bindings.all_empty _
  | bind => exact Bindings.all_single hr
  | solveLeft h hv =>
    obtain ⟨k, r, w, rfl, rfl, rfl, hw⟩ := mem_solveLeft h hv
    exact Bindings.all_single (hw.of_left hP.scalar (hP.expr hl).2 hr)
  | solveRight h hv =>
    obtain ⟨k, r, w, rfl, rfl, rfl, hw⟩ := mem_solveRight h hv
    exact Bindings.all_single (hw.of_right hP.scalar (hP.expr hl).1 hr)
  | symm _ ih => exact ih hr hl

lemma Way.all {P : Term → Prop} (hP : Term.Closed P) {s d : Bindings} {l r : Term}
    (h : Way s l r d) (hs : s.All P) (hl : P l) (hr : P r) : d.All P := by
  induction h with
  | leaf h => exact h.all hP hl hr
  | pair _ _ ih1 ih2 =>
    have h1 := ih1 hs (hP.pair hl).1 (hP.pair hr).1
    have hs' := hs.extend h1
    exact h1.extend (ih2 hs' (hs'.walk hP.toHereditary (hP.pair hl).2)
      (hs'.walk hP.toHereditary (hP.pair hr).2))

end Relational
