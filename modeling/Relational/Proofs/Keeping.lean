import Relational.Proofs.Constraining

/-!
What matching keeps. When the terms have a property that fields inherit and walking keeps, so does
all that matching binds, at every depth and also where the search is given up; no matter whether
the bindings have circles.
-/

namespace Relational

open Term (Leaf Pairs)

namespace Search

variable {α β : Type}

lemma mem_append {s : Search α} {more : Unit → Search α} {a : α}
    (h : a ∈ (s.append more).toList) : a ∈ s.toList ∨ a ∈ (more ()).toList := by
  induction s with
  | done => exact .inr h
  | cut => simp [append, toList] at h
  | note e rest ih => exact ih h
  | answer b rest ih =>
    rcases List.mem_cons.1 h with rfl | h
    · exact .inl (.head _)
    · exact (ih () h).imp_left (.tail _)

/-- What comes of going on with a search comes of one of its answers, also if it is given up. -/
lemma exists_of_mem_bind {s : Search α} {f : α → Search β} {b : β} (h : b ∈ (s.bind f).toList) :
    ∃ a ∈ s.toList, b ∈ (f a).toList := by
  induction s with
  | done | cut => simp [bind, toList] at h
  | note e rest ih => exact ih h
  | answer a rest ih =>
    rcases mem_append h with h | h
    · exact ⟨a, .head _, h⟩
    · obtain ⟨a', ha', hb⟩ := ih () h
      exact ⟨a', .tail _ ha', hb⟩

end Search

/-- A condition on bindings and a property of terms, such that what is walked under the bindings
and what is bound to match two terms have the property again. -/
structure Kept (I : Bindings → Prop) (P : Term → Prop) : Prop where
  pair : ∀ {a b}, P (.pair a b) → P a ∧ P b
  leaf : ∀ {l r d}, Leaf l r d → P l → P r → d.All P
  walk : ∀ {s t}, I s → P t → P (s.walk t)
  extend : ∀ {s d}, I s → d.All P → I (s.extend d)

lemma Term.Closed.kept {P : Term → Prop} (hP : Term.Closed P) : Kept (Bindings.All P) P where
  pair := hP.pair
  leaf h hl hr := h.all hP hl hr
  walk hs ht := hs.walk hP.toHereditary ht
  extend := Bindings.All.extend

/-- Of terms with the property the matcher binds no other ones. -/
def Keeps (I : Bindings → Prop) (P : Term → Prop) (again : Matcher) : Prop :=
  ∀ ⦃s : Bindings⦄ ⦃l r : Term⦄, I s → P l → P r → ∀ d ∈ (again s l r).search.toList, d.All P

namespace Kept

variable {I : Bindings → Prop} {P : Term → Prop} (hK : Kept I P) {s acc : Bindings}
  {again next : Matcher}
include hK

lemma fields {l r : Term} (hl : P l) (hr : P r) : ∀ p ∈ Term.fields l r, P p.1 ∧ P p.2 := by
  induction l, r using Term.fields.induct with
  | case1 a as b bs ih =>
    rw [Term.fields, List.forall_mem_cons]
    exact ⟨⟨(hK.pair hl).1, (hK.pair hr).1⟩, ih (hK.pair hl).2 (hK.pair hr).2⟩
  | case2 l r hne =>
    rw [Term.fields.eq_2 l r hne]
    simpa using ⟨hl, hr⟩

lemma fieldSearch (H : Keeps I P again) {fields : List (Term × Term)}
    (hf : ∀ p ∈ fields, P p.1 ∧ P p.2) (hs : I s) (hacc : acc.All P) :
    ∀ d ∈ (Bindings.fieldSearch again s acc fields).toList, d.All P := by
  induction fields generalizing s acc with
  | nil =>
    intro d hd
    rw [List.mem_singleton.1 hd]
    exact hacc
  | cons p fields ih =>
    obtain ⟨⟨hl, hr⟩, hrest⟩ := List.forall_mem_cons.1 hf
    intro e he
    rw [Bindings.fieldSearch, Search.toList_notes] at he
    obtain ⟨d, hd, he⟩ := Search.exists_of_mem_bind he
    have hbound := H hs (hK.walk hs hl) (hK.walk hs hr) d hd
    exact ih hrest (hK.extend hs hbound) (hacc.extend hbound) e he

lemma matchStep (H : Keeps I P again) : Keeps I P (Bindings.matchStep again) := by
  intro s l r hs hl hr e he
  by_cases hp : Pairs l r
  · obtain ⟨a, b, a', b', rfl, rfl⟩ := hp.exists_eq
    change e ∈ (Matching.search ((again s a a').search.bind fun d =>
      Bindings.fieldSearch again (s.extend d) d (Term.fields b b')).opening).toList at he
    rw [search_opening] at he
    obtain ⟨d, hd, he⟩ := Search.exists_of_mem_bind he
    have hbound := H hs (hK.pair hl).1 (hK.pair hr).1 d hd
    exact hK.fieldSearch H (hK.fields (hK.pair hl).2 (hK.pair hr).2) (hK.extend hs hbound) hbound
      e he
  · rw [Term.matchStep_eq_matchLeaf hp] at he
    exact hK.leaf (Term.leaf_of_mem hp he) hl hr

lemma matchIn (H : Keeps I P next) (depth : ℕ) : Keeps I P (Bindings.matchIn next depth) := by
  induction depth with
  | zero => exact H
  | succ depth ih => exact hK.matchStep ih

lemma matchRounds (rounds : ℕ) : Keeps I P (Bindings.matchRounds rounds) := by
  induction rounds with
  | zero => exact fun s l r _ _ _ d hd => by cases hd
  | succ rounds ih => exact fun s l r hs hl hr => hK.matchIn ih (l.size + r.size) hs hl hr

lemma matchTerms : Keeps I P Bindings.matchTerms := fun _ _ _ hs hl hr =>
  hK.matchRounds _ hs hl hr

end Kept

namespace State

variable {s s' : State} {left right : Term}

/-- A state that comes of making two terms equal adds what matching them binds. -/
lemma exists_of_mem_unify (h : s' ∈ (s.unify left right).states.toList) :
    ∃ d ∈ (s.bindings.matchTerms (s.walk left) (s.walk right)).search.toList, s' = s.extend d := by
  unfold unify at h
  simp only [walk] at *
  rcases hm : s.bindings.matchTerms (s.bindings.walk left) (s.bindings.walk right) with
    ⟨log, _ | ways⟩ <;> rw [hm] at h
  · simp [Search.toList] at h
  · obtain ⟨d, hd, h⟩ := Search.exists_of_mem_bind h
    refine ⟨d, ?_, List.mem_singleton.1 h⟩
    rwa [Matching.search, Search.toList_notes]

lemma all_of_unify {P : Term → Prop} (hP : Term.Closed P) (hall : s.bindings.All P) (hl : P left)
    (hr : P right) (h : s' ∈ (s.unify left right).states.toList) : s'.bindings.All P := by
  obtain ⟨d, hd, rfl⟩ := exists_of_mem_unify h
  exact hall.extend (hP.kept.matchTerms hall (hP.kept.walk hall hl) (hP.kept.walk hall hr) d hd)

end State

end Relational
