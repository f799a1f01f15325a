import Relational.Proofs.Parsing.Completeness
import Relational.Proofs.Parsing.Soundness

/-!
The texts that are read as terms and queries: those that the grammar derives, each as what it is
derived as. So a property of all tokens that goes from parts to the whole is one of all terms read.
-/

namespace Relational

namespace Text

lemma bind_complete_eq_ok {α : Type} {e : Except ReadError (α × List Char)} {a : α} :
    e >>= complete = .ok a ↔ e = .ok (a, []) := by
  rcases e with err | ⟨b, _ | ⟨c, r⟩⟩ <;> simp [bind, Except.bind, complete]

/-! ### Terms -/

lemma termOf_eq_ok {s r : List Char} {t : Term} :
    termOf s = .ok (t, r) ↔ term (s.length + 1) s = .found t r := by
  unfold termOf
  cases term (s.length + 1) s <;> simp

lemma exists_of_termOf {s r : List Char} {t : Term} (h : termOf s = .ok (t, r)) :
    ∃ w, Derives (.term 1 t) w ∧ s = w ++ r :=
  sound_term _ _ _ _ (termOf_eq_ok.1 h)

lemma termOf_of_derives {w s rest : List Char} {t : Term} (h : Derives (.term 1 t) w)
    (hrest : Follows 1 rest) (hs : skip s = skip (w ++ rest)) : termOf s = .ok (t, skip rest) := by
  have hink : ink w < s.length + 1 :=
    calc ink w ≤ ink (w ++ rest) := by rw [ink_append]; omega
      _ = ink s := by rw [← ink_skip, ← hs, ink_skip]
      _ < s.length + 1 := Nat.lt_succ_of_le (ink_le_length s)
  exact termOf_eq_ok.2 (reads_term h hrest hink s hs)

lemma termOf_eq_ok_iff {s : List Char} {t : Term} :
    termOf s = .ok (t, []) ↔ Derives (.term 1 t) s := by
  constructor
  · intro h
    obtain ⟨w, hw, rfl⟩ := exists_of_termOf h
    rwa [List.append_nil]
  · intro h
    exact termOf_of_derives h (follows_nil 1) (by rw [List.append_nil])

/-! ### Queries -/

lemma exists_of_relation {s r : List Char} {rel : Relation} (h : relation s = some (rel, r)) :
    ∃ w, Padded rel.symbol.toList w ∧ s = w ++ r := by
  unfold relation at h
  split at h
  · next rest hs =>
    cases h
    have hskip : skip s = ['!', '='] ++ rest := hs
    exact exists_padded hskip
  · next rest hs =>
    cases h
    have hskip : skip s = ['='] ++ rest := hs
    exact exists_padded hskip
  · simp at h

lemma Padded.relation_eq {rel : Relation} {w s rest : List Char} (h : Padded rel.symbol.toList w)
    (hs : skip s = skip (w ++ rest)) : relation s = some (rel, skip rest) := by
  cases rel with
  | equal =>
    have hw : Padded ['='] w := h
    obtain ⟨r, hr, hskip, -⟩ := hw.skip_append (visible_cons rfl _) rest
    have hhead : skip s = '=' :: r := hs.trans hr
    simp [relation, hhead, hskip]
  | differ =>
    have hw : Padded ['!', '='] w := h
    obtain ⟨r, hr, hskip, -⟩ := hw.skip_append (visible_cons rfl _) rest
    have hhead : skip s = '!' :: '=' :: r := hs.trans hr
    simp [relation, hhead, hskip]

lemma Padded.follows_relation {rel : Relation} {w : List Char} (h : Padded rel.symbol.toList w)
    (rest : List Char) : Follows 1 (w ++ rest) := by
  cases rel with
  | equal =>
    have hw : Padded ['='] w := h
    exact hw.follows rfl (.inl (by simp)) rest
  | differ =>
    have hw : Padded ['!', '='] w := h
    exact hw.follows rfl (.inl (by simp)) rest

lemma queryOf_eq {s r r' r'' : List Char} {left right : Term} {rel : Relation}
    (hleft : termOf s = .ok (left, r)) (hrel : relation r = some (rel, r'))
    (hright : termOf r' = .ok (right, r'')) : queryOf s = .ok (⟨left, rel, right⟩, r'') := by
  simp only [queryOf, bind, Except.bind, hleft, hrel, hright]

lemma exists_of_queryOf {s r : List Char} {q : Query} (h : queryOf s = .ok (q, r)) :
    ∃ r₁ r₂, termOf s = .ok (q.left, r₁) ∧ relation r₁ = some (q.relation, r₂) ∧
      termOf r₂ = .ok (q.right, r) := by
  rcases hleft : termOf s with err | ⟨left, r₁⟩
  · simp [queryOf, bind, Except.bind, hleft] at h
  rcases hrel : relation r₁ with _ | ⟨rel, r₂⟩
  · simp [queryOf, bind, Except.bind, hleft, hrel] at h
  rcases hright : termOf r₂ with err | ⟨right, r₃⟩
  · simp [queryOf, bind, Except.bind, hleft, hrel, hright] at h
  rw [queryOf_eq hleft hrel hright] at h
  cases h
  exact ⟨r₁, r₂, rfl, hrel, hright⟩

lemma exists_derivesQuery {s r : List Char} {q : Query} (h : queryOf s = .ok (q, r)) :
    ∃ w, DerivesQuery q w ∧ s = w ++ r := by
  obtain ⟨r₁, r₂, hleft, hrel, hright⟩ := exists_of_queryOf h
  obtain ⟨l, hl, rfl⟩ := exists_of_termOf hleft
  obtain ⟨w, hw, rfl⟩ := exists_of_relation hrel
  obtain ⟨u, hu, rfl⟩ := exists_of_termOf hright
  exact ⟨l ++ (w ++ u), .mk hl hw hu, by simp⟩

lemma queryOf_eq_ok_iff {s : List Char} {q : Query} :
    queryOf s = .ok (q, []) ↔ DerivesQuery q s := by
  constructor
  · intro h
    obtain ⟨w, hw, rfl⟩ := exists_derivesQuery h
    rwa [List.append_nil]
  · rintro @⟨l, w, r, left, right, rel, hl, hw, hr⟩
    have hleft := termOf_of_derives hl (hw.follows_relation r) rfl
    have hright := termOf_of_derives hr (follows_nil 1) (by rw [List.append_nil, skip_skip])
    exact queryOf_eq hleft (hw.relation_eq (skip_skip (w ++ r))) hright

/-! ### What read terms have from their tokens -/

/-- The terms that something is derived as. -/
def Phrase.terms : Phrase → List Term
  | .term _ t => [t]
  | .operations _ more => more.map (·.2)
  | .items ts => ts

end Text

/-- A property that terms have when their parts have it. -/
structure Term.Compositional (P : Term → Prop) : Prop where
  empty : P .empty
  pair : ∀ {a b}, P a → P b → P (.pair a b)
  expr : ∀ {a op b}, P a → P b → P (.expr a op b)

namespace Term.Compositional

variable {P : Term → Prop} (hP : Term.Compositional P)
include hP

lemma ofList {ts : List Term} (h : ∀ t ∈ ts, P t) : P (.ofList ts) := by
  induction ts with
  | nil => exact hP.empty
  | cons t ts ih =>
    rw [List.forall_mem_cons] at h
    exact hP.pair h.1 (ih h.2)

lemma operate {t : Term} {more : List (Op × Term)} (ht : P t)
    (h : ∀ u ∈ more.map (·.2), P u) : P (t.operate more) := by
  induction more generalizing t with
  | nil => exact ht
  | cons first more ih =>
    rw [List.map_cons, List.forall_mem_cons] at h
    exact ih (hP.expr ht h.1) h.2

end Term.Compositional

namespace Text

section

variable {P : Term → Prop} (hP : Term.Compositional P) (htoken : ∀ w t, Token w t → P t)
include hP htoken

/-- What all tokens have, all that is derived has. -/
lemma Derives.all {p : Phrase} {s : List Char} (h : Derives p s) : ∀ t ∈ p.terms, P t := by
  induction h with
  | token ht _ => exact List.forall_mem_singleton.2 (htoken _ _ ht)
  | unit | nil => exact List.forall_mem_singleton.2 hP.empty
  | group _ _ _ ih => exact ih
  | pair _ _ _ _ _ ih ih' =>
    exact List.forall_mem_singleton.2 (hP.pair (ih _ (.head _)) (ih' _ (.head _)))
  | list _ _ _ _ ih ih' =>
    exact List.forall_mem_singleton.2 (hP.ofList (List.forall_mem_cons.2 ⟨ih _ (.head _), ih'⟩))
  | chain _ _ _ ih ih' => exact List.forall_mem_singleton.2 (hP.operate (ih _ (.head _)) ih')
  | last | noMore => simp [Phrase.terms]
  | operation _ _ _ ih ih' | item _ _ _ ih ih' =>
    exact List.forall_mem_cons.2 ⟨ih _ (.head _), ih'⟩

lemma of_parse {text : String} {t : Term} (h : Term.parse text = .ok t) : P t :=
  (termOf_eq_ok_iff.1 (bind_complete_eq_ok.1 h)).all hP htoken t (.head _)

lemma of_parseQuery {text : String} {q : Query} (h : Query.parse text = .ok q) :
    P q.left ∧ P q.right := by
  have hderives := queryOf_eq_ok_iff.1 (bind_complete_eq_ok.1 h)
  generalize text.toList = s at hderives
  obtain ⟨hl, -, hr⟩ := hderives
  exact ⟨hl.all hP htoken _ (.head _), hr.all hP htoken _ (.head _)⟩

end

end Text

open Text

/-- **Language**: a text is read as a term, or as a query, exactly if the grammar derives it as
that; and it derives a text as one term only. -/
theorem parse_iff_derives :
    (∀ (text : String) (t : Term), Term.parse text = .ok t ↔ Derives (.term 1 t) text.toList) ∧
    (∀ (text : String) (q : Query), Query.parse text = .ok q ↔ DerivesQuery q text.toList) ∧
    ∀ (s : List Char) (t t' : Term), Derives (.term 1 t) s → Derives (.term 1 t') s → t = t' := by
  refine ⟨fun text t => ?_, fun text q => ?_, fun s t t' h h' => ?_⟩
  · exact bind_complete_eq_ok.trans termOf_eq_ok_iff
  · exact bind_complete_eq_ok.trans queryOf_eq_ok_iff
  · have heq := (termOf_eq_ok_iff.2 h).symm.trans (termOf_eq_ok_iff.2 h')
    cases heq
    rfl

theorem parse_iff_derives_blanks :
    ∃ t : Term, t.render = "[1 - -2 * x, ()]" ∧
      Derives (.term 1 t) "\t[ 1 - -2*x,( ) ]\r\n".toList ∧
      ∀ t' : Term, Derives (.term 1 t') "\t[ 1 - -2*x,( ) ]\r\n".toList → t' = t := by
  obtain ⟨hread, -, hunique⟩ := parse_iff_derives
  have hderives := (hread "\t[ 1 - -2*x,( ) ]\r\n"
    (.ofList [.expr (.int 1) .minus (.expr (.int (-2)) .times (.var ⟨"x"⟩)), .empty])).1
    (by decide +kernel)
  exact ⟨_, by decide +kernel, hderives, fun t' h => hunique _ t' _ h hderives⟩

end Relational
