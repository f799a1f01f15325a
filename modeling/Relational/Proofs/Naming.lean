import Mathlib.Data.List.GetD
import Mathlib.Logic.Relation
import Relational.Proofs.Locality
import Relational.Proofs.Parsing.RoundTrip
import Relational.Supply

/-!
The names of fresh variables. The last dot of such a name ends the stem of its supply, so the name
tells the stem and the number; and as no name that is read holds a dot, it is none of these.
Supplies that share a counter never give the same number, and the others have different stems.
-/

namespace Relational

open Bindings (Over)

/-! ### Names -/

lemma toDigits_injective : Function.Injective (Nat.toDigits 10) :=
  Function.LeftInverse.injective Text.digitsValue_toDigits

/-- No dot is in the name. -/
def Var.Dotless (x : Var) : Prop := '.' ∉ x.name.toList

section

variable {α : Type} {c : α} {a a' b b' : List α}

lemma eq_nil_of_cons_eq_append (hb : c ∉ b) (h : c :: b = a ++ c :: b') : a = [] := by
  cases a with
  | nil => rfl
  | cons d a =>
    rw [List.cons_append, List.cons.injEq] at h
    exact absurd (by simp [h.2]) hb

/-- Lists are split at the last place of an item in one way. -/
lemma append_cons_inj (hb : c ∉ b) (hb' : c ∉ b') (h : a ++ c :: b = a' ++ c :: b') :
    a = a' ∧ b = b' := by
  -- what one of `a` and `a'` has more than the other is nothing, as `c` would begin it
  rcases List.append_eq_append_iff.1 h with ⟨d, rfl, hd⟩ | ⟨d, rfl, hd⟩
  · obtain rfl := eq_nil_of_cons_eq_append hb hd
    simpa using hd
  · obtain rfl := eq_nil_of_cons_eq_append hb' hd
    simpa using hd.symm

end

namespace Supply

variable {p q : Supply} {m n : ℕ}

lemma toList_nth (p : Supply) (n : ℕ) :
    (p.nth n).name.toList = p.stem.toList ++ '.' :: Nat.toDigits 10 n := by
  have hdot : ".".toList = ['.'] := rfl
  rw [nth, String.toList_append, String.toList_append, hdot, Nat.toString_eq_repr,
    Nat.toList_repr, List.append_assoc]
  rfl

lemma not_dotless_nth (p : Supply) (n : ℕ) : ¬ (p.nth n).Dotless := by
  simp [Var.Dotless, toList_nth]

lemma dot_notMem_toDigits (n : ℕ) : '.' ∉ Nat.toDigits 10 n := fun h =>
  absurd (Text.allDigits_toDigits n _ h) (by decide)

lemma nth_eq_nth : p.nth m = q.nth n ↔ p.stem = q.stem ∧ m = n := by
  refine ⟨fun h => ?_, fun ⟨hstem, hn⟩ => by rw [nth, nth, hstem, hn]⟩
  have hchars := congrArg (fun x => x.name.toList) h
  simp only [toList_nth] at hchars
  obtain ⟨hstem, hdigits⟩ :=
    append_cons_inj (dot_notMem_toDigits m) (dot_notMem_toDigits n) hchars
  exact ⟨String.toList_injective hstem, toDigits_injective hdigits⟩

end Supply

namespace Text

lemma Token.dotless {w : List Char} {t : Term} (h : Token w t) : Over Var.Dotless t := by
  cases h with
  | float | int | negative | text => simp [Over, Term.float, Term.int, Term.text, Term.vars]
  | @name c s hc hs =>
    have hcs : '.' ∉ c :: s := by
      intro hdot
      rcases List.mem_cons.1 hdot with rfl | hdot
      · exact absurd hc (by decide)
      · exact absurd (hs _ hdot) (by decide)
    unfold named
    split_ifs
    · simp [Over, Term.bool, Term.vars]
    · simp [Over, Term.bool, Term.vars]
    · simpa [Over, Term.vars, Var.Dotless] using hcs

lemma compositional_over (V : Var → Prop) : Term.Compositional (Over V) where
  empty := by simp [Over, Term.vars]
  pair ha hb := Term.over_pair.2 ⟨ha, hb⟩
  expr ha hb := Term.over_expr.2 ⟨ha, hb⟩

/-- No variable that is read has a dot in its name. -/
lemma dotless_of_parse {text : String} {t : Term} (h : Term.parse text = .ok t) :
    Over Var.Dotless t :=
  of_parse (compositional_over _) (fun _ _ => Token.dotless) h

lemma dotless_of_parseQuery {text : String} {q : Query} (h : Query.parse text = .ok q) :
    Over Var.Dotless q.left ∧ Over Var.Dotless q.right :=
  of_parseQuery (compositional_over _) (fun _ _ => Token.dotless) h

end Text

/-! ### Counting -/

namespace Counters

/-- The counter of the supply is one of these. -/
def Opened (c : Counters) (p : Supply) : Prop := p.counter < c.reached.length

variable {c : Counters} {p q : Supply}

lemma Opened.allocated_openStem (hp : c.Opened p) (stem : String) :
    (c.openStem stem).2.allocated p = c.allocated p :=
  List.getD_append _ _ _ _ hp

lemma Opened.fresh (hp : c.Opened p) (q : Supply) : (c.fresh q).2.Opened p :=
  hp.trans_eq List.length_set.symm

/-- Taking a variable is counted by those supplies that share the counter. -/
lemma Opened.allocated_fresh (hp : c.Opened p) (q : Supply) :
    (c.fresh q).2.allocated p =
      if p.counter = q.counter then c.allocated p + 1 else c.allocated p := by
  have hlt : p.counter < c.reached.length := hp
  change (c.reached.set q.counter (c.allocated q + 1)).getD p.counter 0 = _
  split_ifs with h
  · simp [allocated, ← h, hlt]
  · simp [allocated, Ne.symm h]

lemma Opened.allocated_fresh_self (hp : c.Opened p) :
    (c.fresh p).2.allocated p = c.allocated p + 1 :=
  (hp.allocated_fresh p).trans (if_pos rfl)

end Counters

/-! ### Opening supplies and taking names -/

/-- The supplies that have been opened or copied, those among them that were opened without a stem,
and the variables that were taken from them. -/
structure Registry where
  counters : Counters
  supplies : List Supply
  unnamed : List Supply
  names : List Var

namespace Registry

variable {m m' : Registry} {p : Supply}

def start : Registry := ⟨.start, [], [], []⟩

/-- Takes a variable from the supply. -/
def take (m : Registry) (p : Supply) : Registry :=
  { m with counters := (m.counters.fresh p).2, names := m.names ++ [(m.counters.fresh p).1] }

inductive Step : Registry → Registry → Prop where
  | global (m : Registry) : Step m { m with supplies := .global :: m.supplies }
  | openUnnamed (m : Registry) :
      Step m ⟨m.counters.openUnnamed.2, m.counters.openUnnamed.1 :: m.supplies,
        m.unnamed ++ [m.counters.openUnnamed.1], m.names⟩
  | openStem (m : Registry) (stem : String) :
      Step m ⟨(m.counters.openStem stem).2, (m.counters.openStem stem).1 :: m.supplies,
        m.unnamed, m.names⟩
  | clone {m : Registry} {p : Supply} (hp : p ∈ m.supplies) :
      Step m { m with supplies := p :: m.supplies }
  | take {m : Registry} {p : Supply} (hp : p ∈ m.supplies) : Step m (m.take p)

def Reached (m : Registry) : Prop := Relation.ReflTransGen Step start m

/-- Supplies with one stem share a counter. -/
def Separate (m : Registry) : Prop :=
  ∀ p ∈ m.supplies, ∀ q ∈ m.supplies, p.stem = q.stem → p.counter = q.counter

/-- The stem of the supply that is opened without one after `n` others. -/
def stem (n : ℕ) : String := "_" ++ toString n

lemma toList_stem (n : ℕ) : (stem n).toList = '_' :: Nat.toDigits 10 n := by
  rw [stem, String.toList_append, Nat.toString_eq_repr, Nat.toList_repr]
  rfl

lemma stem_injective : Function.Injective stem := by
  intro m n h
  refine toDigits_injective ?_
  simpa [toList_stem] using congrArg String.toList h

lemma stem_ne_global (n : ℕ) : stem n ≠ Supply.global.stem := by
  intro h
  have hglobal : Supply.global.stem.toList = ['v', 'a', 'r'] := rfl
  have hchars := congrArg String.toList h
  rw [toList_stem, hglobal] at hchars
  simp at hchars

structure Sound (m : Registry) : Prop where
  start : m.counters.Opened .global
  opened : ∀ p ∈ m.supplies, m.counters.Opened p
  taken : ∀ x ∈ m.names, ∃ p ∈ m.supplies, ∃ i < m.counters.allocated p, x = p.nth i
  distinct : m.Separate → m.names.Nodup
  unnamed : m.unnamed.map Supply.stem = (List.range m.counters.unnamed).map stem

lemma sound_start : start.Sound where
  start := Nat.one_pos
  opened := by simp [start]
  taken := by simp [start]
  distinct _ := List.nodup_nil
  unnamed := rfl

/-- One more supply, perhaps with one more counter, changes nothing about the others. -/
lemma Sound.admit (h : m.Sound) {c : Counters} {unnamed : List Supply}
    (hlength : m.counters.reached.length ≤ c.reached.length) (hp : c.Opened p)
    (hsame : ∀ q, m.counters.Opened q → c.allocated q = m.counters.allocated q)
    (hunnamed : unnamed.map Supply.stem = (List.range c.unnamed).map stem) :
    Sound ⟨c, p :: m.supplies, unnamed, m.names⟩ where
  start := Nat.lt_of_lt_of_le h.start hlength
  opened := List.forall_mem_cons.2 ⟨hp, fun q hq => Nat.lt_of_lt_of_le (h.opened q hq) hlength⟩
  taken x hx := by
    obtain ⟨q, hq, i, hi, rfl⟩ := h.taken x hx
    exact ⟨q, .tail _ hq, i, by rwa [hsame q (h.opened q hq)], rfl⟩
  distinct hsep := h.distinct fun q hq r hr => hsep q (.tail _ hq) r (.tail _ hr)
  unnamed := hunnamed

/-- The name that is taken is a new one: its number is beyond those of its counter, and any other
counter has other stems. -/
lemma Sound.take (h : m.Sound) (hp : p ∈ m.supplies) : (m.take p).Sound where
  start := h.start.fresh p
  opened q hq := (h.opened q hq).fresh p
  taken x hx := by
    rcases List.mem_append.1 hx with hx | hx
    · obtain ⟨q, hq, i, hi, rfl⟩ := h.taken x hx
      refine ⟨q, hq, i, ?_, rfl⟩
      have hallocated := (h.opened q hq).allocated_fresh p
      change i < (m.counters.fresh p).2.allocated q
      rw [hallocated]
      split_ifs <;> omega
    · refine ⟨p, hp, m.counters.allocated p, ?_, List.mem_singleton.1 hx⟩
      exact (Nat.lt_succ_self _).trans_eq (h.opened p hp).allocated_fresh_self.symm
  distinct hsep := by
    refine List.nodup_append.2 ⟨h.distinct hsep, List.nodup_singleton _, ?_⟩
    rintro x hx y hy rfl
    obtain ⟨q, hq, i, hi, heq⟩ := h.taken x hx
    have hname : p.nth (m.counters.allocated p) = q.nth i :=
      (List.mem_singleton.1 hy).symm.trans heq
    -- the stems are the same, and so the counters, but this one is past the number
    obtain ⟨hstem, rfl⟩ := Supply.nth_eq_nth.1 hname
    have hcounter := hsep p hp q hq hstem
    rw [Counters.allocated, Counters.allocated, hcounter] at hi
    exact lt_irrefl _ hi
  unnamed := h.unnamed

lemma Step.sound (h : Step m m') (hm : m.Sound) : m'.Sound := by
  cases h with
  | global => exact hm.admit le_rfl hm.start (fun _ _ => rfl) hm.unnamed
  | clone hp => exact hm.admit le_rfl (hm.opened _ hp) (fun _ _ => rfl) hm.unnamed
  | openStem stem =>
    exact hm.admit (by simp [Counters.openStem]) (by simp [Counters.Opened, Counters.openStem])
      (fun q hq => hq.allocated_openStem stem) hm.unnamed
  | openUnnamed =>
    refine hm.admit (by simp [Counters.openUnnamed, Counters.openStem])
      (by simp [Counters.Opened, Counters.openUnnamed, Counters.openStem])
      (fun q hq => hq.allocated_openStem (stem m.counters.unnamed)) ?_
    rw [List.map_append, hm.unnamed]
    exact (List.range_succ ▸ List.map_append).symm
  | take hp => exact hm.take hp

lemma Reached.sound (h : m.Reached) : m.Sound := by
  induction h with
  | refl => exact sound_start
  | tail _ hstep ih => exact hstep.sound ih

/-- **Names**: whatever supplies are opened and copied, and in whatever order variables are taken
from them, the names are all different as long as supplies with one stem share a counter. Supplies
opened without a stem have stems of their own, none of them that of the global supply. And no
variable that was taken is one of a term or query that is read. -/
theorem names_distinct (m : Registry) (h : m.Reached) :
    (m.Separate → m.names.Nodup) ∧
    (m.unnamed.map Supply.stem).Nodup ∧
    (∀ p ∈ m.unnamed, p.stem ≠ Supply.global.stem) ∧
    ∀ x ∈ m.names,
      (∀ (text : String) (t : Term), Term.parse text = .ok t → x ∉ t.vars) ∧
      ∀ (text : String) (q : Query), Query.parse text = .ok q →
        x ∉ q.left.vars ∧ x ∉ q.right.vars := by
  have hm := h.sound
  refine ⟨hm.distinct, ?_, fun p hp => ?_, fun x hx => ?_⟩
  · rw [hm.unnamed]
    exact List.nodup_range.map stem_injective
  · have hstem := List.mem_map_of_mem (f := Supply.stem) hp
    rw [hm.unnamed] at hstem
    obtain ⟨k, -, hk⟩ := List.mem_map.1 hstem
    rw [← hk]
    exact stem_ne_global k
  · obtain ⟨p, -, i, -, rfl⟩ := hm.taken x hx
    have hnot {t : Term} (ht : Over Var.Dotless t) : p.nth i ∉ t.vars := fun hx =>
      p.not_dotless_nth i (ht _ hx)
    refine ⟨fun text t ht => hnot (Text.dotless_of_parse ht), fun text q hq => ?_⟩
    obtain ⟨hl, hr⟩ := Text.dotless_of_parseQuery hq
    exact ⟨hnot hl, hnot hr⟩

/-- Here one stem goes on where a name of the other one ends. -/
theorem names_distinct_prefixed :
    ∃ m : Registry, m.Reached ∧ m.Separate ∧
      m.names = [⟨"a.0"⟩, ⟨"a.1"⟩, ⟨"a.1.0"⟩, ⟨"_0.0"⟩, ⟨"var.0"⟩] ∧ m.names.Nodup ∧
      (∀ p ∈ m.unnamed, p.stem ≠ "var") ∧
      ∀ (text : String) (t : Term), Term.parse text = .ok t → ⟨"a.1"⟩ ∉ t.vars := by
  let a : Supply := ⟨"a", 1⟩
  let b : Supply := ⟨"a.1", 2⟩
  let u : Supply := ⟨"_0", 3⟩
  let opened : Registry := ⟨⟨[0, 0, 0, 0], 1⟩, [a, .global, u, b, a], [u], []⟩
  let m := ((((opened.take a).take a).take b).take u).take .global
  have hopened : opened.Reached :=
    .tail (.tail (.tail (.tail (.tail .refl (.openStem _ "a")) (.openStem _ "a.1"))
      (.openUnnamed _)) (.global _)) (.clone (.tail _ (.tail _ (.tail _ (.head _)))))
  have hm : m.Reached :=
    .tail (.tail (.tail (.tail (.tail hopened (.take (.head _))) (.take (.head _)))
      (.take (.tail _ (.tail _ (.tail _ (.head _)))))) (.take (.tail _ (.tail _ (.head _)))))
      (.take (.tail _ (.head _)))
  have hseparate : m.Separate := by
    change Separate opened
    unfold Separate
    decide
  have hnames : m.names = [⟨"a.0"⟩, ⟨"a.1"⟩, ⟨"a.1.0"⟩, ⟨"_0.0"⟩, ⟨"var.0"⟩] := by
    decide +kernel
  obtain ⟨hdistinct, -, hunnamed, hread⟩ := names_distinct m hm
  refine ⟨m, hm, hseparate, hnames, hdistinct hseparate, hunnamed, fun text t ht => ?_⟩
  exact (hread ⟨"a.1"⟩ (hnames ▸ .tail _ (.head _))).1 text t ht

end Registry

end Relational
