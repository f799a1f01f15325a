import Relational.Proofs.Naming
import Relational.Proofs.Runs

/-!
Fresh variables are fresh. A state is owned by a supply up to a number when all variables in it
are either written names or variables that the supply gave before that number. Whatever a goal
comes to, the state it leaves is owned up to where the counter is then. So the next variable is in
no state that there is, be it on the line of states that asks for it, on one beside it, or one
that led to nothing.
-/

namespace Relational

open Bindings (Over)

/-! ### Known variables -/

namespace Supply

variable {p : Supply} {n k : ℕ} {x : Var}

/-- The variable has a name that can be read, or is one of the first `n` of the supply. -/
def Known (p : Supply) (n : ℕ) (x : Var) : Prop := x.Dotless ∨ ∃ i < n, x = p.nth i

lemma Known.mono (h : p.Known n x) (hnk : n ≤ k) : p.Known k x :=
  h.imp_right fun ⟨i, hi, hx⟩ => ⟨i, hi.trans_le hnk, hx⟩

lemma not_known_nth (hnk : n ≤ k) : ¬ p.Known n (p.nth k) := by
  rintro (h | ⟨i, hi, h⟩)
  · exact p.not_dotless_nth k h
  · rw [(nth_eq_nth.1 h).2] at hnk
    omega

end Supply

/-- The goal compares terms of known variables only; in the body of a fresh variable, that
variable is known too. -/
def Goal.Known (p : Supply) : Goal → ℕ → Prop
  | .succeed, _ | .fail, _ => True
  | .equal left right, n | .differ left right, n =>
    Over (p.Known n) left ∧ Over (p.Known n) right
  | .fresh body, n => (body (p.nth n)).Known p (n + 1)

lemma Goal.known_query {p : Supply} {n : ℕ} {text : String} {q : Query}
    (h : Query.parse text = .ok q) : q.goal.Known p n := by
  obtain ⟨hl, hr⟩ := Text.dotless_of_parseQuery h
  have hknown : Over (p.Known n) q.left ∧ Over (p.Known n) q.right :=
    ⟨fun x hx => .inl (hl x hx), fun x hx => .inl (hr x hx)⟩
  obtain ⟨left, relation, right⟩ := q
  cases relation <;> exact hknown

/-! ### Owned states -/

namespace State

variable {p : Supply} {n k : ℕ} {s s' : State} {x : Var}

/-- The variable is unbound, in no bound term, and not in the ledger. -/
structure New (x : Var) (s : State) : Prop where
  unbound : s.bindings[x]? = none
  range : s.bindings.All fun t => x ∉ t.vars
  ledger : x ∉ s.ledger

/-- The state draws from the supply, has no circles and only known variables in it, and its ledger
holds variables of the supply in the order of their numbers. -/
structure Owned (p : Supply) (n : ℕ) (s : State) : Prop where
  supply : s.supply = p
  acyclic : s.bindings.Acyclic
  domain : ∀ (x : Var) (t : Term), s.bindings[x]? = some t → p.Known n x
  range : s.bindings.All (Over (p.Known n))
  ledger : ∃ is : List ℕ, s.ledger = is.map p.nth ∧ is.Pairwise (· < ·) ∧ ∀ i ∈ is, i < n

/-- The state with one more variable in its ledger. -/
def record (s : State) (x : Var) : State := { s with ledger := s.ledger ++ [x] }

lemma owned_root (p : Supply) (n : ℕ) : (root p).Owned p n where
  supply := rfl
  acyclic := Bindings.acyclic_empty
  domain x t hx := by simp [root] at hx
  range := Bindings.all_empty _
  ledger := ⟨[], rfl, .nil, by simp⟩

namespace Owned

variable (h : s.Owned p n)
include h

lemma mono (hnk : n ≤ k) : s.Owned p k where
  supply := h.supply
  acyclic := h.acyclic
  domain x t hx := (h.domain x t hx).mono hnk
  range x t hx y hy := (h.range x t hx y hy).mono hnk
  ledger := by
    obtain ⟨is, heq, hlt, hbound⟩ := h.ledger
    exact ⟨is, heq, hlt, fun i hi => (hbound i hi).trans_le hnk⟩

lemma new (hnk : n ≤ k) : s.New (p.nth k) where
  unbound := by
    by_contra hx
    obtain ⟨t, ht⟩ := Option.ne_none_iff_exists'.1 hx
    exact Supply.not_known_nth hnk (h.domain _ t ht)
  range x t hx hmem := Supply.not_known_nth hnk (h.range x t hx _ hmem)
  ledger := by
    obtain ⟨is, heq, -, hbound⟩ := h.ledger
    rw [heq]
    intro hmem
    obtain ⟨i, hi, hik⟩ := List.mem_map.1 hmem
    obtain rfl := (Supply.nth_eq_nth.1 hik).2
    exact absurd (hbound i hi) (by omega)

lemma record : (s.record (p.nth n)).Owned p (n + 1) where
  supply := h.supply
  acyclic := h.acyclic
  domain := (h.mono n.le_succ).domain
  range := (h.mono n.le_succ).range
  ledger := by
    obtain ⟨is, heq, hlt, hbound⟩ := h.ledger
    refine ⟨is ++ [n], by simp [State.record, heq], ?_, fun i hi => ?_⟩
    · exact List.pairwise_append.2 ⟨hlt, List.pairwise_singleton _ _, by simpa using hbound⟩
    · rcases List.mem_append.1 hi with hi | hi
      · exact (hbound i hi).trans n.lt_succ_self
      · exact (List.mem_singleton.1 hi).trans_lt n.lt_succ_self

/-- What matching binds is about variables of the two terms, walked. -/
lemma unify {left right : Term} (hl : Over (p.Known n) left) (hr : Over (p.Known n) right)
    (h' : s' ∈ (s.unify left right).states.toList) : s'.Owned p n := by
  obtain ⟨d, hadd, rfl⟩ := exists_addition h.acyclic h'
  have hwalk {t : Term} (ht : Over (p.Known n) t) : Over (p.Known n) (s.walk t) :=
    Bindings.vars_walk_of_closed ht fun x u _ hu => h.range x u hu
  have hvars : ∀ x ∈ (s.walk left).vars ++ (s.walk right).vars, p.Known n x := fun x hx =>
    (List.mem_append.1 hx).elim (hwalk hl x) (hwalk hr x)
  refine ⟨h.supply, hadd.acyclic, fun x t hx => ?_, h.range.extend ?_, h.ledger⟩
  · rcases Bindings.extend_eq_some hx with hd | hx
    · exact hvars x (hadd.domain x t hd)
    · exact h.domain x t hx
  · exact fun x t hd y hy => hvars y (hadd.range x t hd y hy)

end Owned

end State

/-! ### Goals -/

namespace Goal

variable {p : Supply} {s s' : State} {c : Counters} {x : Var} {pre post : List (Var × State)}

/-- The variables that a goal takes, each with the state that its body is applied to. -/
def takes : Goal → State → Counters → List (Var × State)
  | .fresh body, s, c =>
    let (x, s, c) := s.withFresh c
    (x, s) :: (body x).takes s c
  | _, _, _ => []

lemma run_fresh (hs : s.supply = p) (body : Var → Goal) (c : Counters) :
    (fresh body).run s c = (body (p.nth (c.allocated p))).run
      (s.record (p.nth (c.allocated p))) (c.fresh p).2 := by
  subst hs
  rfl

lemma takes_fresh (hs : s.supply = p) (body : Var → Goal) (c : Counters) :
    (fresh body).takes s c = (p.nth (c.allocated p), s.record (p.nth (c.allocated p))) ::
      (body (p.nth (c.allocated p))).takes (s.record (p.nth (c.allocated p))) (c.fresh p).2 := by
  subst hs
  rfl

lemma opened_run (hp : c.Opened p) (g : Goal) (s : State) : (g.run s c).2.Opened p := by
  induction g generalizing s c with
  | succeed | fail | equal | differ => exact hp
  | fresh body ih => exact ih _ (hp.fresh s.supply) _

/-- The counter counts the variables that are taken, whatever comes of the goal. -/
lemma allocated_run (hs : s.supply = p) (hp : c.Opened p) (g : Goal) :
    (g.run s c).2.allocated p = c.allocated p + (g.takes s c).length := by
  induction g generalizing s c with
  | succeed | fail | equal | differ => rfl
  | fresh body ih =>
    have hrest := ih (p.nth (c.allocated p)) (s := s.record (p.nth (c.allocated p))) hs
      (hp.fresh p)
    rw [run_fresh hs, takes_fresh hs, hrest, hp.allocated_fresh_self, List.length_cons]
    omega

lemma map_fst_takes (hs : s.supply = p) (hp : c.Opened p) (g : Goal) :
    (g.takes s c).map Prod.fst =
      (List.range' (c.allocated p) (g.takes s c).length).map p.nth := by
  induction g generalizing s c with
  | succeed | fail | equal | differ => rfl
  | fresh body ih =>
    have hrest := ih (p.nth (c.allocated p)) (s := s.record (p.nth (c.allocated p))) hs
      (hp.fresh p)
    rw [hp.allocated_fresh_self] at hrest
    rw [takes_fresh hs, List.map_cons, hrest, List.length_cons, List.range'_succ, List.map_cons]

/-- A variable is taken when those before it were, and by itself that binds nothing. -/
lemma owned_of_takes (h : s.Owned p (c.allocated p)) (hp : c.Opened p) {g : Goal}
    (htakes : g.takes s c = pre ++ (x, s') :: post) :
    x = p.nth (c.allocated p + pre.length) ∧ s'.bindings = s.bindings ∧
      s'.Owned p (c.allocated p + pre.length + 1) := by
  induction g generalizing s c pre with
  | succeed | fail | equal | differ => simp [takes] at htakes
  | fresh body ih =>
    rw [takes_fresh h.supply] at htakes
    -- it is the variable of this goal, or one that its body takes
    cases pre with
    | nil =>
      cases htakes
      exact ⟨rfl, rfl, h.record⟩
    | cons first pre =>
      rw [List.cons_append, List.cons.injEq] at htakes
      have hnext := hp.allocated_fresh_self
      obtain ⟨hx, hsame, howned⟩ := ih _ (hnext ▸ h.record) (hp.fresh p) htakes.2
      have hplace : (c.fresh p).2.allocated p + pre.length =
          c.allocated p + (first :: pre).length := by
        rw [hnext, List.length_cons]
        omega
      rw [hplace] at hx howned
      exact ⟨hx, hsame, howned⟩

/-- A goal on known variables leaves states that are owned up to where the counter is then. -/
lemma owned_of_run (h : s.Owned p (c.allocated p)) (hp : c.Opened p) {g : Goal}
    (hg : g.Known p (c.allocated p)) (h' : s' ∈ (g.run s c).1.states.toList) :
    s'.Owned p ((g.run s c).2.allocated p) ∧
      s'.ledger = s.ledger ++ (g.takes s c).map Prod.fst := by
  induction g generalizing s c with
  | succeed =>
    rw [List.mem_singleton.1 h']
    exact ⟨h, (List.append_nil _).symm⟩
  | fail => simp [run, Search.toList] at h'
  | equal left right =>
    obtain ⟨d, -, rfl⟩ := State.exists_of_mem_unify h'
    exact ⟨h.unify hg.1 hg.2 h', (List.append_nil _).symm⟩
  | differ left right =>
    rw [State.eq_of_disunify h.acyclic h']
    exact ⟨h, (List.append_nil _).symm⟩
  | fresh body ih =>
    have hnext := hp.allocated_fresh_self
    rw [run_fresh h.supply] at h' ⊢
    rw [takes_fresh h.supply]
    obtain ⟨howned, hledger⟩ := ih _ (hnext ▸ h.record) (hp.fresh p)
      (by rw [hnext]; exact hg) h'
    exact ⟨howned, hledger.trans (List.append_assoc _ _ _)⟩

end Goal

/-! ### Sessions -/

/-- The counters, all states that there have been, and the variables that were taken, in order. -/
structure Session where
  counters : Counters
  states : List State
  taken : List Var

namespace Session

variable {p : Supply} {c : Counters} {m m' : Session} {s : State} {g : Goal}

def start (p : Supply) (c : Counters) : Session := ⟨c, [.root p], []⟩

/-- Adds an empty state with the supply. -/
def sibling (m : Session) (p : Supply) : Session := { m with states := m.states ++ [.root p] }

/-- Applies a goal to a state. Besides those that it gives there are from then on the states that
the bodies of its fresh variables are applied to. -/
def after (m : Session) (s : State) (g : Goal) : Session where
  counters := (g.run s m.counters).2
  states := m.states ++ (g.takes s m.counters).map Prod.snd ++
    (g.run s m.counters).1.states.toList
  taken := m.taken ++ (g.takes s m.counters).map Prod.fst

inductive Step (p : Supply) : Session → Session → Prop where
  | sibling (m : Session) : Step p m (m.sibling p)
  | query {m : Session} {s : State} {text : String} {q : Query} (hs : s ∈ m.states)
      (hq : Query.parse text = .ok q) : Step p m (m.after s q.goal)
  | goal {m : Session} {s : State} {g : Goal} (hs : s ∈ m.states)
      (hg : g.Known p (m.counters.allocated p)) : Step p m (m.after s g)

def Reached (p : Supply) (c : Counters) (m : Session) : Prop :=
  Relation.ReflTransGen (Step p) (start p c) m

/-- Of the session that began with these counters, all states are owned up to where the counter
is, and the variables that were taken are those that it has counted. -/
structure Sound (p : Supply) (c : Counters) (m : Session) : Prop where
  opened : m.counters.Opened p
  states : ∀ s ∈ m.states, s.Owned p (m.counters.allocated p)
  allocated : m.counters.allocated p = c.allocated p + m.taken.length
  taken : m.taken = (List.range' (c.allocated p) m.taken.length).map p.nth

lemma sound_start (hp : c.Opened p) : (start p c).Sound p c where
  opened := hp
  states _ hs := List.mem_singleton.1 hs ▸ State.owned_root p _
  allocated := rfl
  taken := rfl

/-- The states before each variable that a goal takes are owned up to its number. -/
lemma Sound.owned_before (h : m.Sound p c) (hs : s ∈ m.states) {pre post : List (Var × State)}
    (htakes : g.takes s m.counters = pre ++ post) {r : State}
    (hr : r ∈ m.states ++ pre.map Prod.snd) :
    r.Owned p (m.counters.allocated p + pre.length) := by
  rcases List.mem_append.1 hr with hr | hr
  · exact (h.states r hr).mono (Nat.le_add_right _ _)
  · -- the state is made when an earlier variable is taken
    obtain ⟨⟨x, r⟩, he, rfl⟩ := List.mem_map.1 hr
    obtain ⟨before, between, rfl⟩ := List.append_of_mem he
    rw [List.append_assoc] at htakes
    refine (Goal.owned_of_takes (h.states s hs) h.opened htakes).2.2.mono ?_
    simp only [List.length_append, List.length_cons]
    omega

lemma Sound.after (h : m.Sound p c) (hs : s ∈ m.states)
    (hg : g.Known p (m.counters.allocated p)) : (m.after s g).Sound p c := by
  have howned := h.states s hs
  have hcount := Goal.allocated_run howned.supply h.opened g
  refine ⟨?_, fun r hr => ?_, ?_, ?_⟩
  · exact Goal.opened_run h.opened g s
  · change r.Owned p ((g.run s m.counters).2.allocated p)
    rcases List.mem_append.1 hr with hr | hr
    · rw [hcount]
      exact h.owned_before hs (List.append_nil _).symm hr
    · exact (Goal.owned_of_run howned h.opened hg hr).1
  · change (g.run s m.counters).2.allocated p = _
    rw [hcount, h.allocated, Session.after, List.length_append, List.length_map, Nat.add_assoc]
  · change m.taken ++ _ = _
    rw [Session.after, List.length_append, List.length_map, ← List.range'_append_1, List.map_append,
      ← h.taken, ← h.allocated, Goal.map_fst_takes howned.supply h.opened]

lemma Step.sound (h : Step p m m') (hm : m.Sound p c) : m'.Sound p c := by
  cases h with
  | sibling =>
    refine ⟨hm.opened, fun s hs => ?_, hm.allocated, hm.taken⟩
    rcases List.mem_append.1 hs with hs | hs
    · exact hm.states s hs
    · exact List.mem_singleton.1 hs ▸ State.owned_root p _
  | query hs hq => exact hm.after hs (Goal.known_query hq)
  | goal hs hg => exact hm.after hs hg

lemma Reached.sound (h : m.Reached p c) (hp : c.Opened p) : m.Sound p c := by
  induction h with
  | refl => exact sound_start hp
  | tail _ hstep ih => exact hstep.sound ih

/-- **Fresh variables**: in a session over one supply, that has been opened, the counter has come as
far as variables were taken, and they are the next ones of the supply, each once. The ledger of
every state goes up in the numbers of its variables. And of a goal that is applied to any of
the states: the counter goes on by the number of variables it takes, whatever comes of it; each
of them is new to all states that there are when it is taken, and taking it binds nothing; and the
states that it gives have all of them in the ledger, in order, after those of the state
that it was applied to. -/
theorem taken_new (p : Supply) (c : Counters) (hp : c.Opened p) (m : Session)
    (hm : m.Reached p c) :
    m.counters.allocated p = c.allocated p + m.taken.length ∧
    m.taken = (List.range' (c.allocated p) m.taken.length).map p.nth ∧ m.taken.Nodup ∧
    (∀ s ∈ m.states, ∃ is : List ℕ,
      s.ledger = is.map p.nth ∧ is.Pairwise (· < ·) ∧ s.ledger.Nodup) ∧
    ∀ s ∈ m.states, ∀ g : Goal, g.Known p (m.counters.allocated p) →
      (g.run s m.counters).2.allocated p =
        m.counters.allocated p + (g.takes s m.counters).length ∧
      (∀ pre x s' post, g.takes s m.counters = pre ++ (x, s') :: post →
        s'.bindings = s.bindings ∧ ∀ r ∈ m.states ++ pre.map Prod.snd, r.New x) ∧
      ∀ s' ∈ (g.run s m.counters).1.states.toList,
        s'.ledger = s.ledger ++ (g.takes s m.counters).map Prod.fst := by
  have h := hm.sound hp
  have hinjective : Function.Injective p.nth := fun i j hij => (Supply.nth_eq_nth.1 hij).2
  refine ⟨h.allocated, h.taken, ?_, fun s hs => ?_, fun s hs g hg => ⟨?_, ?_, fun s' h' => ?_⟩⟩
  · rw [h.taken]
    exact List.Nodup.map hinjective List.nodup_range'
  · obtain ⟨is, heq, hlt, -⟩ := (h.states s hs).ledger
    refine ⟨is, heq, hlt, ?_⟩
    rw [heq]
    exact List.Nodup.map hinjective (hlt.imp Nat.ne_of_lt)
  · exact Goal.allocated_run (h.states s hs).supply h.opened g
  · intro pre x s' post htakes
    obtain ⟨rfl, hsame, -⟩ := Goal.owned_of_takes (h.states s hs) h.opened htakes
    exact ⟨hsame, fun r hr => (h.owned_before hs htakes hr).new le_rfl⟩
  · exact (Goal.owned_of_run (h.states s hs) h.opened hg h').2

/-- Here one goal takes two variables and gives a state, and another takes one and gives none. -/
theorem taken_new_nested :
    ∃ m : Session, m.Reached ⟨"t", 0⟩ .start ∧
      m.states.map State.ledger = [[], [], [⟨"t.0"⟩], [⟨"t.0"⟩, ⟨"t.1"⟩], [⟨"t.0"⟩, ⟨"t.1"⟩],
        [⟨"t.2"⟩]] ∧
      m.taken = [⟨"t.0"⟩, ⟨"t.1"⟩, ⟨"t.2"⟩] ∧ m.taken.Nodup ∧
      m.counters.allocated ⟨"t", 0⟩ = 3 ∧ ∀ s ∈ m.states, s.New ⟨"t.3"⟩ := by
  let p : Supply := ⟨"t", 0⟩
  let gives : Goal :=
    .fresh fun a => .fresh fun b => .equal (.var a) (.pair (.var b) (.var ⟨"x"⟩))
  let fails : Goal := .fresh fun a => .differ (.var a) (.var a)
  let m := (((start p .start).sibling p).after (.root p) gives).after (.root p) fails
  have htaken {i n : ℕ} (hi : i < n) : Over (p.Known n) (.var (p.nth i)) :=
    Term.over_var.2 (.inr ⟨i, hi, rfl⟩)
  have hwritten : Over (p.Known 2) (.var ⟨"x"⟩) := Term.over_var.2 (.inl (by simp [Var.Dotless]))
  have hgives : gives.Known p 0 :=
    ⟨htaken (by omega), Term.over_pair.2 ⟨htaken (by omega), hwritten⟩⟩
  have hfails : fails.Known p 2 := ⟨htaken (by omega), htaken (by omega)⟩
  have hm : m.Reached p .start :=
    .tail (.tail (.tail .refl (.sibling _)) (.goal (.head _) hgives)) (.goal (.head _) hfails)
  have hopened : Counters.start.Opened p := Nat.one_pos
  obtain ⟨-, -, hdistinct, -, hgoal⟩ := taken_new p .start hopened m hm
  obtain ⟨-, hnew, -⟩ := hgoal (.root p) (.head _) (.fresh fun _ => .fail) trivial
  refine ⟨m, hm, by decide +kernel, by decide +kernel, hdistinct, rfl, fun s hs => ?_⟩
  have hthird : p.nth 3 = ⟨"t.3"⟩ := by decide +kernel
  rw [← hthird]
  exact (hnew [] (p.nth 3) _ [] rfl).2 s (List.mem_append_left _ hs)

end Session

end Relational
