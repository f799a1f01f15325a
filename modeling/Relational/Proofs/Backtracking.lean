import Relational.Proofs.Problems

/-!
Matching two chains of pairs, as it runs. A stack stands in for the recursion down the fields: it
holds a frame for each field that has been begun, with the ways that are left for it, and its
length tells which field is next. What the loop yields, and when, is what the recursion finds; and
no turn of it looks for a field that there is not.
-/

namespace Relational

/-! ### The loop -/

/-- A field that has been begun: what the fields before it have bound, the bindings that it is
matched under, and the ways that are left for it. -/
structure Frame where
  acc : Bindings
  bindings : Bindings
  ways : Search Bindings

inductive Turn where
  /-- The stack is empty. -/
  | finished
  /-- The ways for a field have been given up. -/
  | cut
  /-- There are more frames than fields. -/
  | beyond
  | go (log : List Event) (stack : List Frame)
  | yield (d : Bindings) (stack : List Frame)

namespace Bindings

variable (again : Matcher) (fields : List (Term × Term))

/-- Takes the next way of the last frame. If there is none, the frame is done; if it was for the
last field, the fields are matched; and otherwise a frame is begun for the next field, unless that
is refused. -/
def turn : List Frame → Turn
  | [] => .finished
  | ⟨acc, s, ways⟩ :: below =>
    match ways with
    | .done => .go [] below
    | .cut => .cut
    | .note e rest => .go [e] (⟨acc, s, rest⟩ :: below)
    | .answer d rest =>
      let stack := ⟨acc, s, rest ()⟩ :: below
      if stack.length = fields.length then .yield (acc.extend d) stack
      else
        match fields[stack.length]? with
        | none => .beyond
        | some (left, right) =>
          let child := s.extend d
          let left := child.walk left
          let right := child.walk right
          match again child left right with
          | (log, none) => .go (left.faults ++ right.faults ++ log) stack
          | (log, some ways) =>
            .go (left.faults ++ right.faults ++ log) (⟨acc.extend d, child, ways⟩ :: stack)

/-- What the loop yields from a stack, turn by turn. Nothing comes of a turn that looks beyond the
last field. -/
inductive Yields : List Frame → Search Bindings → Prop where
  | finished {stack : List Frame} (h : turn again fields stack = .finished) : Yields stack .done
  | cut {stack : List Frame} (h : turn again fields stack = .cut) : Yields stack .cut
  | go {stack stack' : List Frame} {log : List Event} {w : Search Bindings}
      (h : turn again fields stack = .go log stack') (rest : Yields stack' w) :
      Yields stack (.notes log w)
  | yield {stack stack' : List Frame} {d : Bindings} {w : Search Bindings}
      (h : turn again fields stack = .yield d stack') (rest : Yields stack' w) :
      Yields stack (.answer d fun _ => w)

/-- Matching fields by the loop. The first field is taken as it is, and the loop is begun if that
is not refused; it has to yield something before it counts as a way to match the fields. -/
inductive Backtracks (again : Matcher) (s : Bindings) : List (Term × Term) → Matching → Prop where
  | nothing : Backtracks again s [] .refuse
  | refused {left right : Term} {fields : List (Term × Term)} {log : List Event}
      (h : again s left right = (log, none)) :
      Backtracks again s ((left, right) :: fields) (log, none)
  | begun {left right : Term} {fields : List (Term × Term)} {log : List Event}
      {ways w : Search Bindings} (h : again s left right = (log, some ways))
      (hrun : Yields again ((left, right) :: fields) [⟨∅, s, ways⟩] w) :
      Backtracks again s ((left, right) :: fields) (log ++ w.opening.1, w.opening.2)

variable {again fields}

lemma Yields.unique {stack : List Frame} {w w' : Search Bindings}
    (h : Yields again fields stack w) (h' : Yields again fields stack w') : w = w' := by
  induction h generalizing w' with
  | finished h =>
    cases h' with
    | finished => rfl
    | cut h' | go h' | yield h' => cases h.symm.trans h'
  | cut h =>
    cases h' with
    | cut => rfl
    | finished h' | go h' | yield h' => cases h.symm.trans h'
  | go h _ ih =>
    cases h' with
    | go h' rest' =>
      obtain ⟨rfl, rfl⟩ := Turn.go.inj (h.symm.trans h')
      rw [ih rest']
    | finished h' | cut h' | yield h' => cases h.symm.trans h'
  | yield h _ ih =>
    cases h' with
    | yield h' rest' =>
      obtain ⟨rfl, rfl⟩ := Turn.yield.inj (h.symm.trans h')
      rw [ih rest']
    | finished h' | cut h' | go h' => cases h.symm.trans h'

/-! ### Turns that take a way -/

variable {acc s d : Bindings} {rest : Unit → Search Bindings} {below : List Frame}
  {left right : Term} {log : List Event}

lemma turn_last (h : below.length + 1 = fields.length) :
    turn again fields (⟨acc, s, .answer d rest⟩ :: below) =
      .yield (acc.extend d) (⟨acc, s, rest ()⟩ :: below) :=
  if_pos h

lemma turn_refused (hfield : fields[below.length + 1]? = some (left, right))
    (h : again (s.extend d) ((s.extend d).walk left) ((s.extend d).walk right) = (log, none)) :
    turn again fields (⟨acc, s, .answer d rest⟩ :: below) =
      .go (((s.extend d).walk left).faults ++ ((s.extend d).walk right).faults ++ log)
        (⟨acc, s, rest ()⟩ :: below) := by
  have hlength := (List.getElem?_eq_some_iff.1 hfield).1
  rw [turn, List.length_cons, if_neg hlength.ne, hfield]
  dsimp only
  rw [h]

lemma turn_begun {ways : Search Bindings}
    (hfield : fields[below.length + 1]? = some (left, right))
    (h : again (s.extend d) ((s.extend d).walk left) ((s.extend d).walk right) =
      (log, some ways)) :
    turn again fields (⟨acc, s, .answer d rest⟩ :: below) =
      .go (((s.extend d).walk left).faults ++ ((s.extend d).walk right).faults ++ log)
        (⟨acc.extend d, s.extend d, ways⟩ :: ⟨acc, s, rest ()⟩ :: below) := by
  have hlength := (List.getElem?_eq_some_iff.1 hfield).1
  rw [turn, List.length_cons, if_neg hlength.ne, hfield]
  dsimp only
  rw [h]

/-! ### What it yields -/

lemma yields_frame {f : Bindings → Search Bindings} {ways w : Search Bindings}
    (hbelow : Yields again fields below w)
    (hnext : ∀ d rest v, Yields again fields (⟨acc, s, rest ()⟩ :: below) v →
      Yields again fields (⟨acc, s, .answer d rest⟩ :: below) ((f d).append fun _ => v)) :
    Yields again fields (⟨acc, s, ways⟩ :: below) ((ways.bind f).append fun _ => w) := by
  induction ways with
  | done =>
    have hpop : turn again fields (⟨acc, s, .done⟩ :: below) = .go [] below := rfl
    exact .go hpop hbelow
  | cut => exact .cut rfl
  | note e rest ih =>
    have hnote : turn again fields (⟨acc, s, .note e rest⟩ :: below) =
        .go [e] (⟨acc, s, rest⟩ :: below) := rfl
    exact .go hnote ih
  | answer d rest ih =>
    rw [Search.bind, Search.append_assoc]
    exact hnext d rest _ (ih ())

lemma yields_cons {ways w : Search Bindings} {todo : List (Term × Term)}
    (htodo : fields.drop (below.length + 1) = todo) (hfits : below.length < fields.length)
    (hbelow : Yields again fields below w) :
    Yields again fields (⟨acc, s, ways⟩ :: below)
      ((ways.bind fun d => fieldSearch again (s.extend d) (acc.extend d) todo).append
        fun _ => w) := by
  -- on the fields after the one of the frame, and for each frame on its ways
  induction todo generalizing acc s ways below w with
  | nil =>
    have hlast : below.length + 1 = fields.length := by
      have := List.drop_eq_nil_iff.1 htodo
      omega
    exact yields_frame hbelow fun d rest v hrest => .yield (turn_last hlast) hrest
  | cons field todo ih =>
    obtain ⟨left, right⟩ := field
    have hfield : fields[below.length + 1]? = some (left, right) := by
      rw [← List.head?_drop, htodo, List.head?_cons]
    have hlength := (List.getElem?_eq_some_iff.1 hfield).1
    have hrest : fields.drop (below.length + 1 + 1) = todo := by
      rw [← List.tail_drop, htodo, List.tail_cons]
    refine yields_frame hbelow fun d rest v hv => ?_
    rw [fieldSearch, Search.append_notes]
    rcases hm : again (s.extend d) ((s.extend d).walk left) ((s.extend d).walk right) with
      ⟨log, _ | ways'⟩ <;>
      rw [Matching.search, Search.bind_notes, Search.append_notes, ← Search.notes_append]
    · exact .go (turn_refused hfield hm) hv
    · exact .go (turn_begun hfield hm) (ih hrest hlength hv)

lemma yields_begun {ways : Search Bindings} :
    Yields again ((left, right) :: fields) [⟨∅, s, ways⟩]
      (ways.bind fun d => fieldSearch again (s.extend d) d fields) := by
  have hempty : Yields again ((left, right) :: fields) [] .done := .finished rfl
  have hcons : Yields again ((left, right) :: fields) [⟨∅, s, ways⟩]
      ((ways.bind fun d => fieldSearch again (s.extend d) (extend ∅ d) fields).append
        fun _ => .done) := yields_cons rfl (Nat.succ_pos _) hempty
  simpa only [empty_extend, Search.append_done] using hcons

/-- **Simulation**: matching by the loop is matching by the recursion down the fields. -/
theorem backtracks_iff {m : Matching} :
    Backtracks again s fields m ↔ m = matchFields again s fields := by
  cases fields with
  | nil =>
    refine ⟨fun h => ?_, fun h => h ▸ .nothing⟩
    cases h
    rfl
  | cons field fields =>
    obtain ⟨left, right⟩ := field
    rcases hm : again s left right with ⟨log, _ | ways⟩
    · have hfields : matchFields again s ((left, right) :: fields) = (log, none) := by
        rw [matchFields, hm, Matching.search, Search.bind_notes, Search.opening_notes]
        exact congrArg (·, none) (List.append_nil log)
      rw [hfields]
      refine ⟨fun h => ?_, fun h => h ▸ .refused hm⟩
      cases h with
      | refused h => exact h.symm.trans hm
      | begun h => cases h.symm.trans hm
    · obtain ⟨w, hw⟩ : ∃ w, w = ways.bind fun d => fieldSearch again (s.extend d) d fields :=
        ⟨_, rfl⟩
      have hrun : Yields again ((left, right) :: fields) [⟨∅, s, ways⟩] w := hw ▸ yields_begun
      have hfields : matchFields again s ((left, right) :: fields) =
          (log ++ w.opening.1, w.opening.2) := by
        rw [matchFields, hm, Matching.search, Search.bind_notes, Search.opening_notes, hw]
      rw [hfields]
      refine ⟨fun h => ?_, fun h => h ▸ .begun hm hrun⟩
      cases h with
      | refused h => cases h.symm.trans hm
      | begun h hrun' =>
        cases h.symm.trans hm
        rw [hrun'.unique hrun]

end Bindings

/-- Wherever matching comes to two pairs, the loop does it, with what matching does for each
field. -/
lemma Problem.Ready.backtracks_iff {p : Problem} (hp : p.Ready)
    (hpairs : Term.Pairs p.left p.right) {m : Matching} :
    Bindings.Backtracks Bindings.matchTerms p.bindings (Term.fields p.left p.right) m ↔
      m = p.matching := by
  obtain ⟨s, left, right⟩ := p
  obtain ⟨a, b, a', b', rfl, rfl⟩ := hpairs.exists_eq
  have hstep := matchTerms_eq_matchStep hp
  rw [Problem.matching, hstep]
  exact Bindings.backtracks_iff

end Relational
