import Relational.Command.Session
import Relational.Proofs.Constraining

/-!
The verdict on a query. The search of a query ends, and of its states the first are shown, each on
a line. The verdict is taken from what is shown: where no solution is wanted, it is the same as
where there is none.
-/

namespace Relational

/-! ### Solving -/

namespace Query

/-- A query takes no variables, so the counters do not matter to it. -/
lemma run_goal (q : Query) (c : Counters) : q.goal.run (.root .global) c = (q.solve, c) := by
  obtain ⟨left, relation, right⟩ := q
  cases relation <;> rfl

lemma complete_solve (q : Query) : q.solve.states.Complete := by
  obtain ⟨left, relation, right⟩ := q
  have hroot : (State.root .global).bindings.Acyclic := Bindings.acyclic_empty
  obtain ⟨ds, hds⟩ := exists_ways (hroot.ready left right)
  cases relation with
  | equal => exact (State.unify_of_ways hroot hds).1
  | differ => exact (State.disunify_of_ways hroot hds).1

end Query

namespace Command.Options

variable (o : Options) (q : Query) (c : Counters) (xs : VarSet) (s : State)

/-! ### What is shown -/

/-- The line of a state. -/
def solution : String := (if o.showBindings then s.render else s.answer xs) ++ "\n"

/-- The lines of the states that are wanted. -/
def solutions : List String :=
  (q.solve.states.toList.take o.maxSolutions).map (o.solution q.freeVars)

lemma out_answer : (o.answer xs s).out = o.solution xs s := by
  unfold answer solution
  split_ifs <;> rfl

lemma any_isRight {α β : Type} (l : List (α ⊕ β)) :
    l.any Sum.isRight = !(l.filterMap Sum.getRight?).isEmpty := by
  induction l with
  | nil => rfl
  | cons a l ih =>
    cases a with
    | inl a =>
      rw [List.filterMap_cons_none rfl, ← ih, List.any_cons, Sum.isRight_inl, Bool.false_or]
    | inr b => rfl

/-- Only the answers add to the text. -/
lemma out_written {α β : Type} (l : List (α ⊕ β)) (f : α ⊕ β → Output)
    (hf : ∀ a, (f (.inl a)).out = "") :
    (Output.join (l.map f)).out =
      String.join ((l.filterMap Sum.getRight?).map fun b => (f (.inr b)).out) := by
  rw [Output.join_eq]
  dsimp only
  induction l with
  | nil => rfl
  | cons a l ih =>
    rw [List.map_cons, List.map_cons, String.join_cons, ih]
    cases a with
    | inl a => rw [List.filterMap_cons_none rfl, hf, String.empty_append]
    | inr b => exact String.join_cons.symm

lemma pull_solve : (q.solve.states.pull o.maxSolutions).filterMap Sum.getRight? =
    q.solve.states.toList.take o.maxSolutions := q.solve.states.take_eq o.maxSolutions

lemma counters_ask : (o.ask q c).2.2 = c := by
  rw [ask, q.run_goal]

lemma answered_ask : (o.ask q c).2.1 = !(o.solutions q).isEmpty := by
  rw [ask, q.run_goal]
  simp only [any_isRight, pull_solve, solutions, List.isEmpty_map]

lemma out_ask : (o.ask q c).1.out =
    String.join (o.solutions q) ++ if o.solutions q = [] then "no\n" else "" := by
  have hshown : (o.ask q c).1.out = String.join (o.solutions q) ++
      if (o.ask q c).2.1 then "" else "no\n" := by
    rw [ask, q.run_goal]
    simp only [Output.out_append, Output.out_text, String.empty_append]
    rw [out_written _ _ fun _ => rfl, pull_solve]
    simp only [out_answer, solutions]
  rw [hshown, answered_ask]
  cases o.solutions q <;> rfl

/-! ### The query of the arguments -/

variable {o q c xs s}

lemma solutions_eq_nil :
    o.solutions q = [] ↔ q.solve.states.toList.length = 0 ∨ o.maxSolutions = 0 := by
  rw [solutions, List.map_eq_nil_iff, List.take_eq_nil_iff, List.length_eq_zero_iff, or_comm]

/-- No line of a state can be taken for `no`: there is a brace, a `y` or an equals sign in it. -/
lemma exists_mem_solution : ∃ a ∈ (o.solution xs s).toList, a ∉ "no\n".toList := by
  unfold solution
  split_ifs with hbindings
  · exact ⟨'\x7b', by simp [State.render, Bindings.render], by decide⟩
  · unfold State.answer
    split_ifs with hempty
    · exact ⟨'y', by decide, by decide⟩
    · refine ⟨'=', ?_, by decide⟩
      rw [← Std.ExtTreeSet.isEmpty_toList] at hempty
      rcases hxs : xs.toList with _ | ⟨x, _ | ⟨y, ys⟩⟩
      · simp [hxs] at hempty
      · simp
      · simp

lemma join_ne_no {ls : List String} (hne : ls ≠ [])
    (h : ∀ l ∈ ls, ∃ a ∈ l.toList, a ∉ "no\n".toList) : String.join ls ≠ "no\n" := by
  obtain ⟨l, hl⟩ := List.exists_mem_of_ne_nil ls hne
  obtain ⟨a, ha, hno⟩ := h l hl
  intro heq
  rw [← heq, String.toList_join] at hno
  exact hno (List.mem_flatMap.2 ⟨l, hl, ha⟩)

lemma out_ask_eq_no : (o.ask q c).1.out = "no\n" ↔ o.solutions q = [] := by
  rw [out_ask]
  split_ifs with hempty
  · simp [hempty]
  · have hmarked : ∀ l ∈ o.solutions q, ∃ a ∈ l.toList, a ∉ "no\n".toList := by
      intro l hl
      obtain ⟨s, -, rfl⟩ := List.mem_map.1 hl
      exact exists_mem_solution
    simpa [hempty] using join_ne_no hempty hmarked

lemma once_of_parse {text : String}
    (hq : Query.parse (String.ofList (Text.trim text.toList)) = .ok q) :
    o.once text = ((o.ask q .start).1, if o.solutions q = [] then 1 else 0) := by
  unfold once
  dsimp only
  rw [hq]
  dsimp only
  rw [answered_ask]
  cases o.solutions q <;> rfl

/-- **Verdict**: let the text of the arguments be read as a query. Its search ends. As many
solutions are shown as are wanted or as there are, whichever is less, each on its line and the
first ones in order; where none is shown, `no` is, and only there. The command succeeds if there is
a solution and one is wanted, and otherwise its exit code is 1. -/
theorem run_verdict (o : Options) (text : String) (input : List UInt8) (q : Query)
    (ho : o.query = some text)
    (hq : Query.parse (String.ofList (Text.trim text.toList)) = .ok q) :
    q.solve.states.Complete ∧
    (o.solutions q).length = min o.maxSolutions q.solve.states.toList.length ∧
    (run o input).1.out =
      String.join (o.solutions q) ++ (if o.solutions q = [] then "no\n" else "") ∧
    ((run o input).1.out = "no\n" ↔
      q.solve.states.toList.length = 0 ∨ o.maxSolutions = 0) ∧
    ((run o input).2 = 0 ↔ 0 < q.solve.states.toList.length ∧ 0 < o.maxSolutions) ∧
    ((run o input).2 = 1 ↔ q.solve.states.toList.length = 0 ∨ o.maxSolutions = 0) := by
  have hrun : run o input = ((o.ask q .start).1, if o.solutions q = [] then 1 else 0) := by
    rw [run, ho, ← once_of_parse hq]
  have hlength : (o.solutions q).length = min o.maxSolutions q.solve.states.toList.length := by
    rw [solutions, List.length_map, List.length_take]
  rw [hrun]
  refine ⟨q.complete_solve, hlength, o.out_ask q _, out_ask_eq_no.trans solutions_eq_nil, ?_⟩
  -- the exit code: by whether anything is shown
  by_cases hempty : o.solutions q = []
  · have hcounts := solutions_eq_nil.1 hempty
    rw [if_pos hempty]
    omega
  · have hcounts := mt solutions_eq_nil.2 hempty
    rw [if_neg hempty]
    omega

/-- Here one of two solutions is wanted. -/
theorem run_verdict_choice :
    ∃ q, Query.parse (String.ofList (Text.trim " true = x | true".toList)) = .ok q ∧
      q.solve.states.toList.length = 2 ∧
      (run ⟨some " true = x | true", 1, false, .none⟩ []).1.out = "x = false\n" ∧
      (run ⟨some " true = x | true", 1, false, .none⟩ []).2 = 0 := by
  have hq : Query.parse (String.ofList (Text.trim " true = x | true".toList)) =
      .ok ⟨.bool true, .equal, .expr (.var ⟨"x"⟩) .or (.bool true)⟩ := by decide +kernel
  obtain ⟨-, -, hout, -, hzero, -⟩ :=
    run_verdict ⟨some " true = x | true", 1, false, .none⟩ _ [] _ rfl hq
  refine ⟨_, hq, by decide +kernel, ?_, hzero.2 (by decide +kernel)⟩
  rw [hout]
  decide +kernel

/-- There is a solution, but none is wanted: the verdict is `no`. -/
theorem run_verdict_unwanted :
    ∃ (o : Options) (q : Query),
      Request.ofArgs ["--max-solutions", "0", "1 = 1"] = .run o ∧ o.query = some "1 = 1" ∧
      Query.parse (String.ofList (Text.trim "1 = 1".toList)) = .ok q ∧
      0 < q.solve.states.toList.length ∧ (run o []).1.out = "no\n" ∧ (run o []).2 = 1 :=
  ⟨⟨some "1 = 1", 0, false, .none⟩, ⟨.int 1, .equal, .int 1⟩, by decide +kernel⟩

end Command.Options

end Relational
