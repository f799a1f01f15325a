import Relational.Proofs.NormalForm
import Relational.State

/-!
The guarded walk, as it runs. It carries the path of the variables that it is following, and goes
down a chain of pairs in a loop that puts the walked first fields aside. Whatever the bindings
are, it comes to an end and leaves the path as it was. A variable stays in the walked term only
if it is unbound or on a circle.
-/

namespace Relational

/-- What the walk has to do: a term, or a chain of pairs, of which some first fields are walked
already. The last of them stands first. -/
inductive Pending where
  | term (t : Term)
  | chain (heads : List Term) (rest : Term)

/-- The pairs with these first fields, the last of them given first, and then the tail. -/
def Term.prepend (heads : List Term) (tail : Term) : Term :=
  heads.foldl (fun tail head => .pair head tail) tail

/-- What comes of it when terms are put for the variables. -/
def Pending.instantiate (f : Var → Term) : Pending → Term
  | term t => t.instantiate f
  | chain heads rest => .prepend heads (rest.instantiate f)

namespace Bindings

/-- A run of the walk, from a path and what there is to do to a term and the path after it. The
variable that was taken up last stands first in a path. -/
inductive Runs (s : Bindings) : List Var → Pending → Term → List Var → Prop where
  | empty {path : List Var} : Runs s path (.term .empty) .empty path
  | value {path : List Var} {v : Scalar} : Runs s path (.term (.value v)) (.value v) path
  /-- The variable closes a circle. -/
  | closed {path : List Var} {x : Var} (h : x ∈ path) : Runs s path (.term (.var x)) (.var x) path
  | free {path : List Var} {x : Var} (h : x ∉ path) (hx : s[x]? = none) :
      Runs s path (.term (.var x)) (.var x) path
  /-- The variable is put on the path, and after the run the last one is taken off. -/
  | follow {path path' : List Var} {x : Var} {t u : Term} (h : x ∉ path) (hx : s[x]? = some t)
      (ht : Runs s (x :: path) (.term t) u path') : Runs s path (.term (.var x)) u path'.tail
  | expr {path path' path'' : List Var} {a b u v : Term} {op : Op}
      (ha : Runs s path (.term a) u path') (hb : Runs s path' (.term b) v path'') :
      Runs s path (.term (.expr a op b)) (.reduce u op v) path''
  | pair {path path' : List Var} {a b u : Term} (h : Runs s path (.chain [] (.pair a b)) u path') :
      Runs s path (.term (.pair a b)) u path'
  | next {path path' path'' : List Var} {heads : List Term} {a b u v : Term}
      (ha : Runs s path (.term a) u path') (hb : Runs s path' (.chain (u :: heads) b) v path'') :
      Runs s path (.chain heads (.pair a b)) v path''
  | last {path path' : List Var} {heads : List Term} {t u : Term} (h : ∀ a b, t ≠ .pair a b)
      (ht : Runs s path (.term t) u path') : Runs s path (.chain heads t) (.prepend heads u) path'

variable {s : Bindings} {n : ℕ} {path path' : List Var}

/-! ### Every run ends -/

/-- A term is walked when its variables are, and so is a chain that goes on with it. -/
lemma runs_instantiate {f : Var → Term} {t : Term}
    (h : ∀ x ∈ t.vars, s.Runs path (.term (.var x)) (f x) path) :
    s.Runs path (.term t) (t.instantiate f) path ∧
      ∀ heads, s.Runs path (.chain heads t) (.prepend heads (t.instantiate f)) path := by
  induction t with
  | empty => exact ⟨.empty, fun _ => .last (by simp) .empty⟩
  | value v => exact ⟨.value, fun _ => .last (by simp) .value⟩
  | var x =>
    have hx := h x (by simp [Term.vars])
    exact ⟨hx, fun _ => .last (by simp) hx⟩
  | pair a b iha ihb =>
    have ha := iha fun x hx => h x (by simp [Term.vars, hx])
    have hb := ihb fun x hx => h x (by simp [Term.vars, hx])
    exact ⟨.pair (.next ha.1 (hb.2 _)), fun heads => .next ha.1 (hb.2 _)⟩
  | expr a op b iha ihb =>
    have ha := iha fun x hx => h x (by simp [Term.vars, hx])
    have hb := ihb fun x hx => h x (by simp [Term.vars, hx])
    exact ⟨.expr ha.1 hb.1, fun _ => .last (by simp) (.expr ha.1 hb.1)⟩

lemma Trail.runs (h : s.Trail n path) (t : Term) :
    s.Runs path (.term t) (t.instantiate (s.resolve n path)) path := by
  have hvar : ∀ x, s.Runs path (.term (.var x)) (s.resolve n path x) path := by
    refine h.resolve_induct (R := fun path x u => s.Runs path (.term (.var x)) u path)
      (fun _ _ => .closed) (fun _ _ => .free) fun path x t f hmem hx ih => ?_
    -- the run of the bound term leaves `x :: path`, and so the variable comes off again
    exact .follow hmem hx (runs_instantiate fun y _ => ih y).1
  exact (runs_instantiate fun x _ => hvar x).1

/-! ### What every run comes to -/

lemma Runs.eq {p : Pending} {u : Term} (h : s.Runs path p u path') (hn : s.Trail n path) :
    u = p.instantiate (s.resolve n path) ∧ path' = path := by
  induction h generalizing n with
  | empty | value => exact ⟨rfl, rfl⟩
  | closed hmem => exact ⟨(resolve_of_mem hmem n).symm, rfl⟩
  | free _ hx => exact ⟨(resolve_of_none hx n _).symm, rfl⟩
  | @follow path path' x t u hmem hx _ ih =>
    obtain ⟨m, hm, he⟩ := hn.resolve_of_some hmem hx
    obtain ⟨rfl, rfl⟩ := ih hm
    exact ⟨he.symm, rfl⟩
  | expr _ _ iha ihb =>
    obtain ⟨rfl, rfl⟩ := iha hn
    obtain ⟨rfl, rfl⟩ := ihb hn
    exact ⟨rfl, rfl⟩
  | pair _ ih => exact ih hn
  | next _ _ iha ihb =>
    obtain ⟨rfl, rfl⟩ := iha hn
    obtain ⟨rfl, rfl⟩ := ihb hn
    exact ⟨rfl, rfl⟩
  | last _ _ ih =>
    obtain ⟨rfl, rfl⟩ := ih hn
    exact ⟨rfl, rfl⟩

lemma Trail.runs_iff (h : s.Trail n path) {t u : Term} :
    s.Runs path (.term t) u path' ↔ u = t.instantiate (s.resolve n path) ∧ path' = path := by
  refine ⟨fun hrun => hrun.eq h, ?_⟩
  rintro ⟨rfl, rfl⟩
  exact h.runs t

/-! ### Where it stops -/

lemma Trail.free_or_circle (h : s.Trail n path) {x : Var} (hp : ∀ y ∈ path, s.Reaches y x) :
    ∀ z ∈ (s.resolve n path x).vars, s[z]? = none ∨ s.Reaches z z := by
  revert hp
  refine h.resolve_induct
    (R := fun path x u => (∀ y ∈ path, s.Reaches y x) → ∀ z ∈ u.vars, s[z]? = none ∨ s.Reaches z z)
    ?closed ?free ?follow x
  case closed =>
    intro path x hmem hp z hz
    obtain rfl := List.mem_singleton.1 hz
    exact .inr (hp z hmem)
  case free =>
    intro path x _ hx _ z hz
    obtain rfl := List.mem_singleton.1 hz
    exact .inl hx
  case follow =>
    intro path x t f _ hx ih hp z hz
    obtain ⟨y, hy, hzy⟩ := Term.mem_vars_instantiate.1 hz
    have hxy : s.Refers x y := ⟨t, hx, hy⟩
    refine ih y (fun w hw => ?_) z hzy
    rcases List.mem_cons.1 hw with rfl | hw
    · exact .single hxy
    · exact (hp w hw).tail hxy

end Bindings

namespace State

/-- **Termination** of the walk: on every state, with circles or without, walking a term comes to
an end from the empty path, in one way only and with the path empty again, and the number of its
bindings is enough steps for that. A variable that is left is unbound or on a circle. -/
theorem walk_ends (s : State) (t : Term) :
    (∀ u path, s.bindings.Runs [] (.term t) u path ↔ u = s.walk t ∧ path = []) ∧
    (∀ n, s.bindings.size ≤ n → t.instantiate (s.bindings.resolve n []) = s.walk t) ∧
    ∀ x ∈ (s.walk t).vars, s.lookup x = none ∨ s.bindings.Reaches x x := by
  have htrail := Bindings.trail_nil s.bindings
  refine ⟨fun u path => htrail.runs_iff, fun n hn => ?_, fun x hx => ?_⟩
  · exact ((Bindings.trail_of_le hn).runs t |>.eq htrail).1
  · obtain ⟨y, -, hxy⟩ := Term.mem_vars_instantiate.1 hx
    exact htrail.free_or_circle (by simp) x hxy

/-- A state in which `x` leads to `y`, and `y` back to `x` and to `z`. -/
def twined : State :=
  ((root .global).extend (.single ⟨"x"⟩ (.pair (.int 1) (.var ⟨"y"⟩)))).extend
    (.single ⟨"y"⟩ (.pair (.var ⟨"x"⟩) (.var ⟨"z"⟩)))

/-- The circle is gone round from `x` and again from `y`, each time up to where it closes. -/
theorem walk_ends_twined :
    twined.walk (.pair (.var ⟨"x"⟩) (.var ⟨"y"⟩)) =
      .pair (.pair (.int 1) (.pair (.var ⟨"x"⟩) (.var ⟨"z"⟩)))
        (.pair (.pair (.int 1) (.var ⟨"y"⟩)) (.var ⟨"z"⟩)) ∧
    twined.bindings.Runs [] (.term (.pair (.var ⟨"x"⟩) (.var ⟨"y"⟩)))
      (twined.walk (.pair (.var ⟨"x"⟩) (.var ⟨"y"⟩))) [] ∧
    twined.bindings.size ≤ 7 ∧
    Term.instantiate (twined.bindings.resolve 7 []) (.pair (.var ⟨"x"⟩) (.var ⟨"y"⟩)) =
      twined.walk (.pair (.var ⟨"x"⟩) (.var ⟨"y"⟩)) ∧
    ⟨"x"⟩ ∈ (twined.walk (.pair (.var ⟨"x"⟩) (.var ⟨"y"⟩))).vars ∧
    twined.lookup ⟨"x"⟩ ≠ none ∧
    (twined.lookup ⟨"x"⟩ = none ∨ twined.bindings.Reaches ⟨"x"⟩ ⟨"x"⟩) := by
  obtain ⟨hruns, hsteps, hvars⟩ := walk_ends twined (.pair (.var ⟨"x"⟩) (.var ⟨"y"⟩))
  have hsize : twined.bindings.size ≤ 7 := by decide +kernel
  have hmem : ⟨"x"⟩ ∈ (twined.walk (.pair (.var ⟨"x"⟩) (.var ⟨"y"⟩))).vars := by decide +kernel
  exact ⟨by decide +kernel, (hruns _ _).2 ⟨rfl, rfl⟩, hsize, hsteps 7 hsize, hmem,
    by decide +kernel, hvars _ hmem⟩

end State

end Relational
