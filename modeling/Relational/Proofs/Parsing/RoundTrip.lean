import Relational.Proofs.FloatFree
import Relational.Proofs.Parsing.Language

/-!
Printing and reading are inverse. A printed term is derived as the term: brackets stand where the
level of an operand asks for them, and chains of pairs are written by how they end. What is read,
on the other hand, has only names and texts that can be printed.
-/

namespace Relational

namespace Scalar

/-- A truth value, an integer, or a text that holds no quote. -/
def printable : Scalar → Bool
  | bool _ | int _ => true
  | float _ => false
  | text s => s.toList.all (· ≠ '"')

end Scalar

/-- A letter or underscore, then letters, digits and underscores; but no truth value. -/
def Var.printable (x : Var) : Bool :=
  (match x.name.toList with
    | c :: cs => Text.startsName c && cs.all Text.continuesName
    | [] => false) && x.name ≠ "true" && x.name ≠ "false"

namespace Term

/-- There are no floats, every variable has a name that is read as a variable, and no text holds
a quote. -/
def printable : Term → Bool
  | .empty => true
  | .value v => v.printable
  | .var x => x.printable
  | .pair a b | .expr a _ b => a.printable && b.printable

lemma printable_pair {a b : Term} : (pair a b).printable ↔ a.printable ∧ b.printable := by
  simp [printable]

lemma printable_expr {a b : Term} {op : Op} :
    (expr a op b).printable ↔ a.printable ∧ b.printable := by
  simp [printable]

end Term

namespace Text

/-! ### Levels -/

variable {n m : ℕ} {s : List Char} {t : Term}

/-- What binds tightly may stand where less is asked for. -/
lemma Derives.lower (h : Derives (.term n t) s) (hm : 1 ≤ m) (hmn : m ≤ n) (hn : n ≤ 5) :
    Derives (.term m t) s := by
  induction n, hmn using Nat.le_induction with
  | base => exact h
  | succ n hmn ih =>
    refine ih ?_ (by omega)
    have hchain := Derives.chain (by omega : 1 ≤ n ∧ n ≤ 4) h .last
    rwa [List.append_nil] at hchain

lemma Derives.exists_chain (h : Derives (.term n t) s) (hn : n ≤ 4) :
    ∃ first more s₁ s₂, t = first.operate more ∧ s = s₁ ++ s₂ ∧
      Derives (.term (n + 1) first) s₁ ∧ Derives (.operations n more) s₂ := by
  cases h with
  | chain _ ht hm => exact ⟨_, _, _, _, rfl, rfl, ht, hm⟩
  | token | unit | group | pair | nil | list => omega

lemma Derives.operations_append {more : List (Op × Term)} {op : Op} {right : Term}
    {o r : List Char} (h : Derives (.operations n more) s) (hop : op.level = n)
    (ho : Padded [op.symbol] o) (hr : Derives (.term (n + 1) right) r) :
    Derives (.operations n (more ++ [(op, right)])) (s ++ (o ++ r)) := by
  induction more generalizing s with
  | nil =>
    cases h
    subst hop
    have hone := Derives.operation ho hr .last
    rwa [List.append_nil] at hone
  | cons first more ih =>
    cases h with
    | operation ho' ht' hm' =>
      rw [List.append_assoc, List.append_assoc]
      exact .operation ho' ht' (ih hm')

/-- An operation derives from its operands, of which the left one may be of the same level. -/
lemma Derives.expr {left right : Term} {op : Op} {l o r : List Char}
    (hl : Derives (.term op.level left) l) (ho : Padded [op.symbol] o)
    (hr : Derives (.term (op.level + 1) right) r) :
    Derives (.term op.level (.expr left op right)) (l ++ (o ++ r)) := by
  have hlevel : 1 ≤ op.level ∧ op.level ≤ 4 := by cases op <;> simp [Op.level]
  -- The left operand is itself a chain of the level, and the operation goes to the end of it.
  obtain ⟨first, more, s₁, s₂, rfl, rfl, hfirst, hmore⟩ := hl.exists_chain hlevel.2
  have hchain := Derives.chain hlevel hfirst (hmore.operations_append rfl ho hr)
  rw [Term.operate, List.foldl_append] at hchain
  rw [List.append_assoc]
  exact hchain

/-! ### Printed terms -/

lemma blank_nil : Blank [] := fun _ hc => absurd hc List.not_mem_nil

lemma padded_self (token : List Char) : Padded token token := by
  have h : Padded token ([] ++ (token ++ [])) := .mk blank_nil blank_nil
  rwa [List.nil_append, List.append_nil] at h

lemma digitsValue_toDigits (k : ℕ) : digitsValue (Nat.toDigits 10 k) = k :=
  Nat.ofDigitChars_toDigits (by omega) (by omega)

lemma allDigits_toDigits (k : ℕ) : AllDigits (Nat.toDigits 10 k) := fun _ hc =>
  Nat.isDigit_of_mem_toDigits (by omega) (by omega) hc

lemma token_int (k : Int64) : Token (toString k.toInt).toList (.int k) := by
  rw [Int.toString_eq_repr, Int.repr_eq_if]
  split_ifs with h
  · rw [Nat.toList_repr]
    exact .int (allDigits_toDigits _) Nat.toDigits_ne_nil (by rw [digitsValue_toDigits]; omega)
  · have htoken : Token ('-' :: Nat.toDigits 10 (-k.toInt).toNat) (.int k) :=
      .negative (allDigits_toDigits _) Nat.toDigits_ne_nil (by rw [digitsValue_toDigits]; omega)
    rw [String.toList_append, Nat.toList_repr]
    exact htoken

lemma token_named {w : String} {c : Char} {cs : List Char} (hw : w.toList = c :: cs)
    (hc : startsName c) (hcs : cs.all continuesName) : Token w.toList (named w) := by
  have htoken := Token.name hc (List.all_eq_true.1 hcs)
  rwa [← hw, String.ofList_toList] at htoken

lemma token_bool (b : Bool) : Token (Scalar.bool b).chars (.bool b) := by
  have hfalse : "false".toList = ['f', 'a', 'l', 's', 'e'] := rfl
  have htrue : "true".toList = ['t', 'r', 'u', 'e'] := rfl
  cases b with
  | false => exact token_named hfalse rfl rfl
  | true => exact token_named htrue rfl rfl

lemma token_scalar {v : Scalar} (h : v.printable) : Token v.chars (.value v) := by
  cases v with
  | bool b => exact token_bool b
  | int k => exact token_int k
  | float x => simp [Scalar.printable] at h
  | text u =>
    have hu : ∀ c ∈ u.toList, c ≠ '"' := by simpa [Scalar.printable] using h
    have htoken := Token.text hu
    rw [String.ofList_toList] at htoken
    exact htoken

lemma token_var {x : Var} (h : x.printable) : Token x.name.toList (.var x) := by
  simp only [Var.printable, Bool.and_eq_true, decide_eq_true_eq] at h
  obtain ⟨⟨hname, htrue⟩, hfalse⟩ := h
  rcases hx : x.name.toList with _ | ⟨c, cs⟩
  · simp [hx] at hname
  · rw [hx, Bool.and_eq_true] at hname
    have htoken := token_named hx hname.1 hname.2
    rw [named, if_neg htrue, if_neg hfalse] at htoken
    rwa [← hx]

lemma blank_space : Blank [' '] := fun _ hc => by rw [List.mem_singleton.1 hc]; rfl

lemma padded_spaces (token : List Char) : Padded token ([' '] ++ (token ++ [' '])) :=
  .mk blank_space blank_space

/-- In brackets a term is an atom. -/
lemma Derives.bracket (h : Derives (.term 1 t) s) : Derives (.term 5 t) ('(' :: s ++ [')']) :=
  .group (padded_self _) h (padded_self _)

lemma padded_comma : Padded [','] [',', ' '] := by
  have h : Padded [','] ([] ++ ([','] ++ [' '])) := .mk blank_nil blank_space
  exact h

/-- The text of a term, where an operator of a level stands next to it, and what stands after the
first item of a list. -/
structure Printed (t : Term) : Prop where
  chars : ∀ n ≤ 5, Derives (.term (max n 1) t) (t.chars n)
  tail : t.isList → ∃ ts, t = .ofList ts ∧ Derives (.items ts) t.tailChars

/-- Atoms are printed the same everywhere. -/
lemma printed_atom (h : Derives (.term 5 t) s) (hs : ∀ n, t.chars n = s) (n : ℕ) (hn : n ≤ 5) :
    Derives (.term (max n 1) t) (t.chars n) := by
  rw [hs]
  exact h.lower (by omega) (by omega) le_rfl

lemma printed_empty : Printed .empty where
  chars := printed_atom (.unit (padded_self ['(']) (padded_self [')'])) fun _ => rfl
  tail _ := ⟨[], rfl, .noMore⟩

lemma printed_token {t : Term} (h : Token s t) (hs : ∀ n, t.chars n = s) (ht : ¬ t.isList) :
    Printed t where
  chars := printed_atom (.token h (padded_self s)) hs
  tail hlist := absurd hlist ht

lemma printed_pair {a b : Term} (ha : Printed a) (hb : Printed b) : Printed (.pair a b) where
  chars := by
    have hfirst := ha.chars 0 (by omega)
    by_cases hlist : b.isList
    · obtain ⟨ts, rfl, hitems⟩ := hb.tail hlist
      have hderives := Derives.list (padded_self ['[']) hfirst hitems (padded_self [']'])
      refine printed_atom hderives fun n => ?_
      simp [Term.chars, hlist]
    · have hderives := Derives.pair (padded_self ['(']) hfirst padded_comma (hb.chars 0 (by omega))
        (padded_self [')'])
      refine printed_atom hderives fun n => ?_
      simp [Term.chars, hlist]
  tail hlist := by
    obtain ⟨ts, rfl, hitems⟩ := hb.tail hlist
    refine ⟨a :: ts, rfl, ?_⟩
    have hderives := Derives.item padded_comma (ha.chars 0 (by omega)) hitems
    simpa [Term.tailChars] using hderives

lemma printed_expr {a b : Term} {op : Op} (ha : Printed a) (hb : Printed b) :
    Printed (.expr a op b) where
  chars n hn := by
    have hlevel : 1 ≤ op.level ∧ op.level ≤ 4 := by cases op <;> simp [Op.level]
    have hleft := ha.chars op.level (by omega)
    have hright := hb.chars (op.level + 1) (by omega)
    rw [max_eq_left hlevel.1] at hleft
    rw [max_eq_left (by omega)] at hright
    have hbody := hleft.expr (padded_spaces [op.symbol]) hright
    rw [Term.chars]
    split_ifs with hbrackets
    · exact (hbody.lower le_rfl hlevel.1 (by omega)).bracket.lower (by omega) (by omega) le_rfl
    · exact hbody.lower (by omega) (by omega) (by omega)
  tail hlist := absurd hlist (by simp [Term.isList])

lemma printed_of_printable {t : Term} (h : t.printable) : Printed t := by
  induction t with
  | empty => exact printed_empty
  | value v => exact printed_token (token_scalar h) (fun _ => rfl) (by simp [Term.isList])
  | var x => exact printed_token (token_var h) (fun _ => rfl) (by simp [Term.isList])
  | pair a b iha ihb =>
    rw [Term.printable_pair] at h
    exact printed_pair (iha h.1) (ihb h.2)
  | expr a op b iha ihb =>
    rw [Term.printable_expr] at h
    exact printed_expr (iha h.1) (ihb h.2)

lemma derives_render (h : t.printable) : Derives (.term 1 t) t.render.toList := by
  rw [Term.render, String.toList_ofList]
  exact (printed_of_printable h).chars 0 (by omega)

lemma derivesQuery_render {q : Query} (hl : q.left.printable) (hr : q.right.printable) :
    DerivesQuery q q.render.toList := by
  have hderives := DerivesQuery.mk (derives_render hl) (padded_spaces q.relation.symbol.toList)
    (derives_render hr)
  simpa [Query.render] using hderives

/-! ### Read terms -/

lemma printable_named {w : String} {c : Char} {cs : List Char} (hw : w.toList = c :: cs)
    (hc : startsName c) (hcs : ∀ d ∈ cs, continuesName d) : (named w).printable := by
  unfold named
  split_ifs with htrue hfalse
  · rfl
  · rfl
  · have hall : cs.all continuesName := List.all_eq_true.2 hcs
    simp [Term.printable, Var.printable, hw, hc, hall, htrue, hfalse]

lemma Token.printable (h : Token s t) (hfree : t.floatFree) : t.printable := by
  cases h with
  | float => simp [Term.float, Term.floatFree] at hfree
  | int | negative => rfl
  | text hs => simpa [Term.text, Term.printable, Scalar.printable] using hs
  | name hc hs => exact printable_named String.toList_ofList hc hs

lemma compositional_printable :
    Term.Compositional fun t => t.floatFree → t.printable where
  empty _ := rfl
  pair ha hb hfree := by
    rw [Term.floatFree_pair] at hfree
    exact Term.printable_pair.2 ⟨ha hfree.1, hb hfree.2⟩
  expr ha hb hfree := by
    rw [Term.floatFree_expr] at hfree
    exact Term.printable_expr.2 ⟨ha hfree.1, hb hfree.2⟩

/-- What the grammar derives is as printable as its tokens, so only floats can be in the way. -/
lemma Derives.printable {p : Phrase} (h : Derives p s) :
    p.terms.all Term.floatFree → p.terms.all Term.printable := by
  have hall := h.all compositional_printable fun _ _ ht => ht.printable
  simp only [List.all_eq_true]
  exact fun hfree t ht => hall t ht (hfree t ht)

end Text

open Text

/-- **Round trip**: what is printed is read back as it was, for terms and for queries over them; and
of terms without floats nothing else is ever read. -/
theorem parse_render :
    (∀ t : Term, t.printable → Term.parse t.render = .ok t) ∧
    (∀ (text : String) (t : Term), Term.parse text = .ok t → t.floatFree → t.printable) ∧
    ∀ q : Query, q.left.printable → q.right.printable → Query.parse q.render = .ok q := by
  refine ⟨fun t h => ?_, fun text t h hfree => ?_, fun q hl hr => ?_⟩
  · exact bind_complete_eq_ok.2 (termOf_eq_ok_iff.2 (derives_render h))
  · have hderives := termOf_eq_ok_iff.1 (bind_complete_eq_ok.1 h)
    simpa [Phrase.terms, hfree] using hderives.printable
  · exact bind_complete_eq_ok.2 (queryOf_eq_ok_iff.2 (derivesQuery_render hl hr))

theorem parse_render_nested :
    ∃ t : Term, t.render = "1 - (-9223372036854775808 - x) * 2 | [(\"a (b\", _y1), true, ()]" ∧
      t.floatFree ∧ t.printable ∧ Term.parse t.render = .ok t ∧
      Query.parse (Query.render ⟨t, .differ, t⟩) = .ok ⟨t, .differ, t⟩ := by
  obtain ⟨hterm, hread, hquery⟩ := parse_render
  let t : Term :=
    .expr (.expr (.int 1) .minus
      (.expr (.expr (.int Int64.minValue) .minus (.var ⟨"x"⟩)) .times (.int 2))) .or
      (.ofList [.pair (.text "a (b") (.var ⟨"_y1"⟩), .bool true, .empty])
  have hprintable : t.printable := by decide
  have hparse := hterm t hprintable
  exact ⟨t, by decide +kernel, rfl, hread t.render t hparse rfl, hparse,
    hquery ⟨t, .differ, t⟩ hprintable hprintable⟩

end Relational
