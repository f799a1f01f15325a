import Relational.Proofs.Parsing.Tokens
import Relational.Text.Grammar

/-!
What is derived from some characters is found there, if what follows them cannot go on with them.
A derivation may leave blanks to what follows that the reader takes with a token; so two inputs
count as the same that differ in blanks before them, and the reader leaves a rest without any.
-/

namespace Relational.Text

variable {n : ℕ} {p : Reader Term}

/-- The number of characters that are no blanks. -/
def ink (s : List Char) : ℕ := s.countP fun c => !isBlank c

lemma ink_append (s r : List Char) : ink (s ++ r) = ink s + ink r := List.countP_append

lemma ink_skip (s : List Char) : ink (skip s) = ink s := by
  obtain ⟨b, hb, hs⟩ := exists_blank s
  have hzero : ink b = 0 := List.countP_eq_zero.2 fun c hc => by simp [hb c hc]
  conv_rhs => rw [hs, ink_append, hzero, Nat.zero_add]

lemma ink_le_length (s : List Char) : ink s ≤ s.length := List.countP_le_length

lemma ink_le_length_skip (s r : List Char) : ink s ≤ (skip (s ++ r)).length :=
  calc ink s ≤ ink (s ++ r) := by rw [ink_append]; omega
    _ = ink (skip (s ++ r)) := (ink_skip _).symm
    _ ≤ (skip (s ++ r)).length := ink_le_length _

lemma Padded.ink_pos {c : Char} {w : List Char} (h : Padded [c] w) (hc : isBlank c = false) :
    0 < ink w := by
  obtain ⟨hb, ha⟩ := h
  have hone : ink [c] = 1 := by simp [ink, hc]
  rw [ink_append, ink_append, hone]
  omega

/-- A token before other characters is worth one step. -/
lemma Padded.exists_pred {c : Char} {w : List Char} {m k : ℕ} (h : Padded [c] w)
    (hc : isBlank c = false) (hk : ink w + m ≤ k) : ∃ j, k = j + 1 ∧ m ≤ j := by
  have hpos := h.ink_pos hc
  exact ⟨k - 1, by omega, by omega⟩

/-- The rest begins, after blanks, with what may follow a term of the level: an operator that binds
less tightly, or a character that closes or separates terms. -/
def Follows (n : ℕ) (rest : List Char) : Prop :=
  ∀ c ∈ (skip rest).head?, c ∈ [',', ')', ']', '=', '!'] ∨ ∃ op : Op, op.symbol = c ∧ op.level < n

lemma isBlank_symbol (op : Op) : isBlank op.symbol = false := by cases op <;> rfl

lemma inWord_symbol (op : Op) : inWord op.symbol = false := by cases op <;> rfl

lemma follows_nil (n : ℕ) : Follows n [] := fun c hc => by simp [skip] at hc

lemma Follows.mono {m : ℕ} {rest : List Char} (h : Follows n rest) (hm : n ≤ m) :
    Follows m rest := fun c hc =>
  (h c hc).imp_right fun ⟨op, hop, hlt⟩ => ⟨op, hop, by omega⟩

lemma Follows.avoids {rest : List Char} (h : Follows n rest) : Avoids inWord rest := by
  obtain ⟨b, hb, hrest⟩ := exists_blank rest
  rw [hrest]
  refine avoids_inWord_append hb fun c hc => ?_
  rcases h c hc with hmem | ⟨op, rfl, -⟩
  · simp only [List.mem_cons, List.not_mem_nil, or_false] at hmem
    rcases hmem with rfl | rfl | rfl | rfl | rfl <;> rfl
  · exact inWord_symbol op

/-- Another token follows. -/
lemma Padded.follows {c : Char} {cs w : List Char} (h : Padded (c :: cs) w) (hc : isBlank c = false)
    (hn : c ∈ [',', ')', ']', '=', '!'] ∨ ∃ op : Op, op.symbol = c ∧ op.level < n)
    (rest : List Char) : Follows n (w ++ rest) := by
  obtain ⟨r, hr, -⟩ := h.skip_append (visible_cons hc cs) rest
  intro d hd
  rw [hr, List.cons_append, List.head?_cons, Option.mem_some_iff] at hd
  rwa [← hd]

lemma Padded.head?_skip {c : Char} {w : List Char} (h : Padded [c] w) (hc : isBlank c = false)
    (rest : List Char) : (skip (w ++ rest)).head? = some c := by
  obtain ⟨r, hr, -⟩ := h.skip_append (visible_cons hc _) rest
  rw [hr, List.singleton_append, List.head?_cons]

/-- The reader finds `a` in `w`, before `rest` and after any blanks. -/
def Reads {α : Type} (p : Reader α) (a : α) (w rest : List Char) : Prop :=
  ∀ s, skip s = skip (w ++ rest) → p s = .found a (skip rest)

/-! ### Atoms -/

section

variable {s : List Char} {t : Term}

lemma atom_of_float {x : Float} {r : List Char} (h : float s = .found x r) :
    atom p s = .found (.float x) r := by
  simp [atom, h, Reading.map, Reading.orElse, Reading.within]

lemma atom_of_integer {n : Int64} {r : List Char} (hf : float s = .missing)
    (h : integer s = some (n, r)) : atom p s = .found (.int n) r := by
  simp [atom, hf, h, Reading.ofOption, Reading.map, Reading.orElse, Reading.within]

/-- An atom that does not begin as a number does. -/
lemma atom_of_avoids (h : Avoids opensNumber (skip s)) :
    atom p s = Reading.within .atom s
      ((Reading.ofOption (quoted s)).map Term.text
        |>.orElse fun _ => (parenthesized p s).within .parenthesized s
        |>.orElse fun _ => (list p s).within .list s
        |>.orElse fun _ => (Reading.ofOption (name s)).map named) := by
  simp [atom, float_eq_missing h, integer_eq_none h, Reading.ofOption, Reading.map, Reading.orElse]

lemma parenthesized_eq_missing (h : Avoids (· = '(') (skip s)) : parenthesized p s = .missing := by
  simp [parenthesized, symbol_eq_none fun d hd => by simpa using h d hd]

lemma list_eq_missing (h : Avoids (· = '[') (skip s)) : list p s = .missing := by
  simp [list, symbol_eq_none fun d hd => by simpa using h d hd]

variable {c : Char} {r x : List Char}

lemma avoids_skip_of_eq {q : Char → Bool} (hs : skip s = c :: x) (h : q c = false) :
    Avoids q (skip s) := by
  rw [hs]
  exact avoids_cons h x

lemma atom_of_quoted {u : String} (hs : skip s = '"' :: x) (h : quoted s = some (u, r)) :
    atom p s = .found (.text u) r := by
  rw [atom_of_avoids (avoids_skip_of_eq hs rfl), h]
  rfl

lemma atom_of_parenthesized (hs : skip s = '(' :: x) (h : parenthesized p s = .found t r) :
    atom p s = .found t r := by
  rw [atom_of_avoids (avoids_skip_of_eq hs rfl), quoted_eq_none (avoids_skip_of_eq hs rfl), h]
  rfl

lemma atom_of_list (hs : skip s = '[' :: x) (h : list p s = .found t r) :
    atom p s = .found t r := by
  rw [atom_of_avoids (avoids_skip_of_eq hs rfl), quoted_eq_none (avoids_skip_of_eq hs rfl),
    parenthesized_eq_missing (avoids_skip_of_eq hs rfl), h]
  rfl

lemma not_isDigit_of_startsName (hc : startsName c) : c.isDigit = false := by
  rw [Bool.eq_false_iff]
  intro hd
  have hnine : c.val.toNat ≤ 57 := (Char.isDigit_iff_toNat.1 hd).2
  have hletter : ((decide ('A'.val ≤ c.val ∧ c.val ≤ 'Z'.val) ||
      (decide ('a'.val ≤ c.val) && decide (c.val ≤ 'z'.val))) || decide (c = '_')) = true := hc
  simp only [Bool.or_eq_true, Bool.and_eq_true, decide_eq_true_eq,
    UInt32.le_iff_toNat_le] at hletter
  have hupper : 'A'.val.toNat = 65 := rfl
  have hlower : 'a'.val.toNat = 97 := rfl
  rcases hletter with hletter | rfl
  · omega
  · simp at hd

lemma startsName_cases (hc : startsName c) :
    opensNumber c = false ∧ c ≠ '"' ∧ c ≠ '(' ∧ c ≠ '[' := by
  have hne : ∀ d, startsName d = false → c ≠ d := by
    rintro d hd rfl
    rw [hd] at hc
    simp at hc
  refine ⟨?_, hne _ rfl, hne _ rfl, hne _ rfl⟩
  simp [opensNumber, not_isDigit_of_startsName hc, hne '.' rfl, hne '+' rfl, hne '-' rfl]

lemma atom_of_name {u : String} (hs : skip s = c :: x) (hc : startsName c)
    (h : name s = some (u, r)) : atom p s = .found (named u) r := by
  obtain ⟨hnumber, hquote, hround, hsquare⟩ := startsName_cases hc
  rw [atom_of_avoids (avoids_skip_of_eq hs hnumber),
    quoted_eq_none (avoids_skip_of_eq hs (by simpa using hquote)),
    parenthesized_eq_missing (avoids_skip_of_eq hs (by simpa using hround)),
    list_eq_missing (avoids_skip_of_eq hs (by simpa using hsquare)), h]
  rfl

lemma atom_eq_missing (hs : skip s = c :: x) (hc : c = ')' ∨ c = ']') :
    atom p s = .missing := by
  rcases hc with rfl | rfl <;>
    rw [atom_of_avoids (avoids_skip_of_eq hs rfl), quoted_eq_none (avoids_skip_of_eq hs rfl),
      parenthesized_eq_missing (avoids_skip_of_eq hs rfl),
      list_eq_missing (avoids_skip_of_eq hs rfl), name_eq_none (avoids_skip_of_eq hs rfl)] <;> rfl

lemma atom_of_token {token : List Char} (h : Token token t) (hs : skip s = token ++ r)
    (hr : Avoids inWord r) : atom p s = .found t (skip r) := by
  cases h with
  | float hu hm he hp hx =>
    refine atom_of_float ?_
    rw [float_eq hu hm he hr (by simp [hs]), if_neg hp, hx]
  | int hd hne hn =>
    have hnot : ∀ rest, skip s ≠ '-' :: rest := fun rest hrest => by
      obtain ⟨c, cs, rfl⟩ := List.exists_cons_of_ne_nil hne
      rw [hs, List.cons_append, List.cons.injEq] at hrest
      have hc := hd c (by simp)
      rw [hrest.1] at hc
      simp at hc
    have hdigits : digits (skip s) = (token, r) := by
      rw [hs]
      exact digits_append hd (hr.mono inWord_of_isDigit)
    -- A float is tried first; it takes the same digits and then misses a point or an exponent.
    refine atom_of_integer ?_ ?_
    · rw [float_eq .none (.whole hd hne) .none hr (by simp [hs]), if_pos ⟨rfl, rfl⟩]
    · rw [integer_of_not_minus hnot hdigits, if_neg hne, Word.ofInt?_eq_some.2 hn, Option.map_some]
  | @negative ds n hd hne hn =>
    have hdigits : digits (ds ++ r) = (ds, r) := digits_append hd (hr.mono inWord_of_isDigit)
    refine atom_of_integer ?_ ?_
    · rw [float_eq .minus (.whole hd hne) .none hr (by simp [hs]), if_pos ⟨rfl, rfl⟩]
    · rw [integer_of_minus hs hdigits, if_neg hne, Word.ofInt?_eq_some.2 hn, Option.map_some]
  | text ht =>
    refine atom_of_quoted hs (quoted_eq ht ?_)
    simp [hs]
  | name hc hcs => exact atom_of_name hs hc (name_eq hc hcs hr hs)

end

lemma reads_token {token w rest : List Char} {t : Term} (h : Token token t) (hw : Padded token w)
    (hrest : Avoids inWord rest) : Reads (atom p) t w rest := by
  intro s hs
  obtain ⟨r, hr, hskip, havoid⟩ := hw.skip_append h.visible rest
  rw [atom_of_token h (hs.trans hr) (havoid hrest), hskip]

/-! ### Brackets -/

section

variable {l r s s' c rest : List Char} {t t' : Term} {ts : List Term}

lemma term_eq_missing {d : Char} {x : List Char} (hs : skip s = d :: x) (hd : d = ')' ∨ d = ']')
    (depth : ℕ) : term depth s = .missing := by
  cases depth with
  | zero => rfl
  | succ depth => simp [term, levels, chain, atom_eq_missing hs hd, Reading.bind]

lemma Padded.close_eq {d : Char} (h : Padded [d] r) (hd : isBlank d = false)
    (hs : skip s = skip (r ++ rest)) : close d t s = .found t (skip rest) := by
  simp [close, h.symbol_eq hd hs]

/-- A bracket at the end is no comma. -/
lemma Padded.following_eq_missing {d : Char} (h : Padded [d] r) (hd : d = ')' ∨ d = ']')
    (hs : skip s = skip (r ++ rest)) : following p s = .missing := by
  obtain ⟨x, hx, -⟩ := h.skip_append (visible_cons (by rcases hd with rfl | rfl <;> rfl) _) rest
  have hnone : symbol ',' s = none := symbol_eq_none fun e he => by
    rw [hs, hx, List.singleton_append, List.head?_cons, Option.mem_some_iff] at he
    rcases hd with rfl | rfl <;> rw [← he] <;> decide
  simp [following, hnone]

lemma Padded.following_eq (h : Padded [','] c) (ht : Reads p t s rest)
    {u : List Char} (hu : skip u = skip (c ++ (s ++ rest))) :
    following p u = .found t (skip rest) := by
  simp [following, h.symbol_eq rfl hu, ht _ (skip_skip _)]

/-- An atom that begins with a bracket is what the reader of such atoms finds. -/
lemma reads_of_bracket {d : Char} {q : Reader Term} {w : List Char} (hd : isBlank d = false)
    (hatom : ∀ {u x r : List Char}, skip u = d :: x → q u = .found t r → atom p u = .found t r)
    (hl : Padded [d] l)
    (h : ∀ u, skip u = skip (l ++ (w ++ rest)) → q u = .found t (skip rest)) :
    Reads (atom p) t (l ++ w) rest := by
  intro u hu
  rw [List.append_assoc] at hu
  obtain ⟨x, hx, -⟩ := hl.skip_append (visible_cons hd _) (w ++ rest)
  exact hatom (hu.trans hx) (h u hu)

lemma reads_unit (hl : Padded ['('] l) (hr : Padded [')'] r) (depth : ℕ) (rest : List Char) :
    Reads (atom (term depth)) .empty (l ++ r) rest := by
  refine reads_of_bracket rfl atom_of_parenthesized hl fun u hu => ?_
  obtain ⟨x, hx, -⟩ := hr.skip_append (visible_cons rfl _) rest
  simp only [parenthesized, hl.symbol_eq rfl hu]
  rw [term_eq_missing ((skip_skip _).trans hx) (.inl rfl)]
  exact hr.close_eq rfl (skip_skip _)

lemma reads_group (hl : Padded ['('] l) (ht : Reads p t s (r ++ rest)) (hr : Padded [')'] r) :
    Reads (atom p) t (l ++ (s ++ r)) rest := by
  refine reads_of_bracket rfl atom_of_parenthesized hl fun u hu => ?_
  rw [List.append_assoc] at hu
  simp only [parenthesized, hl.symbol_eq rfl hu, ht _ (skip_skip _),
    hr.following_eq_missing (.inl rfl) (skip_skip _)]
  exact hr.close_eq rfl (skip_skip _)

lemma reads_pair (hl : Padded ['('] l) (ht : Reads p t s (c ++ (s' ++ (r ++ rest))))
    (hc : Padded [','] c) (ht' : Reads p t' s' (r ++ rest)) (hr : Padded [')'] r) :
    Reads (atom p) (.pair t t') (l ++ (s ++ (c ++ (s' ++ r)))) rest := by
  refine reads_of_bracket rfl atom_of_parenthesized hl fun u hu => ?_
  simp only [List.append_assoc] at hu
  simp only [parenthesized, hl.symbol_eq rfl hu, ht _ (skip_skip _),
    hc.following_eq ht' (skip_skip _)]
  exact hr.close_eq rfl (skip_skip _)

lemma reads_nil (hl : Padded ['['] l) (hr : Padded [']'] r) (depth : ℕ) (rest : List Char) :
    Reads (atom (term depth)) .empty (l ++ r) rest := by
  refine reads_of_bracket rfl atom_of_list hl fun u hu => ?_
  obtain ⟨x, hx, -⟩ := hr.skip_append (visible_cons rfl _) rest
  simp only [list, hl.symbol_eq rfl hu]
  rw [term_eq_missing ((skip_skip _).trans hx) (.inr rfl)]
  exact hr.close_eq rfl (skip_skip _)

lemma reads_list (hl : Padded ['['] l) (ht : Reads p t s (s' ++ (r ++ rest)))
    (hts : (following p).many (skip (s' ++ (r ++ rest))).length (skip (s' ++ (r ++ rest))) =
      .found ts (skip (r ++ rest)))
    (hr : Padded [']'] r) : Reads (atom p) (.ofList (t :: ts)) (l ++ (s ++ (s' ++ r))) rest := by
  refine reads_of_bracket rfl atom_of_list hl fun u hu => ?_
  simp only [List.append_assoc] at hu
  simp only [list, hl.symbol_eq rfl hu, ht _ (skip_skip _), hts, Reading.bind]
  exact hr.close_eq rfl (skip_skip _)

end

/-! ### Operators and commas -/

/-- The reader of a level, above that of the atoms. -/
def level (p : Reader Term) : ℕ → Reader Term
  | 1 => levels p
  | 2 => chain 2 (chain 3 (chain 4 p))
  | 3 => chain 3 (chain 4 p)
  | 4 => chain 4 p
  | _ => p

lemma level_eq_chain (p : Reader Term) (hn : 1 ≤ n ∧ n ≤ 4) :
    level p n = chain n (level p (n + 1)) := by
  obtain rfl | rfl | rfl | rfl : n = 1 ∨ n = 2 ∨ n = 3 ∨ n = 4 := by omega
  all_goals rfl

lemma Follows.level_ne {op : Op} {rest r : List Char} (h : Follows n rest)
    (hs : skip rest = op.symbol :: r) : op.level ≠ n := by
  rcases h op.symbol (by rw [hs]; rfl) with hmem | ⟨op', hop, hlt⟩
  · cases op <;> simp [Op.symbol] at hmem
  · have heq : some op' = some op := by
      rw [← ofSymbol?_eq_some.2 hop, ofSymbol?_eq_some.2 rfl]
    rw [Option.some.inj heq] at hlt
    omega

lemma application_eq_missing {rest : List Char} (h : Follows n rest) :
    application n p (skip rest) = .missing := by
  unfold application
  rw [skip_skip]
  split
  · next c r hs =>
    split
    · next op hop =>
      rw [← ofSymbol?_eq_some.1 hop] at hs
      rw [if_neg (h.level_ne hs)]
    · rfl
  · rfl

lemma Padded.application_eq {op : Op} {t : Term} {o s rest : List Char}
    (ho : Padded [op.symbol] o) (ht : Reads p t s rest) {u : List Char}
    (hu : skip u = skip (o ++ (s ++ rest))) :
    application op.level p u = .found (op, t) (skip rest) := by
  obtain ⟨r, hr, hskip, -⟩ := ho.skip_append (visible_cons (isBlank_symbol op) _) (s ++ rest)
  rw [List.singleton_append] at hr
  have hterm := ht _ ((skip_skip r).trans hskip)
  simp only [application, hu.trans hr, ofSymbol?_eq_some.2 rfl, if_true, hterm, Reading.map]

/-- What comes after an operand is an operator of the level, or follows the whole. -/
lemma Derives.follows_operations {more : List (Op × Term)} {w rest : List Char}
    (h : Derives (.operations n more) w) (hrest : Follows n rest) :
    Follows (n + 1) (w ++ rest) := by
  cases h with
  | last => exact hrest.mono (by omega)
  | operation ho =>
    rw [List.append_assoc]
    exact ho.follows (isBlank_symbol _) (.inr ⟨_, rfl, by omega⟩) _

lemma Derives.follows_items {ts : List Term} {w rest : List Char} (h : Derives (.items ts) w)
    (hrest : (skip rest).head? = some ']') : Follows 1 (w ++ rest) := by
  cases h with
  | noMore =>
    intro c hc
    rw [List.nil_append, hrest, Option.mem_some_iff] at hc
    exact .inl (by simp [← hc])
  | item hc =>
    rw [List.append_assoc]
    exact hc.follows rfl (.inl (by simp)) _

/-- The phrase is found wherever it may stand. -/
def Found (depth : ℕ) : Phrase → List Char → Prop
  | .term n t, w => ∀ rest, Follows n rest → Reads (level (atom (term depth)) n) t w rest
  | .operations n more, w => ∀ rest, Follows n rest → ∀ fuel, ink w ≤ fuel →
      (application n (level (atom (term depth)) (n + 1))).many fuel (skip (w ++ rest)) =
        .found more (skip rest)
  | .items ts, w => ∀ rest, (skip rest).head? = some ']' → ∀ fuel, ink w ≤ fuel →
      (following (level (atom (term depth)) 1)).many fuel (skip (w ++ rest)) =
        .found ts (skip rest)

lemma found_last (depth : ℕ) : Found depth (.operations n []) [] := by
  intro rest hrest fuel _
  cases fuel with
  | zero => rfl
  | succ fuel => rw [Reader.many, List.nil_append, application_eq_missing hrest]

lemma found_noMore (depth : ℕ) : Found depth (.items []) [] := by
  intro rest hrest fuel _
  cases fuel with
  | zero => rfl
  | succ fuel =>
    have hnone : symbol ',' (skip rest) = none := symbol_eq_none fun c hc => by
      rw [skip_skip, hrest, Option.mem_some_iff] at hc
      rw [← hc]
      decide
    simp [Reader.many, following, hnone]

variable {depth : ℕ} {op : Op} {t : Term} {more : List (Op × Term)} {ts : List Term}
  {o c s s' : List Char}

lemma found_chain (hn : 1 ≤ n ∧ n ≤ 4) (ht : Found depth (.term (n + 1) t) s)
    (hm : Found depth (.operations n more) s') (hd : Derives (.operations n more) s') :
    Found depth (.term n (t.operate more)) (s ++ s') := by
  intro rest hrest u hu
  rw [List.append_assoc] at hu
  have hfirst := ht (s' ++ rest) (hd.follows_operations hrest) u hu
  have hmore := hm rest hrest _ (ink_le_length_skip s' rest)
  rw [level_eq_chain _ hn]
  simp only [chain, hfirst, Reading.bind, hmore, Reading.map]
  rfl

lemma found_operation (ho : Padded [op.symbol] o) (ht : Found depth (.term (op.level + 1) t) s)
    (hm : Found depth (.operations op.level more) s')
    (hd : Derives (.operations op.level more) s') :
    Found depth (.operations op.level ((op, t) :: more)) (o ++ (s ++ s')) := by
  intro rest hrest fuel hfuel
  rw [ink_append, ink_append] at hfuel
  obtain ⟨k, rfl, hk⟩ := ho.exists_pred (isBlank_symbol op) hfuel
  have happ := ho.application_eq (ht (s' ++ rest) (hd.follows_operations hrest)) (skip_skip _)
  have hmore := hm rest hrest k (by omega)
  rw [List.append_assoc, List.append_assoc, Reader.many, happ]
  simp only [hmore, Reading.map]

lemma found_item (hc : Padded [','] c) (ht : Found depth (.term 1 t) s)
    (hts : Found depth (.items ts) s') (hd : Derives (.items ts) s') :
    Found depth (.items (t :: ts)) (c ++ (s ++ s')) := by
  intro rest hrest fuel hfuel
  rw [ink_append, ink_append] at hfuel
  obtain ⟨k, rfl, hk⟩ := hc.exists_pred rfl hfuel
  have hfirst := hc.following_eq (ht (s' ++ rest) (hd.follows_items hrest)) (skip_skip _)
  have hmore := hts rest hrest k (by omega)
  rw [List.append_assoc, List.append_assoc, Reader.many, hfirst]
  simp only [hmore, Reading.map]

/-- The rest after a closing bracket does not matter to what stands before the bracket. -/
lemma Padded.follows_close {d : Char} {r : List Char} (h : Padded [d] r) (hd : d = ')' ∨ d = ']')
    (rest : List Char) : Follows 1 (r ++ rest) :=
  h.follows (by rcases hd with rfl | rfl <;> rfl) (.inl (by rcases hd with rfl | rfl <;> simp)) _

lemma Derives.found {phrase : Phrase} {w : List Char} (h : Derives phrase w) (depth : ℕ)
    (hw : ink w ≤ depth) : Found depth phrase w := by
  -- A bracket is ink, so that what it holds has less of it than the whole and needs less depth.
  induction h generalizing depth with
  | token ht hs => exact fun rest hrest => reads_token ht hs hrest.avoids
  | unit hl hr => exact fun rest _ => reads_unit hl hr depth rest
  | nil hl hr => exact fun rest _ => reads_nil hl hr depth rest
  | group hl ht hr ih =>
    rw [ink_append, ink_append] at hw
    obtain ⟨k, rfl, hk⟩ := hl.exists_pred rfl hw
    exact fun rest _ => reads_group hl (ih k (by omega) _ (hr.follows_close (.inl rfl) rest)) hr
  | pair hl ht hc ht' hr ih ih' =>
    simp only [ink_append] at hw
    obtain ⟨k, rfl, hk⟩ := hl.exists_pred rfl hw
    exact fun rest _ => reads_pair hl
      (ih k (by omega) _ (hc.follows rfl (.inl (by simp)) _)) hc
      (ih' k (by omega) _ (hr.follows_close (.inl rfl) rest)) hr
  | list hl ht hts hr ih ih' =>
    simp only [ink_append] at hw
    obtain ⟨k, rfl, hk⟩ := hl.exists_pred rfl hw
    intro rest _
    have hclose := hr.head?_skip rfl rest
    exact reads_list hl (ih k (by omega) _ (hts.follows_items hclose))
      (ih' k (by omega) _ hclose _ (ink_le_length_skip _ _)) hr
  | chain hn ht hm ih ih' =>
    rw [ink_append] at hw
    exact found_chain hn (ih depth (by omega)) (ih' depth (by omega)) hm
  | last => exact found_last depth
  | operation ho ht hm ih ih' =>
    rw [ink_append, ink_append] at hw
    exact found_operation ho (ih depth (by omega)) (ih' depth (by omega)) hm
  | noMore => exact found_noMore depth
  | item hc ht hts ih ih' =>
    rw [ink_append, ink_append] at hw
    exact found_item hc (ih depth (by omega)) (ih' depth (by omega)) hts

/-- **Completeness**: what is derived as a term is read as it. -/
theorem reads_term {w rest : List Char} (h : Derives (.term 1 t) w) (hrest : Follows 1 rest)
    (hdepth : ink w < depth) : Reads (term depth) t w rest := by
  obtain ⟨k, rfl⟩ : ∃ k, depth = k + 1 := ⟨depth - 1, by omega⟩
  exact h.found k (by omega) rest hrest

end Relational.Text
