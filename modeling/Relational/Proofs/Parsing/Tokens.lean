import Mathlib.Data.List.DropRight
import Mathlib.Data.List.TakeWhile
import Mathlib.Tactic.SplitIfs
import Relational.Proofs.Parsing.Derivation
import Relational.Proofs.Solving

/-!
Reading tokens. What is read off the front of some characters is a token with the blanks around
it; and a token is read as what it is, whatever follows it, if that cannot go on with the token.
-/

namespace Relational.Text

variable {s r w : List Char}

/-! ### Blanks and words -/

/-- The first character, if there is one, is not of the class. -/
def Avoids (p : Char → Bool) (s : List Char) : Prop := ∀ c ∈ s.head?, p c = false

lemma avoids_cons {p : Char → Bool} {c : Char} (h : p c = false) (s : List Char) :
    Avoids p (c :: s) := fun d hd => by
  rw [List.head?_cons, Option.mem_some_iff] at hd
  rwa [← hd]

lemma Avoids.mono {p q : Char → Bool} (h : Avoids q s) (hpq : ∀ c, p c → q c) : Avoids p s := by
  intro c hc
  have hq := h c hc
  cases hp : p c with
  | false => rfl
  | true => rw [hpq c hp] at hq; exact hq

lemma takeWhile_append {p : Char → Bool} (hs : ∀ c ∈ s, p c) (hr : Avoids p r) :
    (s ++ r).takeWhile p = s := by
  rw [List.takeWhile_append_of_pos hs]
  cases r with
  | nil => simp
  | cons c r => simp [hr c rfl]

lemma dropWhile_append {p : Char → Bool} (hs : ∀ c ∈ s, p c) (hr : Avoids p r) :
    (s ++ r).dropWhile p = r := by
  rw [List.dropWhile_append_of_pos hs]
  cases r with
  | nil => rfl
  | cons c r => simp [hr c rfl]

lemma skip_append (hs : Blank s) (r : List Char) : skip (s ++ r) = skip r :=
  List.dropWhile_append_of_pos hs

lemma skip_skip (s : List Char) : skip (skip s) = skip s := List.dropWhile_idempotent _ _

lemma skip_cons {c : Char} (hc : isBlank c = false) (s : List Char) : skip (c :: s) = c :: s := by
  simp [skip, hc]

lemma exists_blank (s : List Char) : ∃ b, Blank b ∧ s = b ++ skip s :=
  ⟨s.takeWhile isBlank, fun _ hc => List.mem_takeWhile_imp hc,
    List.takeWhile_append_dropWhile.symm⟩

/-- A character that a name or a number could go on with. -/
def inWord (c : Char) : Bool := continuesName c || c = '.'

lemma inWord_of_isDigit (c : Char) (h : c.isDigit) : inWord c := by
  simp [inWord, continuesName, Char.isAlphanum, h]

lemma inWord_of_continuesName (c : Char) (h : continuesName c) : inWord c := by
  simp [inWord, h]

lemma not_inWord_of_isBlank {c : Char} (h : isBlank c) : inWord c = false := by
  simp only [isBlank, Bool.or_eq_true, decide_eq_true_eq] at h
  rcases h with ((rfl | rfl) | rfl) | rfl <;> rfl

lemma avoids_inWord_append (hs : Blank s) (hr : Avoids inWord r) : Avoids inWord (s ++ r) := by
  cases s with
  | nil => exact hr
  | cons c s => exact avoids_cons (not_inWord_of_isBlank (hs c (by simp))) _

/-! ### Blanks around a token -/

lemma exists_padded {token : List Char} (h : skip s = token ++ r) :
    ∃ w, Padded token w ∧ s = w ++ skip r := by
  obtain ⟨before, hb, hs⟩ := exists_blank s
  obtain ⟨after, ha, hr⟩ := exists_blank r
  refine ⟨before ++ (token ++ after), .mk hb ha, ?_⟩
  rw [hs, h, List.append_assoc, List.append_assoc, ← hr]

/-- A token that begins with no blank. -/
def Visible (token : List Char) : Prop := ∃ c cs, token = c :: cs ∧ isBlank c = false

lemma visible_cons {c : Char} (hc : isBlank c = false) (cs : List Char) : Visible (c :: cs) :=
  ⟨c, cs, rfl, hc⟩

/-- Without the blanks before it, a token stands in front of what follows. -/
lemma Padded.skip_append {token : List Char} (h : Padded token w) (ht : Visible token)
    (rest : List Char) :
    ∃ r, skip (w ++ rest) = token ++ r ∧ skip r = skip rest ∧
      (Avoids inWord rest → Avoids inWord r) := by
  obtain ⟨c, cs, rfl, hc⟩ := ht
  obtain ⟨hb, ha⟩ := h
  refine ⟨_ ++ rest, ?_, Text.skip_append ha rest, avoids_inWord_append ha⟩
  rw [List.append_assoc, Text.skip_append hb, List.cons_append, List.cons_append, skip_cons hc,
    List.append_assoc, List.cons_append]

lemma symbol_eq_some {c : Char} (h : symbol c s = some r) : ∃ w, Padded [c] w ∧ s = w ++ r := by
  unfold symbol at h
  split at h
  · next d rest hd =>
    split_ifs at h with hdc
    rw [← Option.some.inj h, ← hdc]
    exact exists_padded hd
  · simp at h

lemma Padded.symbol_eq {c : Char} (h : Padded [c] w) (hc : isBlank c = false)
    {rest : List Char} (hs : skip s = skip (w ++ rest)) : symbol c s = some (skip rest) := by
  obtain ⟨r, hr, hskip, -⟩ := h.skip_append (visible_cons hc _) rest
  simp [symbol, hs, hr, hskip]

lemma symbol_eq_none {c : Char} (h : ∀ d ∈ (skip s).head?, d ≠ c) : symbol c s = none := by
  unfold symbol
  split
  · next d rest hd => rw [if_neg (h d (by rw [hd]; rfl))]
  · rfl

lemma ofSymbol?_eq_some {c : Char} {op : Op} : Op.ofSymbol? c = some op ↔ op.symbol = c := by
  constructor
  · intro h
    simpa using List.find?_some h
  · rintro rfl
    cases op <;> rfl

/-! ### Parts of numbers -/

lemma digits_append (hs : AllDigits s) (hr : Avoids Char.isDigit r) : digits (s ++ r) = (s, r) := by
  rw [digits, takeWhile_append hs hr, dropWhile_append hs hr]

lemma digits_of_avoids (h : Avoids Char.isDigit s) : digits s = ([], s) :=
  digits_append (fun _ hc => absurd hc List.not_mem_nil) h

lemma digits_eq {ds : List Char} (h : digits s = (ds, r)) : AllDigits ds ∧ s = ds ++ r := by
  cases h
  exact ⟨fun _ hc => List.mem_takeWhile_imp hc, List.takeWhile_append_dropWhile.symm⟩

lemma sign_eq {negative : Bool} (h : sign s = (negative, r)) :
    ∃ w, Sign w negative ∧ s = w ++ r := by
  unfold sign at h
  split at h <;> cases h
  · exact ⟨_, .plus, rfl⟩
  · exact ⟨_, .minus, rfl⟩
  · exact ⟨_, .none, rfl⟩

lemma Sign.sign_append {negative : Bool} (h : Sign w negative) {c : Char} (hc : inWord c)
    (r : List Char) : sign (w ++ c :: r) = (negative, c :: r) := by
  cases h with
  | plus | minus => rfl
  | none =>
    unfold sign
    split
    · next heq => cases heq; simp [inWord, continuesName] at hc
    · next heq => cases heq; simp [inWord, continuesName] at hc
    · rfl

lemma mantissa_of_point {whole rest : List Char} (h : digits s = (whole, '.' :: rest)) :
    mantissa s = if whole = [] ∧ (digits rest).1 = [] then none
      else some ((whole, some (digits rest).1), (digits rest).2) := by
  rw [mantissa, h]
  rfl

lemma mantissa_of_whole {whole rest : List Char} (h : digits s = (whole, rest))
    (hrest : Avoids (· = '.') rest) :
    mantissa s = if whole = [] then none else some ((whole, none), rest) := by
  rw [mantissa, h]
  split
  · next heq =>
    cases heq
    simpa using hrest '.' rfl
  · next heq => cases heq; rfl

lemma mantissa_eq {ds : List Char} {fs : Option (List Char)}
    (h : mantissa s = some ((ds, fs), r)) : ∃ m, Mantissa m ds fs ∧ s = m ++ r := by
  rcases hs : digits s with ⟨whole, rest⟩
  obtain ⟨hwhole, rfl⟩ := digits_eq hs
  by_cases hpoint : ∃ rest', rest = '.' :: rest'
  · obtain ⟨rest', rfl⟩ := hpoint
    rcases hrest : digits rest' with ⟨fraction, rest⟩
    obtain ⟨hf, rfl⟩ := digits_eq hrest
    rw [mantissa_of_point hs, hrest] at h
    split_ifs at h with hne
    cases h
    by_cases hnil : ds = []
    · subst hnil
      exact ⟨_, .fraction hf fun hfs => hne ⟨rfl, hfs⟩, by simp⟩
    · exact ⟨_, .point hwhole hnil hf, by simp⟩
  · have hrest : Avoids (· = '.') rest := fun c hc => by
      cases rest with
      | nil => simp at hc
      | cons d rest =>
        simp only [List.head?_cons, Option.mem_some_iff] at hc
        simpa using fun hd => hpoint ⟨rest, by rw [hc, hd]⟩
    rw [mantissa_of_whole hs hrest] at h
    split_ifs at h with hne
    cases h
    exact ⟨_, .whole hwhole hne, rfl⟩

lemma Mantissa.mantissa_append {ds : List Char} {fs : Option (List Char)} (h : Mantissa w ds fs)
    (hr : Avoids (fun c => c.isDigit || c = '.') r) : mantissa (w ++ r) = some ((ds, fs), r) := by
  have hdigit : Avoids Char.isDigit r := hr.mono fun c hc => by simp [hc]
  have hdot : Char.isDigit '.' = false := rfl
  cases h with
  | whole hd hne =>
    rw [mantissa_of_whole (digits_append hd hdigit) (hr.mono fun c hc => by simp at hc; simp [hc]),
      if_neg hne]
  | @point _ fs hd hne hf =>
    have hpoint := digits_append hd (avoids_cons hdot (fs ++ r))
    rw [List.append_assoc, List.cons_append, mantissa_of_point hpoint, digits_append hf hdigit,
      if_neg fun hnil => hne hnil.1]
  | @fraction fs hf hne =>
    have hpoint := digits_of_avoids (avoids_cons hdot (fs ++ r))
    rw [List.cons_append, mantissa_of_point hpoint, digits_append hf hdigit,
      if_neg fun hnil => hne hnil.2]

lemma exponent_eq {n : Option Int} (h : exponent s = .found n r) :
    ∃ e, Exponent e n ∧ s = e ++ r := by
  unfold exponent at h
  split at h
  · next c s =>
    split_ifs at h with hc
    · rcases hs : sign s with ⟨negative, s'⟩
      obtain ⟨w, hw, rfl⟩ := sign_eq hs
      rcases hd : digits s' with ⟨ds, rest⟩
      obtain ⟨hds, rfl⟩ := digits_eq hd
      simp only [hs, hd] at h
      cases ds with
      | nil => simp at h
      | cons d ds =>
        cases h
        exact ⟨_, .some hc hw hds (by simp), by simp⟩
    · cases h
      exact ⟨[], .none, rfl⟩
  · cases h
    exact ⟨[], .none, rfl⟩

lemma Exponent.exponent_append {n : Option Int} (h : Exponent w n) (hr : Avoids inWord r) :
    exponent (w ++ r) = .found n r := by
  cases h with
  | none =>
    cases r with
    | nil => rfl
    | cons c r =>
      have hc := hr c rfl
      have hmark : ¬(c = 'e' ∨ c = 'E') := by
        rintro (rfl | rfl) <;> simp [inWord, continuesName] at hc
      simp [exponent, hmark]
  | @some c s ds negative hc hs hd hne =>
    obtain ⟨d, ds, rfl⟩ := List.exists_cons_of_ne_nil hne
    have hsign := hs.sign_append (inWord_of_isDigit d (hd d (by simp))) (ds ++ r)
    have hdigits := digits_append hd (hr.mono inWord_of_isDigit)
    rw [List.cons_append] at hdigits
    simp only [exponent, List.cons_append, List.append_assoc, if_pos hc, hsign, hdigits]

/-! ### Reading a token -/

/-- A token that is the term stands, with blanks around it, before `r`. -/
def Begins (t : Term) (s r : List Char) : Prop :=
  ∃ token w, Token token t ∧ Padded token w ∧ s = w ++ r

lemma Token.begins {t : Term} (h : Token w t) (hs : skip s = w ++ r) : Begins t s (skip r) := by
  obtain ⟨v, hv, hsv⟩ := exists_padded hs
  exact ⟨w, v, h, hv, hsv⟩

lemma float_eq_found {x : Float} (h : float s = .found x r) : Begins (.float x) s r := by
  unfold float at h
  rcases hs : sign (skip s) with ⟨negative, s'⟩
  obtain ⟨w, hw, hskip⟩ := sign_eq hs
  simp only [hs] at h
  rcases hm : mantissa s' with _ | ⟨⟨ds, fs⟩, s''⟩
  · simp [hm, Reading.within] at h
  · obtain ⟨m, hm', rfl⟩ := mantissa_eq hm
    simp only [hm] at h
    rcases he : exponent s'' with ⟨n, rest⟩ | _ | marks
    · obtain ⟨e, he', rfl⟩ := exponent_eq he
      simp only [he, Reading.bind] at h
      by_cases hp : fs = none ∧ n = none
      · simp [hp, Reading.within] at h
      · rcases hx : Decimal.toFloat? ⟨digitsValue (ds ++ fs.getD []),
          n.getD 0 - (fs.getD []).length⟩ with _ | y
        · simp [hp, hx, Reading.within] at h
        · simp only [if_neg hp, hx, Reading.within, Reading.found.injEq] at h
          obtain ⟨rfl, rfl⟩ := h
          exact (Token.float hw hm' he' hp hx).begins (by simp [hskip])
    · simp [he, Reading.bind, Reading.within] at h
    · simp [he, Reading.bind, Reading.within] at h

lemma integer_of_minus {ds rest : List Char} (hs : skip s = '-' :: rest)
    (hd : digits rest = (ds, r)) :
    integer s =
      if ds = [] then none else (Word.ofInt? (-digitsValue ds)).map (·, skip r) := by
  cases ds <;> simp [integer, hs, hd]

lemma integer_of_not_minus {ds : List Char} (hs : ∀ rest, skip s ≠ '-' :: rest)
    (hd : digits (skip s) = (ds, r)) :
    integer s = if ds = [] then none else (Word.ofInt? (digitsValue ds)).map (·, skip r) := by
  unfold integer
  split
  next negative s' heq =>
  split at heq
  · next rest hminus => exact absurd hminus (hs rest)
  · cases heq
    cases ds <;> simp [hd]

lemma integer_eq_some {n : Int64} (h : integer s = some (n, r)) : Begins (.int n) s r := by
  by_cases hs : ∃ rest, skip s = '-' :: rest
  · obtain ⟨rest, hs⟩ := hs
    rcases hd : digits rest with ⟨ds, rest'⟩
    rw [integer_of_minus hs hd] at h
    obtain ⟨hds, rfl⟩ := digits_eq hd
    split_ifs at h with hne
    obtain ⟨m, hm, heq⟩ := Option.map_eq_some_iff.1 h
    cases heq
    exact (Token.negative hds hne (Word.ofInt?_eq_some.1 hm)).begins hs
  · rcases hd : digits (skip s) with ⟨ds, rest⟩
    rw [integer_of_not_minus (fun rest hrest => hs ⟨rest, hrest⟩) hd] at h
    obtain ⟨hds, hskip⟩ := digits_eq hd
    split_ifs at h with hne
    obtain ⟨m, hm, heq⟩ := Option.map_eq_some_iff.1 h
    cases heq
    exact (Token.int hds hne (Word.ofInt?_eq_some.1 hm)).begins hskip

lemma quoted_eq_some {t : String} (h : quoted s = some (t, r)) : Begins (.text t) s r := by
  unfold quoted at h
  split at h
  · next rest hs =>
    split at h
    · next c after hd =>
      cases h
      have hc : c = '"' := by
        have hc := List.head?_dropWhile_not (· ≠ '"') rest
        rw [hd] at hc
        simpa using hc
      have hskip : skip s = ('"' :: (rest.takeWhile (· ≠ '"') ++ ['"'])) ++ after := by
        rw [hc] at hd
        rw [hs, List.cons_append, List.append_assoc, List.singleton_append, ← hd,
          List.takeWhile_append_dropWhile]
      exact (Token.text fun d hd => by simpa using List.mem_takeWhile_imp hd).begins hskip
    · simp at h
  · simp at h

lemma name_eq_some {t : String} (h : name s = some (t, r)) : Begins (named t) s r := by
  unfold name at h
  split at h
  · next c rest hs =>
    split_ifs at h with hc
    cases h
    have hskip : skip s = (c :: rest.takeWhile continuesName) ++ rest.dropWhile continuesName := by
      rw [hs, List.cons_append, List.takeWhile_append_dropWhile]
    exact (Token.name hc fun _ hd => List.mem_takeWhile_imp hd).begins hskip
  · simp at h

/-! ### A token is read as what it is -/

lemma not_isBlank_of_inWord {c : Char} (h : inWord c) : isBlank c = false := by
  cases hc : isBlank c with
  | false => rfl
  | true => rw [not_inWord_of_isBlank hc] at h; simp at h

lemma Mantissa.exists_cons {ds : List Char} {fs : Option (List Char)} (h : Mantissa w ds fs) :
    ∃ c cs, w = c :: cs ∧ inWord c := by
  cases h with
  | whole hd hne =>
    obtain ⟨c, cs, rfl⟩ := List.exists_cons_of_ne_nil hne
    exact ⟨c, cs, rfl, inWord_of_isDigit c (hd c (by simp))⟩
  | point hd hne hf =>
    obtain ⟨c, cs, rfl⟩ := List.exists_cons_of_ne_nil hne
    exact ⟨c, _, rfl, inWord_of_isDigit c (hd c (by simp))⟩
  | fraction hf hne => exact ⟨'.', _, rfl, rfl⟩

lemma Exponent.avoids {n : Option Int} (h : Exponent w n) (hr : Avoids inWord r) :
    Avoids (fun c => c.isDigit || c = '.') (w ++ r) := by
  cases h with
  | none =>
    refine hr.mono fun c hc => ?_
    rcases Bool.or_eq_true .. ▸ hc with h | h
    · exact inWord_of_isDigit c h
    · rw [inWord, h, Bool.or_true]
  | some hc =>
    refine avoids_cons ?_ _
    rcases hc with rfl | rfl <;> rfl

lemma Token.visible {t : Term} (h : Token w t) : Visible w := by
  cases h with
  | float hs hm =>
    obtain ⟨c, cs, rfl, hc⟩ := hm.exists_cons
    cases hs with
    | none => exact visible_cons (not_isBlank_of_inWord hc) _
    | plus | minus => exact visible_cons rfl _
  | int hd hne =>
    obtain ⟨c, cs, rfl⟩ := List.exists_cons_of_ne_nil hne
    exact visible_cons (not_isBlank_of_inWord (inWord_of_isDigit c (hd c (by simp)))) _
  | negative | text => exact visible_cons rfl _
  | @name c s hc hs =>
    have hword : inWord c := by
      simp only [startsName, inWord, continuesName, Char.isAlphanum, Bool.or_eq_true] at hc ⊢
      tauto
    exact visible_cons (not_isBlank_of_inWord hword) _

/-- What is read where a number stands, with or without point and exponent. -/
lemma float_eq {u m e ds : List Char} {negative : Bool} {fs : Option (List Char)} {n : Option Int}
    (hu : Sign u negative) (hm : Mantissa m ds fs) (he : Exponent e n) (hr : Avoids inWord r)
    (hs : skip s = u ++ (m ++ (e ++ r))) :
    float s =
      if fs = none ∧ n = none then .missing
      else
        match Decimal.toFloat? ⟨digitsValue (ds ++ fs.getD []), n.getD 0 - (fs.getD []).length⟩ with
        | some x => .found (if negative then -x else x) (skip r)
        | none => .missing := by
  obtain ⟨c, cs, hcs, hc⟩ := hm.exists_cons
  have hsign : sign (u ++ (m ++ (e ++ r))) = (negative, m ++ (e ++ r)) := by
    rw [hcs]
    exact hu.sign_append hc _
  simp only [float, hs, hsign, hm.mantissa_append (he.avoids hr), he.exponent_append hr,
    Reading.bind]
  by_cases hp : fs = none ∧ n = none
  · simp only [if_pos hp]
    rfl
  · simp only [if_neg hp]
    cases Decimal.toFloat? ⟨digitsValue (ds ++ fs.getD []), n.getD 0 - (fs.getD []).length⟩ <;> rfl

/-- A character that a number could begin with. -/
def opensNumber (c : Char) : Bool := c.isDigit || c = '.' || c = '+' || c = '-'

lemma float_eq_missing (h : Avoids opensNumber (skip s)) : float s = .missing := by
  have hsign : sign (skip s) = (false, skip s) := by
    unfold sign
    split
    · next heq => simpa [heq, opensNumber] using h '+' (by rw [heq]; rfl)
    · next heq => simpa [heq, opensNumber] using h '-' (by rw [heq]; rfl)
    · rfl
  have hdigits := digits_of_avoids (h.mono fun c hc => by simp [opensNumber, hc])
  have hmantissa : mantissa (skip s) = none := by
    rw [mantissa_of_whole hdigits (h.mono fun c hc => by simp at hc; simp [opensNumber, hc])]
    rfl
  simp [float, hsign, hmantissa, Reading.within]

lemma integer_eq_none (h : Avoids opensNumber (skip s)) : integer s = none := by
  have hdigits := digits_of_avoids (h.mono fun c hc => by simp [opensNumber, hc])
  rw [integer_of_not_minus (fun rest hs => ?_) hdigits, if_pos rfl]
  simpa [opensNumber] using h '-' (by rw [hs]; rfl)

lemma quoted_eq {t : List Char} (ht : ∀ c ∈ t, c ≠ '"') (hs : skip s = '"' :: (t ++ '"' :: r)) :
    quoted s = some (String.ofList t, skip r) := by
  have hp : ∀ c ∈ t, decide (c ≠ '"') = true := fun c hc => by simpa using ht c hc
  have hquote : Avoids (fun c => decide (c ≠ '"')) ('"' :: r) := avoids_cons (by simp) r
  simp only [quoted, hs]
  rw [dropWhile_append hp hquote, takeWhile_append hp hquote]

lemma quoted_eq_none (h : Avoids (· = '"') (skip s)) : quoted s = none := by
  unfold quoted
  split
  · next hs => simpa using h '"' (by rw [hs]; rfl)
  · rfl

lemma name_eq {c : Char} {cs : List Char} (hc : startsName c) (hcs : ∀ d ∈ cs, continuesName d)
    (hr : Avoids inWord r) (hs : skip s = c :: (cs ++ r)) :
    name s = some (String.ofList (c :: cs), skip r) := by
  have hr' := hr.mono inWord_of_continuesName
  simp only [name, hs, if_pos hc]
  rw [takeWhile_append hcs hr', dropWhile_append hcs hr']

lemma name_eq_none (h : Avoids startsName (skip s)) : name s = none := by
  unfold name
  split
  · next c rest hs => rw [if_neg (by rw [h c (by rw [hs]; rfl)]; simp)]
  · rfl

end Relational.Text
