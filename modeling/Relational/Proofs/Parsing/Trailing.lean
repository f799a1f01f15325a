import Relational.Proofs.Parsing.Language

/-!
What is left of a text. The blanks after a token belong to it, so that a reader leaves a rest that
begins with none. And what it has taken is derived as what it has found, whatever the rest; so the
text up to the rest is read as the same, although operators, commas and parts of numbers have been
tried and given back there.
-/

namespace Relational

namespace Text

/-! ### No blank in front -/

lemma avoids_skip (s : List Char) : Avoids isBlank (skip s) := by
  cases hs : skip s with
  | nil => simp [Avoids]
  | cons c r =>
    have hc := List.head?_dropWhile_not isBlank s
    rw [← skip, hs] at hc
    exact avoids_cons (by simpa using hc) r

/-- What is found leaves a rest that begins with no blank. -/
def Reading.Tidy {α : Type} (p : Reading α) : Prop :=
  ∀ a r, p = .found a r → Avoids isBlank r

namespace Reading

variable {α β : Type}

lemma tidy_found {r : List Char} (hr : Avoids isBlank r) (a : α) : (found a r).Tidy := by
  rintro b r' h
  cases h
  exact hr

lemma tidy_missing : (missing : Reading α).Tidy := fun _ _ h => by cases h

lemma tidy_broken (marks : List Mark) : (broken marks : Reading α).Tidy := fun _ _ h => by cases h

lemma Tidy.map {p : Reading α} (hp : p.Tidy) (f : α → β) : (p.map f).Tidy := by
  intro b r h
  obtain ⟨a, ha, -⟩ := map_eq_found h
  exact hp a r ha

lemma tidy_bind {p : Reading α} {f : α → Reader β} (hf : ∀ a r, p = .found a r → (f a r).Tidy) :
    (p.bind f).Tidy := by
  intro b r h
  obtain ⟨a, r', ha, hb⟩ := bind_eq_found h
  exact hf a r' ha b r hb

lemma Tidy.orElse {p : Reading α} {q : Unit → Reading α} (hp : p.Tidy) (hq : (q ()).Tidy) :
    (p.orElse q).Tidy := by
  intro a r h
  rcases orElse_eq_found h with h | h
  · exact hp a r h
  · exact hq a r h

lemma Tidy.within {p : Reading α} (hp : p.Tidy) (label : Label) (start : List Char) :
    (p.within label start).Tidy := fun a r h => hp a r (within_eq_found.1 h)

end Reading

open Reading (tidy_found tidy_missing tidy_broken tidy_bind)

/-! ### Tokens -/

variable (s : List Char)

lemma tidy_float : (float s).Tidy := by
  unfold float
  refine Reading.Tidy.within ?_ _ _
  split
  split
  · exact tidy_missing
  · refine tidy_bind fun e r _ => ?_
    dsimp only
    split
    · exact tidy_missing
    · split
      · exact tidy_found (avoids_skip _) _
      · exact tidy_missing

lemma tidy_integer : (Reading.ofOption (integer s)).Tidy := by
  intro n r h
  have h := Reading.ofOption_eq_found h
  unfold integer at h
  split at h
  split at h
  · simp at h
  · obtain ⟨m, -, heq⟩ := Option.map_eq_some_iff.1 h
    cases heq
    exact avoids_skip _

lemma tidy_quoted : (Reading.ofOption (quoted s)).Tidy := by
  intro t r h
  have h := Reading.ofOption_eq_found h
  unfold quoted at h
  split at h
  · split at h
    · cases h
      exact avoids_skip _
    · simp at h
  · simp at h

lemma tidy_name : (Reading.ofOption (name s)).Tidy := by
  intro t r h
  have h := Reading.ofOption_eq_found h
  unfold name at h
  split at h
  · split_ifs at h
    cases h
    exact avoids_skip _
  · simp at h

lemma avoids_of_symbol {c : Char} {s r : List Char} (h : symbol c s = some r) :
    Avoids isBlank r := by
  unfold symbol at h
  split at h
  · split_ifs at h
    cases h
    exact avoids_skip _
  · simp at h

lemma tidy_close (c : Char) (t : Term) : (close c t s).Tidy := by
  unfold close
  split
  · next hs => exact tidy_found (avoids_of_symbol hs) t
  · exact tidy_missing

/-! ### Terms -/

lemma tidy_many {α : Type} {p : Reader α} (hp : ∀ s, (p s).Tidy) (k : ℕ) {s : List Char}
    (hs : Avoids isBlank s) : (p.many k s).Tidy := by
  induction k generalizing s with
  | zero => exact tidy_found hs _
  | succ k ih =>
    rw [Reader.many]
    split
    · next a r ha => exact (ih (hp s a r ha)).map _
    · exact tidy_found hs _
    · exact tidy_broken _

lemma tidy_parenthesized (p : Reader Term) : (parenthesized p s).Tidy := by
  unfold parenthesized
  split
  · exact tidy_missing
  · split
    · exact tidy_broken _
    · exact tidy_close _ _ _
    · split
      · exact tidy_broken _
      · exact tidy_close _ _ _
      · exact tidy_close _ _ _

lemma tidy_list (p : Reader Term) : (list p s).Tidy := by
  unfold list
  split
  · exact tidy_missing
  · split
    · exact tidy_broken _
    · exact tidy_close _ _ _
    · exact tidy_bind fun _ _ _ => tidy_close _ _ _

lemma tidy_atom (p : Reader Term) : (atom p s).Tidy := by
  unfold atom
  refine .within (.orElse ?_ (.orElse ?_ (.orElse ?_ (.orElse ?_ (.orElse ?_ ?_))))) _ _
  · exact (tidy_float s).map _
  · exact (tidy_integer s).map _
  · exact (tidy_quoted s).map _
  · exact (tidy_parenthesized s p).within _ _
  · exact (tidy_list s p).within _ _
  · exact (tidy_name s).map _

section

variable {p : Reader Term} (hp : ∀ s, (p s).Tidy)
include hp

lemma tidy_application (n : ℕ) (s : List Char) : (application n p s).Tidy := by
  unfold application
  split
  · split
    · split_ifs
      · exact (hp _).map _
      · exact tidy_missing
    · exact tidy_missing
  · exact tidy_missing

lemma tidy_chain (n : ℕ) (s : List Char) : (chain n p s).Tidy := by
  refine tidy_bind fun first r hfirst => Reading.Tidy.map ?_ _
  exact tidy_many (tidy_application hp n) _ (hp s first r hfirst)

lemma tidy_levels (s : List Char) : (levels p s).Tidy :=
  tidy_chain (tidy_chain (tidy_chain (tidy_chain hp 4) 3) 2) 1 s

end

lemma tidy_term (depth : ℕ) (s : List Char) : (term depth s).Tidy := by
  cases depth with
  | zero => exact tidy_missing
  | succ depth => exact tidy_levels (fun s => tidy_atom s (term depth)) s

/-! ### Whole texts -/

/-- What is read in front of a text is read as the same without the rest, which begins with no
blank. -/
structure Cuts {α : Type} (read : List Char → Except ReadError (α × List Char)) : Prop where
  not_trailing : ∀ s r, read s ≠ .error (.trailing r)
  avoids : ∀ s a r, read s = .ok (a, r) → Avoids isBlank r
  taken : ∀ s a r, read s = .ok (a, r) → ∃ w, read w = .ok (a, []) ∧ s = w ++ r

lemma termOf_ne_trailing (s r : List Char) : termOf s ≠ .error (.trailing r) := by
  unfold termOf
  split <;> simp

lemma avoids_of_termOf {s r : List Char} {t : Term} (h : termOf s = .ok (t, r)) :
    Avoids isBlank r :=
  tidy_term _ _ _ _ (termOf_eq_ok.1 h)

lemma cuts_termOf : Cuts termOf where
  not_trailing := termOf_ne_trailing
  avoids _ _ _ h := avoids_of_termOf h
  taken _ _ _ h := by
    obtain ⟨w, hw, hs⟩ := exists_of_termOf h
    exact ⟨w, termOf_eq_ok_iff.2 hw, hs⟩

lemma queryOf_ne_trailing (s r : List Char) : queryOf s ≠ .error (.trailing r) := by
  have hterm : ∀ {s err}, termOf s = .error err → err ≠ .trailing r := by
    rintro s err h rfl
    exact termOf_ne_trailing s r h
  rcases hleft : termOf s with err | ⟨left, r₁⟩
  · simpa [queryOf, bind, Except.bind, hleft] using hterm hleft
  rcases hrel : relation r₁ with _ | ⟨rel, r₂⟩
  · simp [queryOf, bind, Except.bind, hleft, hrel]
  rcases hright : termOf r₂ with err | ⟨right, r₃⟩
  · simpa [queryOf, bind, Except.bind, hleft, hrel, hright] using hterm hright
  · simp [queryOf_eq hleft hrel hright]

lemma cuts_queryOf : Cuts queryOf where
  not_trailing := queryOf_ne_trailing
  avoids _ _ _ h := by
    obtain ⟨_, _, -, -, hright⟩ := exists_of_queryOf h
    exact avoids_of_termOf hright
  taken _ _ _ h := by
    obtain ⟨w, hw, hs⟩ := exists_derivesQuery h
    exact ⟨w, queryOf_eq_ok_iff.2 hw, hs⟩

lemma Cuts.of_trailing {α : Type} {read : List Char → Except ReadError (α × List Char)}
    (h : Cuts read) {text : String} {rest : List Char}
    (he : read text.toList >>= complete = .error (.trailing rest)) :
    rest ≠ [] ∧ Avoids isBlank rest ∧ ∃ (taken : String) (a : α),
      text = taken ++ String.ofList rest ∧ read text.toList = .ok (a, rest) ∧
      read taken.toList >>= complete = .ok a := by
  rcases hread : read text.toList with err | ⟨a, r⟩
  · rw [hread] at he
    cases he
    exact absurd hread (h.not_trailing _ _)
  · obtain ⟨w, hw, htext⟩ := h.taken _ _ _ hread
    rw [hread] at he
    cases r with
    | nil => cases he
    | cons c r =>
      cases he
      refine ⟨by simp, h.avoids _ _ _ hread, String.ofList w, a, ?_, rfl, ?_⟩
      · rw [← String.toList_inj, htext]
        simp
      · rw [String.toList_ofList, hw]
        rfl

end Text

open Text

/-- **Trailing text**: where a text goes on after a term, or after a query, what is left of it is
not empty and begins with no blank; and what stands before that is read, by itself, as the term or
the query that was read. -/
theorem parse_trailing :
    (∀ (text : String) (rest : List Char), Term.parse text = .error (.trailing rest) →
      rest ≠ [] ∧ Avoids isBlank rest ∧ ∃ (taken : String) (t : Term),
        text = taken ++ String.ofList rest ∧ termOf text.toList = .ok (t, rest) ∧
        Term.parse taken = .ok t) ∧
    ∀ (text : String) (rest : List Char), Query.parse text = .error (.trailing rest) →
      rest ≠ [] ∧ Avoids isBlank rest ∧ ∃ (taken : String) (q : Query),
        text = taken ++ String.ofList rest ∧ queryOf text.toList = .ok (q, rest) ∧
        Query.parse taken = .ok q :=
  ⟨fun _ _ => cuts_termOf.of_trailing, fun _ _ => cuts_queryOf.of_trailing⟩

/-- A number whose exponent is too large for a float is read as an integer and its mark left, and of
an operator without an operand nothing is read. -/
theorem parse_trailing_exponent :
    Term.parse "1e400 + x" = .error (.trailing "e400 + x".toList) ∧
    (∃ t, termOf "1e400 + x".toList = .ok (t, "e400 + x".toList) ∧ Term.parse "1" = .ok t) ∧
    Query.parse "x != [1] - )" = .error (.trailing "- )".toList) ∧
    ∃ q, queryOf "x != [1] - )".toList = .ok (q, "- )".toList) ∧
      Query.parse "x != [1] " = .ok q := by
  have hterm : Term.parse "1e400 + x" = .error (.trailing "e400 + x".toList) := by decide +kernel
  have hquery : Query.parse "x != [1] - )" = .error (.trailing "- )".toList) := by decide +kernel
  obtain ⟨-, -, p, t, hp, ht, hpt⟩ := parse_trailing.1 _ _ hterm
  obtain ⟨-, -, p', q, hp', hq, hpq⟩ := parse_trailing.2 _ _ hquery
  obtain rfl : "1" = p := (String.append_left_inj _).1 (Eq.trans (by decide +kernel) hp)
  obtain rfl : "x != [1] " = p' := (String.append_left_inj _).1 (Eq.trans (by decide +kernel) hp')
  exact ⟨hterm, ⟨t, ht, hpt⟩, hquery, q, hq, hpq⟩

end Relational
