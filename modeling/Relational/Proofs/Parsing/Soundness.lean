import Relational.Proofs.Parsing.Tokens
import Relational.Text.Grammar

/-!
What a reader finds is derived from the characters that it takes. It follows from how the reader
is put together, level by level, and by induction on the depth of the brackets.
-/

namespace Relational.Text

/-! ### Readings that find something -/

namespace Reading

variable {α β : Type} {s : List Char}

lemma bind_eq_found {p : Reading α} {f : α → Reader β} {b : β} (h : p.bind f = .found b s) :
    ∃ a r, p = .found a r ∧ f a r = .found b s := by
  cases p with
  | found a r => exact ⟨a, r, rfl, h⟩
  | missing | broken => simp [bind] at h

lemma map_eq_found {p : Reading α} {f : α → β} {b : β} (h : p.map f = .found b s) :
    ∃ a, p = .found a s ∧ f a = b := by
  cases p with
  | found a r => cases h; exact ⟨a, rfl, rfl⟩
  | missing | broken => simp [map] at h

lemma orElse_eq_found {p : Reading α} {q : Unit → Reading α} {a : α}
    (h : p.orElse q = .found a s) : p = .found a s ∨ q () = .found a s := by
  cases p with
  | found b r => exact .inl h
  | missing => exact .inr h
  | broken => simp [orElse] at h

lemma within_eq_found {p : Reading α} {label : Label} {start : List Char} {a : α} :
    p.within label start = .found a s ↔ p = .found a s := by
  cases p <;> simp [within]

lemma ofOption_eq_found {o : Option (α × List Char)} {a : α} (h : ofOption o = .found a s) :
    o = some (a, s) := by
  cases o with
  | none => simp [ofOption] at h
  | some p => cases h; rfl

end Reading

/-! ### Soundness -/

/-- What the reader finds is derived from the characters that it takes. -/
def Sound {α : Type} (p : Reader α) (phrase : α → Phrase) : Prop :=
  ∀ s a r, p s = .found a r → ∃ w, Derives (phrase a) w ∧ s = w ++ r

/-- Repetition is sound if one more item in front of some is. -/
lemma sound_many {α : Type} {p : Reader α} {phrase : List α → Phrase}
    (hnil : Derives (phrase []) [])
    (hcons : ∀ s a r, p s = .found a r →
      ∃ w, (∀ as w', Derives (phrase as) w' → Derives (phrase (a :: as)) (w ++ w')) ∧ s = w ++ r)
    (k : ℕ) : Sound (p.many k) phrase := by
  induction k with
  | zero =>
    intro s as r h
    cases h
    exact ⟨[], hnil, rfl⟩
  | succ k ih =>
    intro s as r h
    rw [Reader.many] at h
    split at h
    · next a rest ha =>
      obtain ⟨as', has, rfl⟩ := Reading.map_eq_found h
      obtain ⟨w, hw, rfl⟩ := hcons _ _ _ ha
      obtain ⟨w', hw', rfl⟩ := ih _ _ _ has
      exact ⟨w ++ w', hw as' w' hw', (List.append_assoc ..).symm⟩
    · cases h
      exact ⟨[], hnil, rfl⟩
    · simp at h

variable {n : ℕ} {p : Reader Term}

lemma application_eq_found (hp : Sound p (.term (n + 1))) {s r : List Char} {op : Op} {t : Term}
    (h : application n p s = .found (op, t) r) :
    op.level = n ∧ ∃ o w, Padded [op.symbol] o ∧ Derives (.term (n + 1) t) w ∧
      s = o ++ (w ++ r) := by
  unfold application at h
  split at h
  · next c rest hs =>
    split at h
    · next op' hop =>
      split_ifs at h with hlevel
      obtain ⟨t', ht, heq⟩ := Reading.map_eq_found h
      cases heq
      have hskip : skip s = [c] ++ rest := hs
      obtain ⟨o, ho, hso⟩ := exists_padded hskip
      obtain ⟨w, hw, hrest⟩ := hp _ _ _ ht
      rw [← ofSymbol?_eq_some.1 hop] at ho
      exact ⟨hlevel, o, w, ho, hw, by rw [hso, hrest]⟩
    · simp at h
  · simp at h

lemma sound_applications (hp : Sound p (.term (n + 1))) (k : ℕ) :
    Sound ((application n p).many k) (.operations n) := by
  refine sound_many .last (fun s ⟨op, t⟩ r h => ?_) k
  obtain ⟨rfl, o, w, ho, hw, rfl⟩ := application_eq_found hp h
  refine ⟨o ++ w, fun more w' hmore => ?_, (List.append_assoc ..).symm⟩
  rw [List.append_assoc]
  exact .operation ho hw hmore

lemma sound_chain (hn : 1 ≤ n ∧ n ≤ 4) (hp : Sound p (.term (n + 1))) :
    Sound (chain n p) (.term n) := by
  intro s t r h
  obtain ⟨first, rest, hfirst, hmany⟩ := Reading.bind_eq_found h
  obtain ⟨more, hmore, rfl⟩ := Reading.map_eq_found hmany
  obtain ⟨w, hw, rfl⟩ := hp _ _ _ hfirst
  obtain ⟨w', hw', rfl⟩ := sound_applications hp _ _ _ _ hmore
  exact ⟨_, .chain hn hw hw', (List.append_assoc ..).symm⟩

lemma sound_levels (hp : Sound p (.term 5)) : Sound (levels p) (.term 1) :=
  sound_chain (by omega) <| sound_chain (by omega) <| sound_chain (by omega) <|
    sound_chain (by omega) hp

lemma close_eq_found {c : Char} {t u : Term} {s r : List Char} (h : close c t s = .found u r) :
    t = u ∧ ∃ w, Padded [c] w ∧ s = w ++ r := by
  unfold close at h
  split at h
  · next hs =>
    cases h
    exact ⟨rfl, symbol_eq_some hs⟩
  · simp at h

lemma following_eq_found (hp : Sound p (.term 1)) {s r : List Char} {t : Term}
    (h : following p s = .found t r) :
    ∃ c w, Padded [','] c ∧ Derives (.term 1 t) w ∧ s = c ++ (w ++ r) := by
  unfold following at h
  split at h
  · next hs =>
    obtain ⟨c, hc, rfl⟩ := symbol_eq_some hs
    obtain ⟨w, hw, rfl⟩ := hp _ _ _ h
    exact ⟨c, w, hc, hw, rfl⟩
  · simp at h

lemma sound_parenthesized (hp : Sound p (.term 1)) : Sound (parenthesized p) (.term 5) := by
  intro s t r h
  unfold parenthesized at h
  split at h
  · simp at h
  · next inner hs =>
    obtain ⟨l, hl, rfl⟩ := symbol_eq_some hs
    split at h
    · simp at h
    · obtain ⟨rfl, w, hw, rfl⟩ := close_eq_found h
      exact ⟨_, .unit hl hw, (List.append_assoc ..).symm⟩
    · next first rest hfirst =>
      obtain ⟨a, ha, rfl⟩ := hp _ _ _ hfirst
      split at h
      · simp at h
      · obtain ⟨rfl, w, hw, rfl⟩ := close_eq_found h
        exact ⟨_, .group hl ha hw, by simp⟩
      · next second rest' hsecond =>
        obtain ⟨c, b, hc, hb, rfl⟩ := following_eq_found hp hsecond
        obtain ⟨rfl, w, hw, rfl⟩ := close_eq_found h
        exact ⟨_, .pair hl ha hc hb hw, by simp⟩

lemma sound_followings (hp : Sound p (.term 1)) (k : ℕ) :
    Sound ((following p).many k) .items := by
  refine sound_many .noMore (fun s t r h => ?_) k
  obtain ⟨c, w, hc, hw, rfl⟩ := following_eq_found hp h
  refine ⟨c ++ w, fun ts w' hts => ?_, (List.append_assoc ..).symm⟩
  rw [List.append_assoc]
  exact .item hc hw hts

lemma sound_list (hp : Sound p (.term 1)) : Sound (list p) (.term 5) := by
  intro s t r h
  unfold list at h
  split at h
  · simp at h
  · next inner hs =>
    obtain ⟨l, hl, rfl⟩ := symbol_eq_some hs
    split at h
    · simp at h
    · obtain ⟨rfl, w, hw, rfl⟩ := close_eq_found h
      exact ⟨_, .nil hl hw, (List.append_assoc ..).symm⟩
    · next first rest hfirst =>
      obtain ⟨a, ha, rfl⟩ := hp _ _ _ hfirst
      obtain ⟨ts, rest', hts, hclose⟩ := Reading.bind_eq_found h
      obtain ⟨b, hb, rfl⟩ := sound_followings hp _ _ _ _ hts
      obtain ⟨rfl, w, hw, rfl⟩ := close_eq_found hclose
      exact ⟨_, .list hl ha hb hw, by simp⟩

lemma Begins.exists_derives {s r : List Char} {t : Term} (h : Begins t s r) :
    ∃ w, Derives (.term 5 t) w ∧ s = w ++ r := by
  obtain ⟨token, w, ht, hw, hs⟩ := h
  exact ⟨w, .token ht hw, hs⟩

lemma sound_atom (hp : Sound p (.term 1)) : Sound (atom p) (.term 5) := by
  intro s t r h
  rcases Reading.orElse_eq_found (Reading.within_eq_found.1 h) with h | h
  · obtain ⟨x, hx, rfl⟩ := Reading.map_eq_found h
    exact (float_eq_found hx).exists_derives
  rcases Reading.orElse_eq_found h with h | h
  · obtain ⟨x, hx, rfl⟩ := Reading.map_eq_found h
    exact (integer_eq_some (Reading.ofOption_eq_found hx)).exists_derives
  rcases Reading.orElse_eq_found h with h | h
  · obtain ⟨x, hx, rfl⟩ := Reading.map_eq_found h
    exact (quoted_eq_some (Reading.ofOption_eq_found hx)).exists_derives
  rcases Reading.orElse_eq_found h with h | h
  · exact sound_parenthesized hp _ _ _ (Reading.within_eq_found.1 h)
  rcases Reading.orElse_eq_found h with h | h
  · exact sound_list hp _ _ _ (Reading.within_eq_found.1 h)
  · obtain ⟨x, hx, rfl⟩ := Reading.map_eq_found h
    exact (name_eq_some (Reading.ofOption_eq_found hx)).exists_derives

/-- **Soundness**: what is read as a term is derived as it. -/
theorem sound_term (depth : ℕ) : Sound (term depth) (.term 1) := by
  induction depth with
  | zero => intro s t r h; simp [term] at h
  | succ depth ih => exact sound_levels (sound_atom ih)

end Relational.Text
