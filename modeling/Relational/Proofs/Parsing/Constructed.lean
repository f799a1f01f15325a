import Relational.Proofs.Construction
import Relational.Proofs.Parsing.RoundTrip

/-!
Printing what was constructed. A plain value or document, with no floats and no objects in it,
always has a term. Texts are printed between quotes as they are, and nothing stands for a quote
within them: so the printed term is read back exactly if none of the texts holds one.
-/

namespace Relational

/-- The text can stand between quotes. -/
def Unquoted (s : String) : Prop := '"' ∉ s.toList

lemma Term.printable_text {s : String} : (Term.text s).printable ↔ Unquoted s := by
  simp only [Term.text, Term.printable, Scalar.printable, Unquoted, List.all_eq_true,
    decide_eq_true_eq]
  exact ⟨fun h hs => h _ hs rfl, fun h c hc heq => h (heq ▸ hc)⟩

/-! ### Values -/

namespace Native

/-- Made of nothing, truth values, integers and texts with the property, by pairs and lists. -/
inductive Plain (P : String → Prop) : Native → Prop where
  | none : Plain P .none
  | bool (b : Bool) : Plain P (.bool b)
  | int (n : Int64) : Plain P (.int n)
  | text {s : String} (h : P s) : Plain P (.text s)
  | pair {v w : Native} (first : Plain P v) (second : Plain P w) : Plain P (.tuple [v, w])
  | nil : Plain P (.list [])
  | cons {v : Native} {vs : List Native} (head : Plain P v) (tail : Plain P (.list vs)) :
      Plain P (.list (v :: vs))

variable {P : String → Prop}

lemma plain_text {s : String} : (text s).Plain P ↔ P s :=
  ⟨fun h => by cases h; assumption, .text⟩

lemma plain_pair {v w : Native} : (tuple [v, w]).Plain P ↔ v.Plain P ∧ w.Plain P :=
  ⟨fun h => by cases h; exact ⟨‹_›, ‹_›⟩, fun h => .pair h.1 h.2⟩

lemma plain_cons {v : Native} {vs : List Native} :
    (list (v :: vs)).Plain P ↔ v.Plain P ∧ (list vs).Plain P :=
  ⟨fun h => by cases h; exact ⟨‹_›, ‹_›⟩, fun h => .cons h.1 h.2⟩

/-- A plain value has a term without floats, which is as printable as the texts are. -/
lemma Plain.exists_term {v : Native} (h : v.Plain P) :
    ∃ t, v.Denotes t ∧ t.floatFree ∧ (t.printable ↔ v.Plain Unquoted) := by
  induction h with
  | none => exact ⟨_, .none, rfl, iff_of_true rfl .none⟩
  | bool b => exact ⟨_, .bool b, rfl, iff_of_true rfl (.bool b)⟩
  | int n => exact ⟨_, .int n, rfl, iff_of_true rfl (.int n)⟩
  | text _ => exact ⟨_, .text _, rfl, Term.printable_text.trans plain_text.symm⟩
  | pair _ _ ihv ihw =>
    obtain ⟨a, hv, hafree, ha⟩ := ihv
    obtain ⟨b, hw, hbfree, hb⟩ := ihw
    refine ⟨_, .pair hv hw, Term.floatFree_pair.2 ⟨hafree, hbfree⟩, ?_⟩
    rw [Term.printable_pair, plain_pair, ha, hb]
  | nil => exact ⟨_, .nil, rfl, iff_of_true rfl .nil⟩
  | cons _ _ ihv ihvs =>
    obtain ⟨a, hv, hafree, ha⟩ := ihv
    obtain ⟨b, hvs, hbfree, hb⟩ := ihvs
    refine ⟨_, .cons hv hvs, Term.floatFree_pair.2 ⟨hafree, hbfree⟩, ?_⟩
    rw [Term.printable_pair, plain_cons, ha, hb]

end Native

/-! ### Documents -/

namespace Document

/-- Made of nothing, truth values, integers of 64 bits and texts with the property, by arrays. -/
inductive Plain (P : String → Prop) : Document → Prop where
  | null : Plain P .null
  | bool (b : Bool) : Plain P (.bool b)
  | int (n : Int64) : Plain P (.int n.toInt)
  | text {s : String} (h : P s) : Plain P (.text s)
  | nil : Plain P (.array [])
  | cons {d : Document} {ds : List Document} (head : Plain P d) (tail : Plain P (.array ds)) :
      Plain P (.array (d :: ds))

variable {P : String → Prop}

lemma plain_text {s : String} : (text s).Plain P ↔ P s :=
  ⟨fun h => by cases h; assumption, .text⟩

lemma plain_cons {d : Document} {ds : List Document} :
    (array (d :: ds)).Plain P ↔ d.Plain P ∧ (array ds).Plain P :=
  ⟨fun h => by cases h; exact ⟨‹_›, ‹_›⟩, fun h => .cons h.1 h.2⟩

/-- A plain document is a plain value with the same texts. -/
lemma Plain.exists_value {d : Document} (h : d.Plain P) :
    ∃ v, d.Denotes v ∧ ∀ Q, v.Plain Q ↔ d.Plain Q := by
  induction h with
  | null => exact ⟨_, .null, fun _ => iff_of_true .none .null⟩
  | bool b => exact ⟨_, .bool b, fun _ => iff_of_true (.bool b) (.bool b)⟩
  | int n =>
    exact ⟨_, .int (Word.ofInt?_eq_some.2 rfl), fun _ => iff_of_true (.int n) (.int n)⟩
  | text _ => exact ⟨_, .text _, fun _ => Native.plain_text.trans plain_text.symm⟩
  | nil => exact ⟨_, .nil, fun _ => iff_of_true .nil .nil⟩
  | cons _ _ ihd ihds =>
    obtain ⟨v, hd, hv⟩ := ihd
    obtain ⟨w, hds, hw⟩ := ihds
    obtain ⟨vs, rfl⟩ := hds.exists_list
    refine ⟨_, .cons hd hds, fun Q => ?_⟩
    rw [Native.plain_cons, plain_cons, hv, hw]

end Document

namespace Text

/-- Without floats a term is read back exactly if it is printable: nothing else is ever read. -/
lemma parse_render_iff {t : Term} (hfree : t.floatFree) :
    Term.parse t.render = .ok t ↔ t.printable := by
  rw [Term.parse, bind_complete_eq_ok, termOf_eq_ok_iff]
  refine ⟨fun h => ?_, derives_render⟩
  simpa [Phrase.terms, hfree] using h.printable

end Text

open Text

/-- **Constructed terms**: a plain value, and a plain document, has a term whatever its texts are,
and that is printed and read back exactly if none of the texts holds a quote. -/
theorem parse_render_constructed (v : Native) (d : Document) :
    (v.Plain (fun _ => True) →
      ∃ t, v.toTerm = .ok t ∧ (Term.parse t.render = .ok t ↔ v.Plain Unquoted)) ∧
    (d.Plain (fun _ => True) →
      ∃ t, d.toTerm = .ok t ∧ (Term.parse t.render = .ok t ↔ d.Plain Unquoted)) := by
  refine ⟨fun h => ?_, fun h => ?_⟩
  · obtain ⟨t, ht, hfree, hprintable⟩ := h.exists_term
    exact ⟨t, Native.toTerm_eq_ok_iff.2 ht, (parse_render_iff hfree).trans hprintable⟩
  · obtain ⟨v, hv, hplain⟩ := h.exists_value
    obtain ⟨t, ht, hfree, hprintable⟩ := ((hplain _).2 h).exists_term
    refine ⟨t, Document.toTerm_eq_ok_iff.2 ⟨v, hv, ht⟩, ?_⟩
    exact (parse_render_iff hfree).trans (hprintable.trans (hplain _))

theorem parse_render_constructed_nested :
    (∃ t : Term,
      Native.toTerm (.list [.tuple [.none, .text "a (b"], .list [], .int (-3)]) = .ok t ∧
      t.render = "[((), \"a (b\"), (), -3]" ∧ Term.parse t.render = .ok t) ∧
    ∃ t : Term, Document.toTerm (.array [.null, .text "\""]) = .ok t ∧
      Term.parse t.render ≠ .ok t := by
  obtain ⟨hvalue, hdocument⟩ := parse_render_constructed
    (.list [.tuple [.none, .text "a (b"], .list [], .int (-3)]) (.array [.null, .text "\""])
  constructor
  · have hplain (P : String → Prop) (h : P "a (b") :
        Native.Plain P (.list [.tuple [.none, .text "a (b"], .list [], .int (-3)]) :=
      .cons (.pair .none (.text h)) (.cons .nil (.cons (.int _) .nil))
    obtain ⟨t, ht, hread⟩ := hvalue (hplain _ trivial)
    refine ⟨t, ht, ?_, hread.2 (hplain Unquoted (by simp [Unquoted]))⟩
    cases ht
    decide +kernel
  · have hplain : Document.Plain (fun _ => True) (.array [.null, .text "\""]) :=
      .cons .null (.cons (.text trivial) .nil)
    obtain ⟨t, ht, hread⟩ := hdocument hplain
    refine ⟨t, ht, fun h => ?_⟩
    have hquoted := hread.1 h
    simp [Document.plain_cons, Document.plain_text, Unquoted] at hquoted

/-- A text with two quotes is read back as a sum of two texts. -/
theorem parse_render_quotes :
    ∃ t u : Term, Native.Plain (fun _ => True) (.text "a\" + \"b") ∧
      Native.toTerm (.text "a\" + \"b") = .ok t ∧ Document.toTerm (.text "a\" + \"b") = .ok t ∧
      t.render = "\"a\" + \"b\"" ∧ Term.parse t.render = .ok u ∧ u ≠ t :=
  ⟨.text "a\" + \"b", .expr (.text "a") .plus (.text "b"), .text trivial, rfl, rfl, rfl,
    by decide +kernel, by decide⟩

end Relational
